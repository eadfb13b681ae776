import Mathlib.Data.List.DropRight
import Mathlib.Data.List.Infix
import Sumidero.Config
import Sumidero.Data.Fields

namespace Sumidero.Text

/-! The operations of Rust's `str` the parsers use.  A byte offset inside a
character is where the Rust slice panics; here it is `none`. -/

def asBytes (text : Str) : List UInt8 := text.flatMap String.utf8EncodeChar

def len (text : Str) : Nat := (asBytes text).length

/-- `str::from_utf8`. -/
def fromUtf8 (bytes : List UInt8) : Option Str :=
  bytes.toByteArray.utf8Decode?.map Array.toList

/-- `text[..offset]` and `text[offset..]`. -/
def splitAtByte (text : Str) (offset : Nat) : Option (Str × Str) :=
  if offset = 0 then some ([], text)
  else
    match text with
    | [] => none
    | c :: rest =>
        if c.utf8Size ≤ offset then
          (splitAtByte rest (offset - c.utf8Size)).map fun parts => (c :: parts.1, parts.2)
        else none

def isCharBoundary (text : Str) (offset : Nat) : Bool := (splitAtByte text offset).isSome

/-- `text[lo..hi]`. -/
def slice (text : Str) (lo hi : Nat) : Option Str := do
  let (_, back) ← splitAtByte text lo
  let (inner, _) ← splitAtByte back (hi - lo)
  return inner

/-- `char::is_whitespace`. -/
def isWhitespace (c : Char) : Bool :=
  let code := c.toNat
  (9 ≤ code && code ≤ 13) || code == 0x20 || code == 0x85 || code == 0xA0 || code == 0x1680 ||
    (0x2000 ≤ code && code ≤ 0x200A) || code == 0x2028 || code == 0x2029 || code == 0x202F ||
    code == 0x205F || code == 0x3000

def trim (text : Str) : Str := (text.dropWhile isWhitespace).rdropWhile isWhitespace

def splitWhitespace (text : Str) : List Str :=
  (text.splitOnP isWhitespace).filter fun word => !word.isEmpty

def stripPrefix (text front : Str) : Option Str := front.isPrefixOf? text

def stripSuffix (text back : Str) : Option Str := back.isSuffixOf? text

/-- Every `\n` ends a line, with one `\r` before it; what follows the last `\n` is
a line unless it is empty. -/
def lines (text : Str) : List Str :=
  let parts := text.splitOn '\n'
  let ended := parts.dropLast.map fun line => (stripSuffix line ['\r']).getD line
  match parts.getLast? with
  | some last => if last.isEmpty then ended else ended ++ [last]
  | none => ended

def toAsciiLowercase (text : Str) : Str := text.map Char.toLower

def eqIgnoreAsciiCase (a b : Str) : Bool := toAsciiLowercase a = toAsciiLowercase b

/-- The text after the first `sep`: `&text[text.find(sep)? + 1..]`. -/
def afterFirst (sep : Char) : Str → Option Str
  | [] => none
  | c :: rest => if c = sep then some rest else afterFirst sep rest

/-- The text after the last `sep`: `&text[text.rfind(sep)? + 1..]`. -/
def afterLast (sep : Char) (text : Str) : Option Str :=
  if sep ∈ text then (text.splitOn sep).getLast? else none

/-! ### Bytes and characters -/

@[simp] theorem asBytes_nil : asBytes [] = [] := rfl

@[simp] theorem asBytes_cons (c : Char) (text : Str) :
    asBytes (c :: text) = String.utf8EncodeChar c ++ asBytes text := List.flatMap_cons

@[simp] theorem asBytes_append (front back : Str) :
    asBytes (front ++ back) = asBytes front ++ asBytes back := List.flatMap_append

@[simp] theorem fromUtf8_asBytes (text : Str) : fromUtf8 (asBytes text) = some text := by
  have decoded : (List.utf8Encode text).utf8Decode? = some text.toArray :=
    List.utf8Decode?_utf8Encode
  rw [List.utf8Encode] at decoded
  rw [fromUtf8, asBytes, decoded]
  rfl

theorem asBytes_injective : Function.Injective asBytes := by
  intro a b same
  have decoded := fromUtf8_asBytes a
  rw [same, fromUtf8_asBytes] at decoded
  exact (Option.some.inj decoded).symm

@[simp] theorem len_nil : len [] = 0 := rfl

@[simp] theorem len_append (front back : Str) : len (front ++ back) = len front + len back := by
  rw [len, asBytes_append, List.length_append]
  rfl

@[simp] theorem len_cons (c : Char) (text : Str) : len (c :: text) = c.utf8Size + len text := by
  rw [len, asBytes_cons, List.length_append, String.length_utf8EncodeChar]
  rfl

/-- A byte below 128 only occurs as the whole encoding of its own character. -/
theorem ascii_mem_utf8EncodeChar {c : Char} {byte : UInt8} (ascii : byte < 128)
    (member : byte ∈ String.utf8EncodeChar c) : c.toNat = byte.toNat := by
  have bound : byte.toNat < 128 := ascii
  have high : ∀ n, 128 ≤ n → n < 256 → byte ≠ UInt8.ofNat n := by
    intro n least most same
    rw [same, UInt8.toNat_ofNat', Nat.mod_eq_of_lt most] at bound
    omega
  have value : c.val.toNat = c.toNat := rfl
  simp only [String.utf8EncodeChar] at member
  simp only [value] at member
  split at member
  · next small =>
    rw [List.mem_singleton] at member
    rw [member, UInt8.toNat_ofNat']
    omega
  · split at member
    · simp only [List.mem_cons, List.not_mem_nil, or_false] at member
      rcases member with same | same <;> exact absurd same (high _ (by omega) (by omega))
    · split at member
      · simp only [List.mem_cons, List.not_mem_nil, or_false] at member
        rcases member with same | same | same <;>
          exact absurd same (high _ (by omega) (by omega))
      · simp only [List.mem_cons, List.not_mem_nil, or_false] at member
        rcases member with same | same | same | same <;>
          exact absurd same (high _ (by omega) (by omega))

theorem mem_asBytes {text : Str} {c : Char} {byte : UInt8} (code : c.toNat = byte.toNat)
    (ascii : byte < 128) (member : byte ∈ asBytes text) : c ∈ text := by
  obtain ⟨other, inside, encoded⟩ := List.mem_flatMap.mp member
  have equal : other.toNat = c.toNat := (ascii_mem_utf8EncodeChar ascii encoded).trans code.symm
  have same : other = c := Char.ext (UInt32.toNat_inj.mp equal)
  exact same ▸ inside

theorem asBytes_intercalate (fields : List Str) :
    asBytes (['.'].intercalate fields) = [46].intercalate (fields.map asBytes) := by
  induction fields with
  | nil => rfl
  | cons field rest ih =>
      cases rest with
      | nil => simp
      | cons next rest =>
          rw [List.map_cons, List.map_cons, List.intercalate_cons_cons, List.intercalate_cons_cons,
            asBytes_append, asBytes_append, ih, List.map_cons]
          rfl

theorem splitOn_asBytes (text : Str) :
    (asBytes text).splitOn 46 = (text.splitOn '.').map asBytes := by
  conv => lhs; rw [← @List.intercalate_splitOn _ text _ _ '.', asBytes_intercalate]
  apply List.splitOn_intercalate
  · intro field member dotted
    obtain ⟨label, inside, rfl⟩ := List.mem_map.mp member
    exact Data.not_mem_of_mem_splitOn label inside (mem_asBytes rfl (by decide) dotted)
  · simp

/-- A name ends in a key after a dot exactly when its bytes do. -/
theorem dot_suffix_asBytes {name key : Str} :
    (46 :: asBytes key) <:+ asBytes name ↔ ('.' :: key) <:+ name := by
  constructor
  · intro ending
    have fields := Data.splitOn_suffix_iff.mpr (.inr ending)
    rw [splitOn_asBytes, splitOn_asBytes,
      List.suffix_map_iff_of_injective asBytes_injective] at fields
    rcases Data.splitOn_suffix_iff.mp fields with same | after
    · rw [same] at ending
      have short := ending.length_le
      rw [List.length_cons] at short
      omega
    · exact after
  · intro given
    obtain ⟨front, rfl⟩ := given
    rw [asBytes_append, asBytes_cons]
    exact List.suffix_append _ _

theorem splitAtByte_append (front back : Str) :
    splitAtByte (front ++ back) (len front) = some (front, back) := by
  induction front with
  | nil =>
      unfold splitAtByte
      simp
  | cons c rest ih =>
      have positive := c.utf8Size_pos
      rw [List.cons_append, splitAtByte, if_neg (by rw [len_cons]; omega)]
      simp only [len_cons, Nat.le_add_right, if_true, Nat.add_sub_cancel_left, ih, Option.map_some]

theorem splitAtByte_eq {text front back : Str} {offset : Nat}
    (split : splitAtByte text offset = some (front, back)) :
    text = front ++ back ∧ len front = offset := by
  induction text generalizing offset front back with
  | nil =>
      simp only [splitAtByte] at split
      split at split
      · next zero =>
        cases split
        exact ⟨rfl, zero.symm⟩
      · cases split
  | cons c rest ih =>
      simp only [splitAtByte] at split
      by_cases zero : offset = 0
      · rw [if_pos zero] at split
        cases split
        exact ⟨rfl, zero.symm⟩
      · rw [if_neg zero] at split
        by_cases fits : c.utf8Size ≤ offset
        · rw [if_pos fits] at split
          obtain ⟨⟨inner, outer⟩, rest_split, same⟩ := Option.map_eq_some_iff.mp split
          cases same
          obtain ⟨whole, size⟩ := ih rest_split
          refine ⟨by rw [whole, List.cons_append], ?_⟩
          rw [len_cons, size]
          omega
        · rw [if_neg fits] at split
          cases split

theorem slice_append (front inner back : Str) :
    slice (front ++ inner ++ back) (len front) (len front + len inner) = some inner := by
  simp only [slice]
  rw [List.append_assoc, splitAtByte_append]
  simp only [Option.bind_eq_bind, Option.bind_some, Nat.add_sub_cancel_left, splitAtByte_append]
  rfl

end Sumidero.Text
