import Sumidero.Net.IpAddr

namespace Sumidero.Net

open Text

/-! Reading an address back from its text: digits, the four octets, the eight groups with
their longest run of zeroes left out. -/

/-! ### Digits -/

theorem toDigit_digitChar : ∀ radix ≤ 16, ∀ digit < radix,
    toDigit radix (Nat.digitChar digit) = some digit := by decide

section Digits

variable {radix maxDigits count value number : Nat}

theorem readDigits_digit {c : Char} {digit : Nat} {rest : Str} (isDigit : toDigit radix c = some digit)
    (room : count + 1 ≤ maxDigits) :
    readDigits radix maxDigits count value (c :: rest) =
      readDigits radix maxDigits (count + 1) (value * radix + digit) rest := by
  rw [readDigits, isDigit]
  dsimp only
  rw [if_neg (by omega)]

/-- The digits of a number are read as that number. -/
theorem readDigits_toDigits (small : 1 < radix) (large : radix ≤ 16) (number : Nat) (rest : Str)
    (room : count + (Nat.toDigits radix number).length ≤ maxDigits) :
    readDigits radix maxDigits count value (Nat.toDigits radix number ++ rest) =
      readDigits radix maxDigits (count + (Nat.toDigits radix number).length)
        (value * radix ^ (Nat.toDigits radix number).length + number) rest := by
  induction number using Nat.strongRecOn generalizing rest with
  | _ number ih =>
      by_cases single : number < radix
      · rw [Nat.toDigits_of_lt_base single] at room ⊢
        rw [List.singleton_append, readDigits_digit (toDigit_digitChar radix large number single) room,
          List.length_singleton, Nat.pow_one]
      · have more : radix ≤ number := Nat.le_of_not_lt single
        have fewer : number / radix < number := Nat.div_lt_self (by omega) small
        rw [Nat.toDigits_of_base_le small more] at room ⊢
        rw [List.length_append, List.length_singleton] at room ⊢
        rw [List.append_assoc, ih _ fewer _ (by omega), List.singleton_append,
          readDigits_digit (toDigit_digitChar radix large _ (Nat.mod_lt _ (by omega))) (by omega)]
        have parts := Nat.div_add_mod number radix
        congr 1
        rw [Nat.pow_succ, Nat.add_mul, Nat.mul_assoc, Nat.add_assoc, Nat.mul_comm (number / radix),
          parts]

theorem readDigits_stop {rest : Str} (stops : ∀ c ∈ rest.head?, toDigit radix c = none) :
    readDigits radix maxDigits count value rest = some ((count, value), rest) := by
  cases rest with
  | nil => rfl
  | cons c more => rw [readDigits, stops c rfl]

/-- A number has no leading zero. -/
theorem toDigits_head (small : 1 < radix) (large : radix ≤ 16) (number : Nat)
    (zero : (Nat.toDigits radix number).head? = some '0') : number = 0 := by
  induction number using Nat.strongRecOn with
  | _ number ih =>
      by_cases single : number < radix
      · rw [Nat.toDigits_of_lt_base single] at zero
        have digit := toDigit_digitChar radix large number single
        rw [Option.some.inj zero] at digit
        have nothing := toDigit_digitChar radix large 0 (by omega)
        exact Option.some.inj (digit.symm.trans nothing)
      · have more : radix ≤ number := Nat.le_of_not_lt single
        have fewer : number / radix < number := Nat.div_lt_self (by omega) small
        rw [Nat.toDigits_of_base_le small more, List.head?_append_of_ne_nil _ Nat.toDigits_ne_nil]
          at zero
        have none := ih _ fewer zero
        have positive := Nat.div_pos more (by omega)
        omega

theorem toDigits_injective {other : Nat} (small : 1 < radix) (large : radix ≤ 16)
    (same : Nat.toDigits radix number = Nat.toDigits radix other) : number = other := by
  have read := @readDigits_toDigits radix (Nat.toDigits radix number).length 0 0 small large number
    [] (by omega)
  rw [same, readDigits_toDigits small large other [] (by omega)] at read
  simpa [readDigits, eq_comm] using read

theorem readNumber_toDigits {largest : Nat} (allowZeroPrefix : Bool) (small : 1 < radix)
    (large : radix ≤ 16) (fits : number ≤ largest) (short : number < radix ^ maxDigits)
    (positive : 0 < maxDigits) {rest : Str} (stops : ∀ c ∈ rest.head?, toDigit radix c = none) :
    readNumber radix maxDigits largest allowZeroPrefix (Nat.toDigits radix number ++ rest) =
      some (number, rest) := by
  have length := (Nat.length_toDigits_le_iff small positive).mpr short
  have some_digit : (Nat.toDigits radix number).length ≠ 0 := by
    simp [Nat.toDigits_ne_nil]
  simp only [readNumber]
  rw [readDigits_toDigits small large number rest (by omega), readDigits_stop stops]
  simp only [Option.bind_eq_bind, Option.bind_some, Nat.zero_add, Nat.zero_mul]
  rw [if_neg some_digit, if_pos fits, if_neg]
  rw [List.head?_append_of_ne_nil _ Nat.toDigits_ne_nil]
  simp only [Bool.and_eq_true, beq_iff_eq, decide_eq_true_eq, not_and]
  intro given several
  obtain ⟨_, zero⟩ := given
  obtain rfl := toDigits_head small large number zero
  rw [Nat.toDigits_zero] at several
  exact absurd several (by decide)

end Digits

/-! ### Octets -/

/-- Four octets, or eight groups of 16 bits. -/
def IpAddr.WellFormed : IpAddr → Prop
  | .V4 octets => octets.length = 4 ∧ ∀ octet ∈ octets, octet ≤ 255
  | .V6 groups => groups.length = 8 ∧ ∀ group ∈ groups, group ≤ 65535

/-- What follows a text of digits in this radix. -/
def Stops (radix : Nat) (rest : Str) : Prop := ∀ c ∈ rest.head?, toDigit radix c = none

section Octets

variable {α : Type} {inner : Reader α} {octet index : Nat} {rest : Str}

theorem readSeparator_first (sep : Char) (text : Str) : readSeparator sep 0 inner text = inner text :=
  rfl

theorem readSeparator_next (sep : Char) (later : 0 < index) (text : Str) :
    readSeparator sep index inner (sep :: text) = inner text := by
  simp only [readSeparator]
  rw [if_pos later, readGivenChar, if_pos rfl]
  rfl

theorem readOctet (fits : octet ≤ 255) (stops : Stops 10 rest) :
    readNumber 10 3 255 false (Nat.toDigits 10 octet ++ rest) = some (octet, rest) :=
  readNumber_toDigits false (by decide) (by decide) fits (by omega) (by decide) stops

theorem stops_cons {radix : Nat} {c : Char} (noDigit : toDigit radix c = none) (text : Str) :
    Stops radix (c :: text) := by
  intro other first
  cases first
  exact noDigit

theorem readIpv4Addr_showIpv4 {octets : List Nat} (four : octets.length = 4)
    (fits : ∀ octet ∈ octets, octet ≤ 255) (stops : Stops 10 rest) :
    readIpv4Addr (showIpv4 octets ++ rest) = some (octets, rest) := by
  obtain ⟨a, b, c, d, rfl⟩ := List.length_eq_four.mp four
  have dot : ∀ text, Stops 10 ('.' :: text) := stops_cons (by decide)
  have text : showIpv4 [a, b, c, d] ++ rest = Nat.toDigits 10 a ++ '.' :: (Nat.toDigits 10 b ++
      '.' :: (Nat.toDigits 10 c ++ '.' :: (Nat.toDigits 10 d ++ rest))) := by
    simp [showIpv4, List.intercalate]
  rw [text]
  simp only [readIpv4Addr]
  simp only [readSeparator_first, readSeparator_next '.' (show 0 < 1 by decide),
    readSeparator_next '.' (show 0 < 2 by decide), readSeparator_next '.' (show 0 < 3 by decide),
    readOctet (fits a (by simp)) (dot _), readOctet (fits b (by simp)) (dot _),
    readOctet (fits c (by simp)) (dot _), readOctet (fits d (by simp)) stops,
    Option.bind_eq_bind, Option.bind_some]
  rfl

end Octets

/-! ### Groups -/

theorem toDigit_decimal {c : Char} (noDigit : toDigit 16 c = none) : toDigit 10 c = none := by
  unfold toDigit at noDigit ⊢
  dsimp only at noDigit ⊢
  by_cases decimal : '0' ≤ c ∧ c ≤ '9'
  · rw [if_pos decimal] at noDigit
    have above : c.toNat ≤ '9'.toNat := decimal.2
    have value : '9'.toNat - '0'.toNat < 16 := by decide
    rw [if_pos (by omega)] at noDigit
    contradiction
  · rw [if_neg decimal, if_neg]
    split
    · omega
    · split <;> omega

/-- What follows an address: nothing, or a character of no address. -/
def Ends (rest : Str) : Prop := ∀ c ∈ rest.head?, toDigit 16 c = none ∧ c ≠ '.' ∧ c ≠ ':'

/-- No further group begins here. -/
def Halts (rest : Str) : Prop :=
  ∀ index, readSeparator ':' index readIpv4Addr rest = none ∧
    readSeparator ':' index (readNumber 16 4 65535 true) rest = none

section Fronts

variable {radix maxDigits largest count value number : Nat} {allowZeroPrefix : Bool}

theorem readDigits_front {text rest : Str}
    (read : readDigits radix maxDigits count value text = some ((number, largest), rest)) :
    ∃ front, text = front ++ rest ∧ ∀ c ∈ front, toDigit radix c ≠ none := by
  induction text generalizing count value with
  | nil =>
      cases read
      exact ⟨[], rfl, List.forall_mem_nil _⟩
  | cons c more ih =>
      rw [readDigits] at read
      split at read
      · cases read
        exact ⟨[], rfl, List.forall_mem_nil _⟩
      · next digit isDigit =>
        split at read
        · contradiction
        · obtain ⟨front, whole, digits⟩ := ih read
          refine ⟨c :: front, by rw [whole, List.cons_append], ?_⟩
          intro other member
          rcases List.mem_cons.mp member with rfl | later
          · rw [isDigit]
            exact Option.some_ne_none digit
          · exact digits other later

theorem readNumber_front {text rest : Str}
    (read : readNumber radix maxDigits largest allowZeroPrefix text = some (number, rest)) :
    ∃ front, text = front ++ rest ∧ ∀ c ∈ front, toDigit radix c ≠ none := by
  simp only [readNumber] at read
  obtain ⟨⟨⟨count, value⟩, left⟩, digits, read⟩ := Option.bind_eq_some_iff.mp read
  dsimp only at read
  repeat' split at read
  all_goals first
    | contradiction
    | (cases read; exact readDigits_front digits)

theorem mem_toDigits (number : Nat) {c : Char} (member : c ∈ Nat.toDigits 16 number) :
    toDigit 16 c ≠ none := by
  induction number using Nat.strongRecOn with
  | _ number ih =>
      by_cases single : number < 16
      · rw [Nat.toDigits_of_lt_base single, List.mem_singleton] at member
        rw [member, toDigit_digitChar 16 (by decide) number single]
        exact nofun
      · rw [Nat.toDigits_of_base_le (by decide) (Nat.le_of_not_lt single), List.mem_append,
          List.mem_singleton] at member
        rcases member with front | rfl
        · exact ih _ (by omega) front
        · rw [toDigit_digitChar 16 (by decide) _ (Nat.mod_lt _ (by decide))]
          exact nofun

/-- Octets are followed by a dot. -/
theorem readIpv4Addr_undotted {text : Str}
    (undotted : ∀ front back, text = front ++ '.' :: back → ∃ c ∈ front, toDigit 10 c = none) :
    readIpv4Addr text = none := by
  simp only [readIpv4Addr]
  simp only [readSeparator_first]
  cases read : readNumber 10 3 255 false text with
  | none => rfl
  | some first =>
      obtain ⟨octet, rest⟩ := first
      obtain ⟨front, whole, digits⟩ := readNumber_front read
      cases rest with
      | nil => rfl
      | cons c back =>
          have other : c ≠ '.' := by
            intro same
            rw [same] at whole
            obtain ⟨odd, member, none⟩ := undotted front back whole
            exact digits odd member none
          simp [readSeparator, readGivenChar, other]

/-- A group in hexadecimal does not begin octets. -/
theorem readIpv4Addr_group (group : Nat) {rest : Str}
    (ends : ∀ c ∈ rest.head?, toDigit 16 c = none ∧ c ≠ '.') :
    readIpv4Addr (Nat.toDigits 16 group ++ rest) = none := by
  apply readIpv4Addr_undotted
  intro front back whole
  rcases List.append_eq_append_iff.mp whole with ⟨more, longer, rests⟩ | ⟨more, shorter, rests⟩
  · cases more with
    | nil =>
        rw [rests] at ends
        exact absurd rfl (ends '.' rfl).2
    | cons c others =>
        rw [rests] at ends
        refine ⟨c, ?_, toDigit_decimal (ends c rfl).1⟩
        rw [longer]
        exact List.mem_append_right _ List.mem_cons_self
  · cases more with
    | nil =>
        rw [List.nil_append] at rests
        rw [← rests] at ends
        exact absurd rfl (ends '.' rfl).2
    | cons c others =>
        obtain ⟨rfl, _⟩ := List.cons.inj rests
        have member : '.' ∈ Nat.toDigits 16 group := by
          rw [shorter]
          exact List.mem_append_right _ List.mem_cons_self
        exact absurd (show toDigit 16 '.' = none by decide) (mem_toDigits group member)

end Fronts

section Groups

variable {limit left index group : Nat} {acc groups : List Nat} {rest : Str}

theorem readNumber_nil {radix maxDigits largest : Nat} {allowZeroPrefix : Bool} :
    readNumber radix maxDigits largest allowZeroPrefix [] = none := rfl

theorem readIpv4Addr_none {c : Char} (noDigit : toDigit 16 c = none) (text : Str) :
    readIpv4Addr (c :: text) = none := by
  have nothing : readNumber 10 3 255 false (c :: text) = none :=
    readNumber_none (toDigit_decimal noDigit)
  simp [readIpv4Addr, readSeparator_first, nothing]

theorem Ends.halts (ends : Ends rest) : Halts rest := by
  intro index
  cases rest with
  | nil =>
      simp only [readSeparator]
      split
      · exact ⟨rfl, rfl⟩
      · exact ⟨rfl, readNumber_nil⟩
  | cons c more =>
      obtain ⟨noDigit, _, noColon⟩ := ends c rfl
      simp only [readSeparator]
      split
      · simp [readGivenChar, noColon]
      · exact ⟨readIpv4Addr_none noDigit more, readNumber_none noDigit⟩

/-- The `::` of a run of zeroes. -/
theorem halts_gap (text : Str) : Halts (':' :: ':' :: text) := by
  have noDigit : toDigit 16 ':' = none := by decide
  intro index
  simp only [readSeparator]
  split
  · simp [readGivenChar, readIpv4Addr_none noDigit, readNumber_none noDigit]
  · exact ⟨readIpv4Addr_none noDigit _, readNumber_none noDigit⟩

theorem readGroups_halts (halts : Halts rest) :
    readGroups limit left acc rest = ((acc, false), rest) := by
  cases left with
  | zero => rfl
  | succ left =>
      obtain ⟨octets, number⟩ := halts acc.length
      simp only [readGroups, octets, number, ite_self]

/-- The text of a group, as it stands after so many others. -/
def separated (index : Nat) (text : Str) : Str := if 0 < index then ':' :: text else text

theorem readSeparator_separated {α : Type} {inner : Reader α} (text : Str) :
    readSeparator ':' index inner (separated index text) = inner text := by
  simp only [separated]
  split
  · next later => exact readSeparator_next ':' later text
  · next first =>
    simp only [readSeparator]
    rw [if_neg first]

/-- One group is read. -/
theorem readGroups_step (fits : group ≤ 65535)
    (ends : ∀ c ∈ rest.head?, toDigit 16 c = none ∧ c ≠ '.') :
    readGroups limit (left + 1) acc (separated acc.length (Nat.toDigits 16 group ++ rest)) =
      readGroups limit left (acc ++ [group]) rest := by
  have number : readNumber 16 4 65535 true (Nat.toDigits 16 group ++ rest) = some (group, rest) :=
    readNumber_toDigits true (by decide) (by decide) fits (by omega) (by decide)
      fun c first => (ends c first).1
  simp only [readGroups, readSeparator_separated, readIpv4Addr_group group ends, number, ite_self]

/-- The last two groups written as octets. -/
theorem readGroups_octets {text : Str} {a b c d : Nat} (room : acc.length < limit - 1)
    (octets : readIpv4Addr text = some ([a, b, c, d], rest)) :
    readGroups limit (left + 1) acc (separated acc.length text) =
      ((acc ++ [a * 256 + b, c * 256 + d], true), rest) := by
  simp only [readGroups, readSeparator_separated, octets]
  rw [if_pos room]

/-- The groups after the first. -/
def following (groups : List Nat) : Str := groups.flatMap fun group => ':' :: Nat.toDigits 16 group

theorem showGroups_cons (group : Nat) (groups : List Nat) :
    showGroups (group :: groups) = Nat.toDigits 16 group ++ following groups := by
  induction groups generalizing group with
  | nil => simp [showGroups, following, List.intercalate]
  | cons next others ih =>
      have later := ih next
      unfold showGroups at later ⊢
      rw [List.map_cons, List.map_cons, List.intercalate_cons_cons, ← List.map_cons, later]
      simp [following]

theorem following_ends (ends : ∀ c ∈ rest.head?, toDigit 16 c = none ∧ c ≠ '.') :
    ∀ c ∈ (following groups ++ rest).head?, toDigit 16 c = none ∧ c ≠ '.' := by
  cases groups with
  | nil => exact ends
  | cons group others =>
      intro c first
      cases first
      decide

theorem readGroups_following (started : acc ≠ []) (fits : ∀ group ∈ groups, group ≤ 65535)
    (ends : ∀ c ∈ rest.head?, toDigit 16 c = none ∧ c ≠ '.') :
    readGroups limit (groups.length + left) acc (following groups ++ rest) =
      readGroups limit left (acc ++ groups) rest := by
  induction groups generalizing acc with
  | nil => simp [following]
  | cons group others ih =>
      have later : 0 < acc.length := List.length_pos_iff.mpr started
      have text : following (group :: others) ++ rest =
          separated acc.length (Nat.toDigits 16 group ++ (following others ++ rest)) := by
        rw [separated, if_pos later]
        simp [following]
      have count : (group :: others).length + left = (others.length + left) + 1 := by
        rw [List.length_cons]
        omega
      rw [text, count, readGroups_step (fits group List.mem_cons_self) (following_ends ends),
        ih (by simp) fun other member => fits other (List.mem_cons_of_mem _ member),
        List.append_assoc, List.singleton_append]

theorem readGroups_showGroups (fits : ∀ group ∈ groups, group ≤ 65535)
    (ends : ∀ c ∈ rest.head?, toDigit 16 c = none ∧ c ≠ '.') :
    readGroups limit (groups.length + left) [] (showGroups groups ++ rest) =
      readGroups limit left groups rest := by
  cases groups with
  | nil => simp [showGroups, List.intercalate]
  | cons group others =>
      have count : (group :: others).length + left = (others.length + left) + 1 := by
        rw [List.length_cons]
        omega
      have first : readGroups limit (others.length + left + 1) []
          (Nat.toDigits 16 group ++ (following others ++ rest)) =
            readGroups limit (others.length + left) [group] (following others ++ rest) :=
        readGroups_step (fits group List.mem_cons_self) (following_ends ends)
      rw [showGroups_cons, List.append_assoc, count, first, readGroups_following (by simp)
        (fun other member => fits other (List.mem_cons_of_mem _ member)) ends]
      rfl

end Groups

/-! ### Runs of zeroes -/

/-- Every group of the run is zero. -/
def ZeroRun (groups : List Nat) (run : Nat × Nat) : Prop :=
  ∀ i, run.1 ≤ i → i < run.1 + run.2 → groups[i]? = some 0

theorem longestZeroes_run {all groups : List Nat} {index : Nat} {current longest : Nat × Nat}
    (here : all.drop index = groups) (running : ZeroRun all current)
    (adjacent : current.2 = 0 ∨ current.1 + current.2 = index) (held : ZeroRun all longest) :
    ZeroRun all (longestZeroes index current longest groups) := by
  induction groups generalizing index current longest with
  | nil => exact held
  | cons segment others ih =>
      have next : all.drop (index + 1) = others := by
        rw [← List.drop_drop, here]
        rfl
      have this : all[index]? = some segment := by
        rw [← List.head?_drop, here]
        rfl
      have either : ∀ run : Nat × Nat, ZeroRun all run →
          ZeroRun all (if longest.2 < run.2 then run else longest) := by
        intro run zeroes
        split
        · exact zeroes
        · exact held
      rw [longestZeroes]
      split
      · next zero =>
        rw [zero] at this
        have grown : ZeroRun all (if current.2 = 0 then (index, 1) else (current.1, current.2 + 1)) := by
          intro i from_ until_
          by_cases last : i = index
          · rw [last]
            exact this
          · split at from_
            · next fresh =>
              rw [if_pos fresh] at until_
              dsimp only at from_ until_
              omega
            · next old =>
              rw [if_neg old] at until_
              dsimp only at from_ until_
              exact running i from_ (by omega)
        apply ih next grown
        · right
          split
          · rfl
          · next old => omega
        · exact either _ grown
      · exact ih next (fun _ _ until_ => absurd until_ (by simp)) (.inl rfl) held

theorem zeroRun_split {groups : List Nat} {start len : Nat} (run : ZeroRun groups (start, len))
    (some_zero : 0 < len) :
    start + len ≤ groups.length ∧
      groups = groups.take start ++ (List.replicate len 0 ++ groups.drop (start + len)) := by
  have bound : start + len ≤ groups.length := by
    have last := run (start + len - 1) (by dsimp only; omega) (by dsimp only; omega)
    have inside := (List.getElem?_eq_some_iff.mp last).1
    omega
  have zeroes : (groups.drop start).take len = List.replicate len 0 := by
    apply List.ext_getElem?
    intro i
    rw [List.getElem?_take, List.getElem?_drop, List.getElem?_replicate]
    split
    · exact run (start + i) (Nat.le_add_right _ _) (by dsimp only; omega)
    · rfl
  refine ⟨bound, ?_⟩
  rw [← zeroes, ← List.drop_drop, List.take_append_drop, List.take_append_drop]

/-! ### Addresses -/

section Addresses

variable {rest : Str}

theorem Ends.plain (ends : Ends rest) : ∀ c ∈ rest.head?, toDigit 16 c = none ∧ c ≠ '.' :=
  fun c first => ⟨(ends c first).1, (ends c first).2.1⟩

theorem Ends.decimal (ends : Ends rest) : Stops 10 rest :=
  fun c first => toDigit_decimal (ends c first).1

theorem gap_plain (text : Str) :
    ∀ c ∈ (':' :: text : Str).head?, toDigit 16 c = none ∧ c ≠ '.' := by
  intro c first
  cases first
  decide

/-- The groups before a run of zeroes and those after it. -/
theorem readIpv6Addr_gap {head tail : List Nat} (room : head.length + tail.length + 2 ≤ 8)
    (headFits : ∀ group ∈ head, group ≤ 65535) (tailFits : ∀ group ∈ tail, group ≤ 65535)
    (ends : Ends rest) :
    readIpv6Addr (showGroups head ++ "::".toList ++ showGroups tail ++ rest) =
      some (head ++ List.replicate (8 - head.length - tail.length) 0 ++ tail, rest) := by
  have front : readGroups 8 8 [] (showGroups head ++ (':' :: ':' :: (showGroups tail ++ rest))) =
      ((head, false), ':' :: ':' :: (showGroups tail ++ rest)) := by
    have count : 8 = head.length + (8 - head.length) := by omega
    have read := @readGroups_showGroups 8 (8 - head.length) head
      (':' :: ':' :: (showGroups tail ++ rest)) headFits (gap_plain _)
    rw [← count] at read
    rw [read, readGroups_halts (halts_gap _)]
  have back : ∀ limit, tail.length ≤ limit →
      readGroups limit limit [] (showGroups tail ++ rest) = ((tail, false), rest) := by
    intro limit enough
    have count : limit = tail.length + (limit - tail.length) := by omega
    have read := @readGroups_showGroups limit (limit - tail.length) tail rest tailFits ends.plain
    rw [← count] at read
    rw [read, readGroups_halts ends.halts]
  have text : showGroups head ++ "::".toList ++ showGroups tail ++ rest =
      showGroups head ++ (':' :: ':' :: (showGroups tail ++ rest)) := by
    simp
  rw [text]
  simp only [readIpv6Addr]
  rw [front]
  simp only [readGivenChar, if_true, Option.bind_eq_bind, Option.bind_some,
    back (8 - (head.length + 1)) (by omega)]
  rw [if_neg (by omega), if_neg (by simp)]
  rfl

theorem readIpv6Addr_whole {groups : List Nat} (eight : groups.length = 8)
    (fits : ∀ group ∈ groups, group ≤ 65535) (ends : Ends rest) :
    readIpv6Addr (showGroups groups ++ rest) = some (groups, rest) := by
  have read := @readGroups_showGroups 8 0 groups rest fits ends.plain
  rw [Nat.add_zero, eight] at read
  simp only [readIpv6Addr]
  rw [read]
  simp [readGroups, eight]

/-- An IPv4 address written as one of IPv6. -/
theorem readIpv6Addr_mapped {ab cd : Nat} (highFits : ab ≤ 65535) (lowFits : cd ≤ 65535)
    (ends : Ends rest) :
    readIpv6Addr ("::ffff:".toList ++ showIpv4 [ab / 256, ab % 256, cd / 256, cd % 256] ++ rest) =
      some ([0, 0, 0, 0, 0, 0xffff, ab, cd], rest) := by
  have octets : readIpv4Addr (showIpv4 [ab / 256, ab % 256, cd / 256, cd % 256] ++ rest) =
      some ([ab / 256, ab % 256, cd / 256, cd % 256], rest) := by
    apply readIpv4Addr_showIpv4 rfl _ ends.decimal
    intro octet member
    simp only [List.mem_cons, List.not_mem_nil, or_false] at member
    omega
  have front : ∀ text, readGroups 8 8 [] (':' :: ':' :: text) = (([], false), ':' :: ':' :: text) :=
    fun text => readGroups_halts (halts_gap text)
  have marker : ∀ text, readGroups 7 7 [] (Nat.toDigits 16 0xffff ++ (':' :: text)) =
      readGroups 7 6 [0xffff] (':' :: text) := by
    intro text
    exact readGroups_step (by decide) (gap_plain text)
  have digits : Nat.toDigits 16 0xffff = "ffff".toList := by decide +kernel
  have text : "::ffff:".toList ++ showIpv4 [ab / 256, ab % 256, cd / 256, cd % 256] ++ rest =
      ':' :: ':' :: (Nat.toDigits 16 0xffff ++ (':' ::
        (showIpv4 [ab / 256, ab % 256, cd / 256, cd % 256] ++ rest))) := by
    rw [digits]
    simp
  have last : readGroups 7 6 [0xffff] (':' ::
      (showIpv4 [ab / 256, ab % 256, cd / 256, cd % 256] ++ rest)) =
        (([0xffff, ab, cd], true), rest) := by
    have high : ab / 256 * 256 + ab % 256 = ab := Nat.div_add_mod' ab 256
    have low : cd / 256 * 256 + cd % 256 = cd := Nat.div_add_mod' cd 256
    have read := @readGroups_octets 7 5 [0xffff] rest _ _ _ _ _ (by decide) octets
    rw [high, low] at read
    exact read
  rw [text]
  simp only [readIpv6Addr]
  rw [front]
  simp only [readGivenChar, if_true, Option.bind_eq_bind, Option.bind_some, List.length_nil,
    marker, last]
  rfl

theorem readIpv6Addr_showIpv6 {groups : List Nat} (eight : groups.length = 8)
    (fits : ∀ group ∈ groups, group ≤ 65535) (ends : Ends rest) :
    readIpv6Addr (showIpv6 groups ++ rest) = some (groups, rest) := by
  unfold showIpv6
  split
  · next ab cd =>
    exact readIpv6Addr_mapped (fits ab (by simp)) (fits cd (by simp)) ends
  · have run : ZeroRun groups (longestZeroes 0 (0, 0) (0, 0) groups) :=
      longestZeroes_run rfl (fun _ _ until_ => absurd until_ (by simp)) (.inl rfl)
        fun _ _ until_ => absurd until_ (by simp)
    generalize longestZeroes 0 (0, 0) (0, 0) groups = found at run
    obtain ⟨start, len⟩ := found
    dsimp only
    split
    · next several =>
      obtain ⟨bound, whole⟩ := zeroRun_split run (by omega)
      have taken : (groups.take start).length = start := List.length_take_of_le (by omega)
      have dropped : (groups.drop (start + len)).length = 8 - (start + len) := by
        rw [List.length_drop, eight]
      rw [readIpv6Addr_gap (by omega) (fun group member => fits group (List.mem_of_mem_take member))
        (fun group member => fits group (List.mem_of_mem_drop member)) ends, taken, dropped]
      have zeroes : 8 - start - (8 - (start + len)) = len := by omega
      rw [zeroes, List.append_assoc, ← whole]
    · exact readIpv6Addr_whole eight fits ends

theorem readIpv4Addr_showGroups {groups : List Nat} (some_group : groups ≠ [])
    (ends : ∀ c ∈ rest.head?, toDigit 16 c = none ∧ c ≠ '.') :
    readIpv4Addr (showGroups groups ++ rest) = none := by
  cases groups with
  | nil => contradiction
  | cons group more =>
      rw [showGroups_cons, List.append_assoc]
      exact readIpv4Addr_group group (following_ends ends)

/-- The text of eight groups does not begin with octets. -/
theorem readIpv4Addr_showIpv6 {groups : List Nat} (eight : groups.length = 8) (ends : Ends rest) :
    readIpv4Addr (showIpv6 groups ++ rest) = none := by
  have gap : ∀ text, readIpv4Addr (':' :: text) = none := readIpv4Addr_none (by decide)
  unfold showIpv6
  split
  · exact gap _
  · generalize longestZeroes 0 (0, 0) (0, 0) groups = found
    obtain ⟨start, len⟩ := found
    dsimp only
    split
    · cases head : groups.take start with
      | nil => exact gap _
      | cons group more =>
          rw [List.append_assoc, List.append_assoc]
          exact readIpv4Addr_showGroups (by simp) (gap_plain _)
    · apply readIpv4Addr_showGroups _ ends.plain
      intro none
      rw [none] at eight
      contradiction

theorem readIpAddr_toStr {ip : IpAddr} (formed : ip.WellFormed) (ends : Ends rest) :
    readIpAddr (ip.toStr ++ rest) = some (ip, rest) := by
  simp only [readIpAddr, IpAddr.toStr]
  cases ip with
  | V4 octets => simp only [readIpv4Addr_showIpv4 formed.1 formed.2 ends.decimal]
  | V6 groups =>
      simp only [readIpv4Addr_showIpv6 formed.1 ends,
        readIpv6Addr_showIpv6 formed.1 formed.2 ends, Option.map_some]

/-- An address is read back from its text. -/
theorem parseIpAddr_toStr {ip : IpAddr} (formed : ip.WellFormed) : parseIpAddr ip.toStr = some ip := by
  have read := readIpAddr_toStr formed (show Ends [] from nofun)
  rw [List.append_nil] at read
  simp only [parseIpAddr]
  rw [read]

end Addresses

/-! ### What is read is an address -/

theorem readNumber_le {radix maxDigits largest number : Nat} {allowZeroPrefix : Bool}
    {text rest : Str}
    (read : readNumber radix maxDigits largest allowZeroPrefix text = some (number, rest)) :
    number ≤ largest := by
  unfold readNumber at read
  obtain ⟨_, _, read⟩ := Option.bind_eq_some_iff.mp read
  dsimp only at read
  repeat' split at read
  all_goals first
    | contradiction
    | (cases read; assumption)

theorem readSeparator_inner {α : Type} {sep : Char} {index : Nat} {inner : Reader α} {text : Str}
    {read : α × Str} (given : readSeparator sep index inner text = some read) :
    ∃ text, inner text = some read := by
  simp only [readSeparator] at given
  split at given
  · obtain ⟨⟨_, rest⟩, _, given⟩ := Option.bind_eq_some_iff.mp given
    exact ⟨rest, given⟩
  · exact ⟨text, given⟩

theorem readIpv4Addr_fits {text rest : Str} {octets : List Nat}
    (read : readIpv4Addr text = some (octets, rest)) :
    octets.length = 4 ∧ ∀ octet ∈ octets, octet ≤ 255 := by
  have small : ∀ {index : Nat} {text : Str} {octet : Nat} {rest : Str},
      readSeparator '.' index (readNumber 10 3 255 false) text = some (octet, rest) →
        octet ≤ 255 := by
    intro index text octet rest given
    obtain ⟨inner, given⟩ := readSeparator_inner given
    exact readNumber_le given
  simp only [readIpv4Addr] at read
  obtain ⟨⟨a, _⟩, first, read⟩ := Option.bind_eq_some_iff.mp read
  obtain ⟨⟨b, _⟩, second, read⟩ := Option.bind_eq_some_iff.mp read
  obtain ⟨⟨c, _⟩, third, read⟩ := Option.bind_eq_some_iff.mp read
  obtain ⟨⟨d, _⟩, fourth, read⟩ := Option.bind_eq_some_iff.mp read
  cases read
  refine ⟨rfl, ?_⟩
  intro octet member
  simp only [List.mem_cons, List.not_mem_nil, or_false] at member
  rcases member with rfl | rfl | rfl | rfl
  · exact small first
  · exact small second
  · exact small third
  · exact small fourth

theorem readGroups_fits {limit left : Nat} {acc groups : List Nat} {ipv4 : Bool} {text rest : Str}
    (room : acc.length + left = limit) (fits : ∀ group ∈ acc, group ≤ 65535)
    (read : readGroups limit left acc text = ((groups, ipv4), rest)) :
    groups.length ≤ limit ∧ ∀ group ∈ groups, group ≤ 65535 := by
  induction left generalizing acc text with
  | zero =>
      cases read
      exact ⟨by omega, fits⟩
  | succ left ih =>
      unfold readGroups at read
      dsimp only at read
      split at read
      · next one two three four _ octets =>
        cases read
        split at octets
        · next early =>
          obtain ⟨inner, octets⟩ := readSeparator_inner octets
          obtain ⟨_, small⟩ := readIpv4Addr_fits octets
          simp only [List.mem_cons, List.not_mem_nil, or_false, forall_eq_or_imp, forall_eq] at small
          refine ⟨by simp only [List.length_append, List.length_cons, List.length_nil]; omega, ?_⟩
          intro group member
          simp only [List.mem_append, List.mem_cons, List.not_mem_nil, or_false] at member
          rcases member with earlier | rfl | rfl
          · exact fits group earlier
          · omega
          · omega
        · contradiction
      · split at read
        · next number _ given =>
          obtain ⟨inner, given⟩ := readSeparator_inner given
          apply ih _ _ read
          · rw [List.length_append, List.length_singleton]
            omega
          · intro group member
            rcases List.mem_append.mp member with earlier | last
            · exact fits group earlier
            · rw [List.mem_singleton.mp last]
              exact readNumber_le given
        · cases read
          exact ⟨by omega, fits⟩

theorem readIpv6Addr_fits {text rest : Str} {groups : List Nat}
    (read : readIpv6Addr text = some (groups, rest)) :
    groups.length = 8 ∧ ∀ group ∈ groups, group ≤ 65535 := by
  simp only [readIpv6Addr] at read
  cases front : readGroups 8 8 [] text with
  | mk found after =>
      obtain ⟨head, ipv4⟩ := found
      obtain ⟨most, small⟩ := readGroups_fits (Nat.zero_add 8) (List.forall_mem_nil _) front
      rw [front] at read
      dsimp only at read
      split at read
      · next eight =>
        cases read
        exact ⟨eight, small⟩
      · split at read
        · contradiction
        · obtain ⟨_, _, read⟩ := Option.bind_eq_some_iff.mp read
          obtain ⟨⟨_, gap⟩, _, read⟩ := Option.bind_eq_some_iff.mp read
          dsimp only at read
          cases back : readGroups (8 - (head.length + 1)) (8 - (head.length + 1)) [] gap with
          | mk found after =>
              obtain ⟨tail, ipv4⟩ := found
              obtain ⟨fewer, tail_small⟩ := readGroups_fits (Nat.zero_add _) (List.forall_mem_nil _) back
              rw [back] at read
              cases read
              refine ⟨by simp only [List.length_append, List.length_replicate]; omega, ?_⟩
              intro group member
              rcases List.mem_append.mp member with earlier | last
              · rcases List.mem_append.mp earlier with first | zero
                · exact small group first
                · rw [List.eq_of_mem_replicate zero]
                  exact Nat.zero_le _
              · exact tail_small group last

theorem parseIpAddr_wellFormed {text : Str} {ip : IpAddr} (parsed : parseIpAddr text = some ip) :
    ip.WellFormed := by
  simp only [parseIpAddr] at parsed
  cases read : readIpAddr text with
  | none =>
      rw [read] at parsed
      contradiction
  | some found =>
      rw [read] at parsed
      obtain ⟨address, rest⟩ := found
      have same : address = ip := by
        cases rest with
        | nil => exact Option.some.inj parsed
        | cons c more => contradiction
      rw [← same]
      simp only [readIpAddr] at read
      split at read
      · next octets _ given =>
        cases read
        exact readIpv4Addr_fits given
      · obtain ⟨⟨groups, _⟩, given, pair⟩ := Option.map_eq_some_iff.mp read
        cases pair
        exact readIpv6Addr_fits given

end Sumidero.Net
