import Sumidero.Text

namespace Sumidero.Net

/-! `str::parse::<IpAddr>`.  A reader takes what it recognizes off the front of
the text; one that fails leaves the text as it was. -/

inductive IpAddr where
  | V4 (octets : List Nat)
  | V6 (groups : List Nat)
deriving Repr, DecidableEq

namespace IpAddr

def isIpv4 : IpAddr → Bool
  | V4 _ => true
  | V6 _ => false

def isUnspecified : IpAddr → Bool
  | V4 octets => octets = [0, 0, 0, 0]
  | V6 groups => groups = [0, 0, 0, 0, 0, 0, 0, 0]

def isLoopback : IpAddr → Bool
  | V4 octets => octets.head? = some 127
  | V6 groups => groups = [0, 0, 0, 0, 0, 0, 0, 1]

end IpAddr

abbrev Reader (α : Type) := Str → Option (α × Str)

/-- `char::to_digit`. -/
def toDigit (radix : Nat) (c : Char) : Option Nat :=
  let value :=
    if '0' ≤ c ∧ c ≤ '9' then c.toNat - '0'.toNat
    else if 'a' ≤ c ∧ c ≤ 'z' then c.toNat - 'a'.toNat + 10
    else if 'A' ≤ c ∧ c ≤ 'Z' then c.toNat - 'A'.toNat + 10
    else radix
  if value < radix then some value else none

def readGivenChar (target : Char) : Reader Unit
  | c :: rest => if c = target then some ((), rest) else none
  | [] => none

def readSeparator {α : Type} (sep : Char) (index : Nat) (inner : Reader α) : Reader α :=
  fun text =>
    if 0 < index then do
      let ((), rest) ← readGivenChar sep text
      inner rest
    else inner text

/-- The digits of a number, at most `maxDigits` of them: how many, and their value. -/
def readDigits (radix maxDigits count value : Nat) : Reader (Nat × Nat)
  | [] => some ((count, value), [])
  | c :: rest =>
      match toDigit radix c with
      | none => some ((count, value), c :: rest)
      | some digit =>
          if maxDigits < count + 1 then none
          else readDigits radix maxDigits (count + 1) (value * radix + digit) rest

def readNumber (radix maxDigits largest : Nat) (allowZeroPrefix : Bool) : Reader Nat :=
  fun text => do
    let ((count, value), rest) ← readDigits radix maxDigits 0 0 text
    if count = 0 then none
    else if !allowZeroPrefix && text.head? == some '0' && decide (1 < count) then none
    else if value ≤ largest then some (value, rest)
    else none

def readIpv4Addr : Reader (List Nat) := fun text => do
  let octet := readNumber 10 3 255 false
  let (a, text) ← readSeparator '.' 0 octet text
  let (b, text) ← readSeparator '.' 1 octet text
  let (c, text) ← readSeparator '.' 2 octet text
  let (d, text) ← readSeparator '.' 3 octet text
  return ([a, b, c, d], text)

/-- Up to `limit` groups, the last two possibly written as an IPv4 address, and
whether they were. -/
def readGroups (limit : Nat) : Nat → List Nat → Str → (List Nat × Bool) × Str
  | 0, groups, text => ((groups, false), text)
  | left + 1, groups, text =>
      let i := groups.length
      let ipv4 := if i < limit - 1 then readSeparator ':' i readIpv4Addr text else none
      match ipv4 with
      | some ([one, two, three, four], rest) =>
          ((groups ++ [one * 256 + two, three * 256 + four], true), rest)
      | _ =>
          match readSeparator ':' i (readNumber 16 4 65535 true) text with
          | some (group, rest) => readGroups limit left (groups ++ [group]) rest
          | none => ((groups, false), text)

def readIpv6Addr : Reader (List Nat) := fun text =>
  let ((head, headIpv4), rest) := readGroups 8 8 [] text
  if head.length = 8 then some (head, rest)
  else if headIpv4 then none
  else do
    let ((), rest) ← readGivenChar ':' rest
    let ((), rest) ← readGivenChar ':' rest
    let limit := 8 - (head.length + 1)
    let ((tail, _), rest) := readGroups limit limit [] rest
    return (head ++ List.replicate (8 - head.length - tail.length) 0 ++ tail, rest)

def readIpAddr : Reader IpAddr := fun text =>
  match readIpv4Addr text with
  | some (octets, rest) => some (.V4 octets, rest)
  | none => (readIpv6Addr text).map fun read => (.V6 read.1, read.2)

def parseIpAddr (text : Str) : Option IpAddr :=
  match readIpAddr text with
  | some (ip, []) => some ip
  | _ => none

/-! ### `IpAddr::to_string` -/

/-- The first longest run of zero groups, as its start and length; `current` is the run that
ends before `index`. -/
def longestZeroes (index : Nat) (current longest : Nat × Nat) : List Nat → Nat × Nat
  | [] => longest
  | segment :: rest =>
      if segment = 0 then
        let current := if current.2 = 0 then (index, 1) else (current.1, current.2 + 1)
        longestZeroes (index + 1) current (if longest.2 < current.2 then current else longest) rest
      else longestZeroes (index + 1) (0, 0) longest rest

def showIpv4 (octets : List Nat) : Str := ['.'].intercalate (octets.map (Nat.toDigits 10))

def showGroups (groups : List Nat) : Str := [':'].intercalate (groups.map (Nat.toDigits 16))

def showIpv6 (groups : List Nat) : Str :=
  match groups with
  | [0, 0, 0, 0, 0, 0xffff, ab, cd] =>
      "::ffff:".toList ++ showIpv4 [ab / 256, ab % 256, cd / 256, cd % 256]
  | _ =>
      let (start, len) := longestZeroes 0 (0, 0) (0, 0) groups
      if 1 < len then
        showGroups (groups.take start) ++ "::".toList ++ showGroups (groups.drop (start + len))
      else showGroups groups

def IpAddr.toStr : IpAddr → Str
  | .V4 octets => showIpv4 octets
  | .V6 groups => showIpv6 groups

example : (IpAddr.V6 [0xfe80, 0, 0, 1, 0, 0, 0, 1]).toStr = "fe80:0:0:1::1".toList := by decide

/-! ### What is no address -/

theorem readNumber_none {radix maxDigits largest : Nat} {allowZeroPrefix : Bool} {c : Char}
    {rest : Str} (noDigit : toDigit radix c = none) :
    readNumber radix maxDigits largest allowZeroPrefix (c :: rest) = none := by
  simp [readNumber, readDigits, noDigit]

/-- An address begins with a digit or a colon. -/
theorem parseIpAddr_none {c : Char} {rest : Str} (decimal : toDigit 10 c = none)
    (hexadecimal : toDigit 16 c = none) (colon : c ≠ ':') : parseIpAddr (c :: rest) = none := by
  have v4 : readIpv4Addr (c :: rest) = none := by
    simp [readIpv4Addr, readSeparator, readNumber_none decimal]
  have groups : readGroups 8 8 [] (c :: rest) = (([], false), c :: rest) := by
    simp [readGroups, readSeparator, v4, readNumber_none hexadecimal]
  have v6 : readIpv6Addr (c :: rest) = none := by
    simp [readIpv6Addr, groups, readGivenChar, colon]
  simp [parseIpAddr, readIpAddr, v4, v6]

example : parseIpAddr "fe80::1".toList = some (.V6 [0xfe80, 0, 0, 0, 0, 0, 0, 1]) := by decide

end Sumidero.Net
