import Sumidero.Net.Display

namespace Sumidero.Net

open Text

/-! `str::parse::<SocketAddr>` and `SocketAddr::to_string`. -/

inductive SocketAddr where
  | V4 (octets : List Nat) (port : Nat)
  | V6 (groups : List Nat) (port : Nat) (scopeId : Nat)
deriving Repr, DecidableEq

def SocketAddr.new : IpAddr → Nat → SocketAddr
  | .V4 octets, port => .V4 octets port
  | .V6 groups, port => .V6 groups port 0

/-- A number of any length: no text has more digits than characters. -/
def readUnlimited (largest : Nat) : Reader Nat := fun text =>
  readNumber 10 text.length largest true text

def readPort : Reader Nat := fun text => do
  let ((), rest) ← readGivenChar ':' text
  readUnlimited 65535 rest

def readScopeId : Reader Nat := fun text => do
  let ((), rest) ← readGivenChar '%' text
  readUnlimited 4294967295 rest

def readSocketAddrV4 : Reader SocketAddr := fun text => do
  let (octets, rest) ← readIpv4Addr text
  let (port, rest) ← readPort rest
  return (.V4 octets port, rest)

def readSocketAddrV6 : Reader SocketAddr := fun text => do
  let ((), rest) ← readGivenChar '[' text
  let (groups, rest) ← readIpv6Addr rest
  let (scopeId, rest) := (readScopeId rest).getD (0, rest)
  let ((), rest) ← readGivenChar ']' rest
  let (port, rest) ← readPort rest
  return (.V6 groups port scopeId, rest)

def readSocketAddr : Reader SocketAddr := fun text =>
  (readSocketAddrV4 text).or (readSocketAddrV6 text)

def parseSocketAddr (text : Str) : Option SocketAddr :=
  match readSocketAddr text with
  | some (address, []) => some address
  | _ => none

def SocketAddr.toStr : SocketAddr → Str
  | .V4 octets port => showIpv4 octets ++ ':' :: Nat.toDigits 10 port
  | .V6 groups port scopeId =>
      let scope := if scopeId = 0 then [] else '%' :: Nat.toDigits 10 scopeId
      '[' :: (showIpv6 groups ++ scope ++ "]:".toList ++ Nat.toDigits 10 port)

section Ports

variable {octets groups : List Nat} {port : Nat}

theorem readPort_toDigits (fits : port ≤ 65535) :
    readPort (':' :: Nat.toDigits 10 port) = some (port, []) := by
  have short : port < 10 ^ (Nat.toDigits 10 port).length := by
    apply (Nat.length_toDigits_le_iff (by decide) _).mp (Nat.le_refl _)
    exact List.length_pos_iff.mpr Nat.toDigits_ne_nil
  have read := @readNumber_toDigits 10 (Nat.toDigits 10 port).length port 65535 true (by decide)
    (by decide) fits short (List.length_pos_iff.mpr Nat.toDigits_ne_nil) [] nofun
  rw [List.append_nil] at read
  exact read

theorem readSocketAddrV4_toStr (formed : (IpAddr.V4 octets).WellFormed) (fits : port ≤ 65535) :
    readSocketAddrV4 (SocketAddr.V4 octets port).toStr = some (.V4 octets port, []) := by
  simp only [readSocketAddrV4, SocketAddr.toStr]
  rw [readIpv4Addr_showIpv4 formed.1 formed.2 (stops_cons (by decide) _)]
  simp only [Option.bind_eq_bind, Option.bind_some, readPort_toDigits fits]
  rfl

theorem readSocketAddrV6_toStr (formed : (IpAddr.V6 groups).WellFormed) (fits : port ≤ 65535) :
    readSocketAddrV6 (SocketAddr.V6 groups port 0).toStr = some (.V6 groups port 0, []) := by
  have bracket : Ends (']' :: ':' :: Nat.toDigits 10 port) := by
    intro c first
    cases first
    decide
  have text : (SocketAddr.V6 groups port 0).toStr =
      '[' :: (showIpv6 groups ++ ']' :: ':' :: Nat.toDigits 10 port) := by
    simp [SocketAddr.toStr]
  simp only [readSocketAddrV6]
  rw [text]
  simp only [readGivenChar, if_true, Option.bind_eq_bind, Option.bind_some,
    readIpv6Addr_showIpv6 formed.1 formed.2 bracket]
  have unscoped : readScopeId (']' :: ':' :: Nat.toDigits 10 port) = none := rfl
  rw [unscoped]
  simp only [Option.getD_none, if_true, Option.bind_some, readPort_toDigits fits]
  rfl

end Ports

/-- A socket address is read back from its text. -/
theorem parseSocketAddr_toStr {ip : IpAddr} {port : Nat} (formed : ip.WellFormed)
    (fits : port ≤ 65535) :
    parseSocketAddr (SocketAddr.new ip port).toStr = some (SocketAddr.new ip port) := by
  have read : readSocketAddr (SocketAddr.new ip port).toStr = some (SocketAddr.new ip port, []) := by
    simp only [readSocketAddr]
    cases ip with
    | V4 octets =>
        rw [SocketAddr.new, readSocketAddrV4_toStr formed fits]
        rfl
    | V6 groups =>
        have bracket : readSocketAddrV4 (SocketAddr.new (.V6 groups) port).toStr = none := by
          have nothing : readIpv4Addr (SocketAddr.new (.V6 groups) port).toStr = none :=
            readIpv4Addr_none (by decide) _
          simp only [readSocketAddrV4]
          rw [nothing]
          rfl
        rw [bracket, SocketAddr.new, readSocketAddrV6_toStr formed fits]
        rfl
  simp only [parseSocketAddr]
  rw [read]

example : parseSocketAddr "[fe80::1%3]:053".toList =
    some (.V6 [0xfe80, 0, 0, 0, 0, 0, 0, 1] 53 3) := by decide

end Sumidero.Net
