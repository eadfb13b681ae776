import Sumidero.Data.Checks
import Sumidero.Data.Programs
import Sumidero.Net.SocketAddr

namespace Sumidero.Upstream

open Text Net Data Program

/-! Upstream URLs, and how the address to connect to is found. -/

/-- What is read of a parsed URL. -/
structure Url where
  scheme : Str
  hostStr : Option Str
  port : Option UInt16
  path : Str
deriving DecidableEq

inductive Error where
  | UnsupportedUrl (text : Str)
  | Init (msg : Str)
deriving DecidableEq

inductive UpstreamKind where
  | Https (host : Str) (port : UInt16) (path : Str)
  | Quic (host : Str) (port : UInt16)
deriving DecidableEq

def UpstreamKind.host : UpstreamKind → Str
  | .Https host _ _ | .Quic host _ => host

def urlHost (raw : Str) (url : Url) : Except Error Str :=
  match url.hostStr.filter fun host => !host.isEmpty with
  | some host => .ok host
  | none => .error (.UnsupportedUrl (raw ++ ": missing host".toList))

/-- `parse` is `Url::parse`. -/
def parseUpstreamUrl (parse : Str → Except Str Url) (raw : Str) : Except Error UpstreamKind := do
  let url ← (parse raw).mapError fun e => .UnsupportedUrl (raw ++ ": ".toList ++ e)
  if url.scheme = "https".toList then
    let host ← urlHost raw url
    if url.path.isEmpty || url.path = ['/'] then
      .error (.UnsupportedUrl
        (raw ++ ": https URL must include a path (e.g. /dns-query)".toList))
    else return .Https host (url.port.getD 443) url.path
  else if url.scheme = "quic".toList then
    let host ← urlHost raw url
    return .Quic host (url.port.getD 853)
  else
    .error (.UnsupportedUrl (raw ++ ": unsupported scheme '".toList ++ url.scheme ++
      "' (expected https or quic)".toList))

/-! ### Dialling -/

structure ResolverConfig where
  nameServers : List IpAddr
  cacheSize : Nat
  timeoutSecs : Nat

/-- What is asked of the network and the resolver; `Tls` is the client configuration. -/
inductive Op (Tls : Type) where
  | buildResolver (config : ResolverConfig)
  | lookupIp (config : ResolverConfig) (host : Str)
  | exchange (tls : Tls) (addr : SocketAddr) (host path : Str)
  | stream (tls : Tls) (addr : SocketAddr) (host : Str)

def Reply (Tls Transport : Type) : Op Tls → Type
  | .buildResolver _ => Except Str Unit
  | .lookupIp _ _ => Except Str (List IpAddr)
  | .exchange _ _ _ _ | .stream _ _ _ => Except Str Transport

abbrev Dial (Tls Transport Result : Type) : Type := Program (Reply Tls Transport) Result

/-- The first IPv4 address, or else the first. -/
def preferIpv4 (ips : List IpAddr) : Option IpAddr := (ips.find? IpAddr.isIpv4).or ips.head?

section Dialling

variable {Tls Transport : Type}

/-- What a failed operation is reported as. -/
def reported {A : Type} (what : Str) : Except Str A → Except Error A :=
  Except.mapError fun e => .Init (what ++ ": ".toList ++ e)

def lookup (host : Str) (config : ResolverConfig) : Dial Tls Transport (Except Error IpAddr) :=
  perform (.lookupIp config host) fun found =>
    done do
      let ips ← reported ("bootstrap resolution of '".toList ++ host ++ "' failed".toList) found
      match preferIpv4 ips with
      | some ip => .ok ip
      | none => .error (.Init
          ("bootstrap resolution of '".toList ++ host ++ "' returned no addresses".toList))

def bootstrapResolve (host : Str) (bootstrapIps : List IpAddr) :
    Dial Tls Transport (Except Error IpAddr) :=
  match parseIpAddr host with
  -- An IP literal is returned directly.
  | some ip => done (.ok ip)
  | none =>
      if bootstrapIps.isEmpty then
        done (.error (.Init
          "bootstrap_ips is empty and upstream hostname requires resolution".toList))
      else
        let config := { nameServers := bootstrapIps, cacheSize := 0, timeoutSecs := 5 }
        perform (.buildResolver config) fun built =>
          match reported "bootstrap resolver build failed".toList built with
          | .error err => done (.error err)
          | .ok () => lookup host config

def exchangeTo (kind : Str) (host : Str) (port : UInt16) : Str :=
  kind ++ " to ".toList ++ host ++ ':' :: Nat.toDigits 10 port.toNat ++ " failed".toList

def buildTransport (kind : UpstreamKind) (resolvedIp : IpAddr) (tls : Tls) :
    Dial Tls Transport (Except Error Transport) :=
  match kind with
  | .Https host port path =>
      perform (.exchange tls (.new resolvedIp port.toNat) host path) fun built =>
        done (reported (exchangeTo "DoH exchange".toList host port) built)
  | .Quic host port =>
      perform (.stream tls (.new resolvedIp port.toNat) host) fun built =>
        done (reported (exchangeTo "DoQ stream".toList host port) built)

end Dialling

structure NetworkFactory (Tls : Type) where
  kind : UpstreamKind
  bootstrapIps : List IpAddr
  url : Str
  tls : Tls

def NetworkFactory.build {Tls Transport : Type} (factory : NetworkFactory Tls) :
    Dial Tls Transport (Except Error Transport) := do
  match ← bootstrapResolve factory.kind.host factory.bootstrapIps with
  | .error err => return .error err
  | .ok ip => buildTransport factory.kind ip factory.tls

structure UpstreamConfig where
  urls : List Str
  bootstrapIps : List IpAddr

def networkFactory {Tls : Type} (parse : Str → Except Str Url) (bootstrapIps : List IpAddr)
    (tls : Tls) (rawUrl : Str) : Except Error (NetworkFactory Tls) := do
  let kind ← parseUpstreamUrl parse rawUrl
  if bootstrapIps.isEmpty && (parseIpAddr kind.host).isNone then
    .error (.Init ("bootstrap_ips is empty and upstream '".toList ++ rawUrl ++
      "' requires resolution".toList))
  else return { kind, bootstrapIps, url := rawUrl, tls }

def factories {Tls : Type} (parse : Str → Except Str Url) (cfg : UpstreamConfig) (tls : Tls) :
    Except Error (List (NetworkFactory Tls)) :=
  cfg.urls.mapM (networkFactory parse cfg.bootstrapIps tls)

/-! ### Upstreams given by address -/

/-- The text of a URL's host that is an address: brackets stand around an IPv6 one. -/
inductive HostText : IpAddr → Str → Prop
  | v4 {octets : List Nat} (formed : (IpAddr.V4 octets).WellFormed) :
      HostText (.V4 octets) (showIpv4 octets)
  | v6 {groups : List Nat} {text : Str} (reads : parseIpAddr text = some (.V6 groups)) :
      HostText (.V6 groups) ('[' :: text ++ [']'])

/-- A URL of either scheme, on any port and path, whose host is the address. -/
def AddressUrl (parse : Str → Except Str Url) (raw : Str) (ip : IpAddr) : Prop :=
  ∃ url host, parse raw = .ok url ∧ url.hostStr = some host ∧ HostText ip host ∧
    (url.scheme = "https".toList ∧ url.path ≠ [] ∧ url.path ≠ ['/'] ∨
      url.scheme = "quic".toList)

/-- The address is connected to without asking for it. -/
structure Direct {Tls : Type} (Transport : Type) (factory : NetworkFactory Tls) (ip : IpAddr) :
    Prop where
  resolves : bootstrapResolve factory.kind.host factory.bootstrapIps =
    (done (.ok ip) : Dial Tls Transport (Except Error IpAddr))
  connects : factory.build = (buildTransport factory.kind ip factory.tls :
    Dial Tls Transport (Except Error Transport))

section Addresses

variable {Tls Transport : Type} {parse : Str → Except Str Url} {raw host : Str} {ip : IpAddr}
  {bootstrapIps : List IpAddr} {tls : Tls}

theorem HostText.named (written : HostText ip host) : host ≠ [] := by
  cases written with
  | v4 formed =>
      intro none
      have read := parseIpAddr_toStr formed
      rw [IpAddr.toStr, none] at read
      cases read
  | v6 => exact List.cons_ne_nil _ _

theorem HostText.read (written : HostText ip host) :
    parseIpAddr host = if ip.isIpv4 then some ip else none := by
  cases written with
  | v4 formed => exact parseIpAddr_toStr formed
  | v6 reads => exact parseIpAddr_none (by decide) (by decide) (by decide)

theorem urlHost_address (raw : Str) {url : Url} (present : url.hostStr = some host) (named : host ≠ []) :
    urlHost raw url = .ok host := by
  have kept : (some host).filter (fun host => !host.isEmpty) = some host := by
    rw [Option.filter_some, if_pos]
    simpa [List.isEmpty_iff] using named
  rw [urlHost, present, kept]

theorem parseUpstreamUrl_address (address : AddressUrl parse raw ip) :
    ∃ kind, parseUpstreamUrl parse raw = .ok kind ∧ HostText ip kind.host := by
  obtain ⟨url, host, parsed, present, written, scheme⟩ := address
  have hosted := urlHost_address raw present written.named
  rcases scheme with ⟨https, path, notRoot⟩ | quic
  · refine ⟨.Https host (url.port.getD 443) url.path, ?_, written⟩
    have rooted : ¬ (url.path.isEmpty || decide (url.path = ['/'])) = true := by
      simp [List.isEmpty_iff, path, notRoot]
    rw [parseUpstreamUrl, parsed]
    show (if url.scheme = _ then _ else _) = _
    rw [if_pos https, hosted, ok_bind, if_neg rooted]
    rfl
  · refine ⟨.Quic host (url.port.getD 853), ?_, written⟩
    have other : url.scheme ≠ "https".toList := by rw [quic]; decide
    rw [parseUpstreamUrl, parsed]
    show (if url.scheme = _ then _ else _) = _
    rw [if_neg other, if_pos quic, hosted]
    rfl

/-- What does not parse as an address is looked up, or cannot be. -/
theorem bootstrapResolve_none (unread : parseIpAddr host = none) :
    bootstrapResolve host bootstrapIps ≠
      (done (.ok ip) : Dial Tls Transport (Except Error IpAddr)) := by
  intro direct
  simp only [bootstrapResolve, unread] at direct
  split at direct
  · cases direct
  · cases direct

/-- A bracketed host is no address to `str::parse`. -/
theorem bootstrapResolve_address (written : HostText ip host) :
    bootstrapResolve host bootstrapIps =
      (done (.ok ip) : Dial Tls Transport (Except Error IpAddr)) ↔ ip.isIpv4 = true := by
  have read := written.read
  constructor
  · intro direct
    by_contra v6
    rw [if_neg v6] at read
    exact bootstrapResolve_none read direct
  · intro v4
    rw [if_pos v4] at read
    rw [bootstrapResolve, read]

theorem networkFactory_unresolved {kind : UpstreamKind}
    (parsed : parseUpstreamUrl parse raw = .ok kind) (unread : parseIpAddr kind.host = none) :
    networkFactory parse [] tls raw = .error (.Init ("bootstrap_ips is empty and upstream '".toList ++
      raw ++ "' requires resolution".toList)) := by
  rw [networkFactory, parsed, ok_bind, unread]
  rfl

theorem networkFactory_address (address : AddressUrl parse raw ip) :
    (∃ factory, networkFactory parse bootstrapIps tls raw = .ok factory ∧
      Direct Transport factory ip) ↔ ip.isIpv4 = true := by
  obtain ⟨kind, parsed, written⟩ := parseUpstreamUrl_address address
  constructor
  · rintro ⟨factory, built, direct⟩
    rw [networkFactory, parsed, ok_bind] at built
    split at built
    · cases built
    · cases built
      exact (bootstrapResolve_address written).mp direct.resolves
  · intro v4
    have read := written.read
    rw [if_pos v4] at read
    refine ⟨{ kind, bootstrapIps, url := raw, tls }, ?_, ?_⟩
    · rw [networkFactory, parsed, ok_bind, read, Option.isNone_some, Bool.and_false]
      rfl
    · have resolves : bootstrapResolve kind.host bootstrapIps =
          (done (.ok ip) : Dial Tls Transport (Except Error IpAddr)) :=
        (bootstrapResolve_address written).mpr v4
      refine ⟨resolves, ?_⟩
      rw [NetworkFactory.build, resolves]
      rfl

/-- Upstreams given by address work without bootstrap servers, and are connected to without a
lookup, exactly if every address is an IPv4 one. -/
theorem addresses_direct_iff {cfg : UpstreamConfig} {addresses : List IpAddr}
    (given : List.Forall₂ (AddressUrl parse) cfg.urls addresses) :
    (∃ built, factories parse cfg tls = .ok built ∧
      List.Forall₂ (Direct Transport) built addresses) ↔ ∀ ip ∈ addresses, ip.isIpv4 = true := by
  simp only [factories, mapM_ok]
  generalize cfg.urls = urls at given
  induction given with
  | nil =>
      constructor
      · exact fun _ ip member => absurd member List.not_mem_nil
      · exact fun _ => ⟨[], .nil, .nil⟩
  | @cons raw ip urls addresses address rest ih =>
      have one : (∃ factory, networkFactory parse cfg.bootstrapIps tls raw = .ok factory ∧
          Direct Transport factory ip) ↔ ip.isIpv4 = true := networkFactory_address address
      rw [List.forall_mem_cons, ← ih, ← one]
      constructor
      · rintro ⟨_, converted, directs⟩
        cases converted with
        | cons built others =>
            cases directs with
            | cons direct rest => exact ⟨⟨_, built, direct⟩, _, others, rest⟩
      · rintro ⟨⟨factory, built, direct⟩, factories, others, rest⟩
        exact ⟨factory :: factories, .cons built others, .cons direct rest⟩

/-! ### Loopback upstreams -/

/-- What `Url::parse` gives for three URLs. -/
def parseLoopback (raw : Str) : Except Str Url :=
  if raw = "https://127.0.0.1/dns-query".toList then
    .ok { scheme := "https".toList, hostStr := some "127.0.0.1".toList, port := none,
          path := "/dns-query".toList }
  else if raw = "quic://127.0.0.1:8853".toList then
    .ok { scheme := "quic".toList, hostStr := some "127.0.0.1".toList, port := some 8853,
          path := [] }
  else if raw = "https://[::1]/dns-query".toList then
    .ok { scheme := "https".toList, hostStr := some "[::1]".toList, port := none,
          path := "/dns-query".toList }
  else .error "relative URL without a base".toList

end Addresses

theorem loopback_v4 : HostText (.V4 [127, 0, 0, 1]) "127.0.0.1".toList := by
  have formed : (IpAddr.V4 [127, 0, 0, 1]).WellFormed := ⟨rfl, by decide⟩
  exact .v4 formed

theorem loopback_v6 : HostText (.V6 [0, 0, 0, 0, 0, 0, 0, 1]) "[::1]".toList := by
  have reads : parseIpAddr "::1".toList = some (.V6 [0, 0, 0, 0, 0, 0, 0, 1]) := by decide
  exact .v6 reads

/-- IPv4 upstreams of both schemes, with no bootstrap server. -/
theorem loopback_v4_direct :
    ∃ built : List (NetworkFactory Unit), factories parseLoopback
      { urls := ["https://127.0.0.1/dns-query".toList, "quic://127.0.0.1:8853".toList],
        bootstrapIps := [] } () = .ok built ∧
      List.Forall₂ (Direct Nat) built [.V4 [127, 0, 0, 1], .V4 [127, 0, 0, 1]] := by
  have https : AddressUrl parseLoopback "https://127.0.0.1/dns-query".toList
      (.V4 [127, 0, 0, 1]) :=
    ⟨_, _, rfl, rfl, loopback_v4, .inl ⟨rfl, by decide, by decide⟩⟩
  have quic : AddressUrl parseLoopback "quic://127.0.0.1:8853".toList (.V4 [127, 0, 0, 1]) :=
    ⟨_, _, rfl, rfl, loopback_v4, .inr rfl⟩
  exact (addresses_direct_iff (.cons https (.cons quic .nil))).mpr (by decide)

/-- The IPv6 loopback is refused as a name to be resolved, and looked up if it can be. -/
theorem loopback_v6_refused :
    AddressUrl parseLoopback "https://[::1]/dns-query".toList (.V6 [0, 0, 0, 0, 0, 0, 0, 1]) ∧
      factories parseLoopback
        { urls := ["https://[::1]/dns-query".toList], bootstrapIps := [] } () =
        .error (.Init ("bootstrap_ips is empty and upstream '".toList ++
          "https://[::1]/dns-query".toList ++ "' requires resolution".toList)) ∧
      ∀ factory : NetworkFactory Unit,
        networkFactory parseLoopback [.V4 [9, 9, 9, 9]] () "https://[::1]/dns-query".toList =
          .ok factory →
        bootstrapResolve factory.kind.host factory.bootstrapIps ≠
          (done (.ok (.V6 [0, 0, 0, 0, 0, 0, 0, 1])) : Dial Unit Nat (Except Error IpAddr)) := by
  have parsed : parseUpstreamUrl parseLoopback "https://[::1]/dns-query".toList =
      .ok (.Https "[::1]".toList 443 "/dns-query".toList) := by decide
  have unread : parseIpAddr "[::1]".toList = none := loopback_v6.read
  refine ⟨⟨_, _, rfl, rfl, loopback_v6, .inl ⟨rfl, by decide, by decide⟩⟩, ?_, ?_⟩
  · rw [factories, List.mapM_cons, networkFactory_unresolved parsed unread]
    rfl
  · intro factory built
    rw [networkFactory, parsed, ok_bind] at built
    cases built
    exact bootstrapResolve_none unread

end Sumidero.Upstream
