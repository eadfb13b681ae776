import Sumidero.Config.Validate

namespace Sumidero.Cli

open Config Net Text

/-! `sumidero migrate`: a configuration from AdGuard Home's. -/

/-! ### AdGuardHome.yaml, as far as it is read -/

structure AghDns where
  bindHosts : List Str := ["0.0.0.0".toList]
  port : UInt16 := 53
  upstreamDns : List Str := []
  fallbackDns : List Str := []
  bootstrapDns : List { ip : IpAddr // ip.WellFormed } := []
  upstreamTimeout : Str := "5s".toList
  allowedClients : List Str := []
  blockedHosts : List Str := []
  ratelimit : Nat := 0

structure AghFilter where
  enabled : Bool := false
  url : Str
  name : Str := []

structure AghSafeSearch where
  enabled : Bool := false
  google : Bool := false
  youtube : Bool := false
  bing : Bool := false
  duckduckgo : Bool := false
  ecosia : Bool := false
  pixabay : Bool := false
  yandex : Bool := false

structure AghFiltering where
  safeSearch : AghSafeSearch := {}

structure AghDhcp where
  enabled : Bool := false

structure AghTls where
  enabled : Bool := false

structure Agh where
  dns : AghDns := {}
  filters : List AghFilter := []
  userRules : List Str := []
  filtering : AghFiltering := {}
  dhcp : AghDhcp := {}
  tls : AghTls := {}

structure Migration where
  toml : Str
  warnings : List Str
  userRules : Option Str

/-! ### Names of lists -/

def hasDashes : Str → Bool
  | '-' :: '-' :: _ => true
  | _ :: rest => hasDashes rest
  | [] => false

/-- `replace("--", "-")`. -/
def replaceDashes : Str → Str
  | '-' :: '-' :: rest => '-' :: replaceDashes rest
  | c :: rest => c :: replaceDashes rest
  | [] => []

/-- `while s.contains("--")`, which ends: every pass shortens the text. -/
def collapseDashes : Nat → Str → Str
  | 0, text => text
  | passes + 1, text =>
      if hasDashes text then collapseDashes passes (replaceDashes text) else text

def trimMatches (c : Char) (text : Str) : Str := (text.dropWhile (· = c)).rdropWhile (· = c)

def slug (name : Str) : Str :=
  let text := (toAsciiLowercase name).map fun c => if c.isAlphanum then c else '-'
  trimMatches '-' (collapseDashes text.length text)

def numbered (base : Str) (n : Nat) : Str := base ++ '-' :: Nat.toDigits 10 n

/-- `while !used_names.insert(name)`, which ends: the names it tries are distinct. -/
def freshName (used : List Str) (base : Str) : Nat → Nat → Str → Str
  | 0, _, name => name
  | tries + 1, n, name =>
      if used.contains name then freshName used base tries (n + 1) (numbered base n) else name

/-! ### Durations -/

/-- `str::parse::<u64>`. -/
def parseU64 (text : Str) : Option Nat :=
  let digits := (stripPrefix text ['+']).getD text
  match readNumber 10 digits.length (2 ^ 64 - 1) true digits with
  | some (number, []) => some number
  | _ => none

/-- The seconds' product wraps, as release arithmetic does. -/
def parseGoDurationMs (text : Str) : Option Nat :=
  match stripSuffix text "ms".toList with
  | some ms => parseU64 ms
  | none =>
      match stripSuffix text ['s'] with
      | some secs => (parseU64 secs).map fun value => value * 1000 % 2 ^ 64
      | none => none

/-! ### The sections -/

/-- `0.0.0.0` covers v6 for AdGuard; sumidero binds both. -/
def bindHost (port : UInt16) (ip : IpAddr) : List Str :=
  (SocketAddr.new ip port.toNat).toStr ::
    if ip = .V4 [0, 0, 0, 0] then ["[::]:".toList ++ Nat.toDigits 10 port.toNat] else []

def bindHosts (port : UInt16) : List Str → Except Str (List Str)
  | [] => .ok []
  | host :: rest =>
      match parseIpAddr host with
      | none => .error ("bind host ".toList ++ host ++ ": invalid IP address syntax".toList)
      | some ip => (bindHosts port rest).map fun others => bindHost port ip ++ others

/-- `Vec::dedup`. -/
def dedup (texts : List Str) : List Str := texts.destutter (· ≠ ·)

/-- `retain(|b| seen_binds.insert(b.clone()))`. -/
def retainNew (seen : List Str) : List Str → List Str
  | [] => []
  | text :: rest =>
      if seen.contains text then retainNew seen rest else text :: retainNew (text :: seen) rest

def skippedUpstream (server : Str) : Str :=
  "upstream ".toList ++ server ++
    " skipped: sumidero v1 supports only https:// (DoH) and quic:// (DoQ)".toList

def unparsedTimeout (toml : Toml) (timeout : Str) : Str :=
  "cannot parse upstream_timeout ".toList ++ toml.quoted timeout ++ "; using 5000 ms".toList

def skippedClient (toml : Toml) (client : Str) : Str :=
  "allowed client ".toList ++ toml.quoted client ++
    " skipped: not an IP or CIDR (client IDs are not supported)".toList

def survives (server : Str) : Bool :=
  startsWith server "https://".toList || startsWith server "quic://".toList

/-- RFC1918 and loopback. -/
def DEFAULT_ALLOW : List Str :=
  ["192.168.0.0/16", "10.0.0.0/8", "172.16.0.0/12", "127.0.0.0/8", "::1/128"].map String.toList

/-- A bare address becomes a host network; what contains `/` is kept as it is. -/
def allowClient (client : Str) : Option Str :=
  if '/' ∈ client then some client
  else
    match parseIpAddr client with
    | some (.V4 octets) => some (showIpv4 octets ++ "/32".toList)
    | some (.V6 groups) => some (showIpv6 groups ++ "/128".toList)
    | none => none

def allowed (clients : List Str) : List Str :=
  (if clients.isEmpty then DEFAULT_ALLOW else []) ++ clients.filterMap allowClient

/-- The networks allowed, and the warnings. -/
def allowClients (toml : Toml) (clients : List Str) : List Str × List Str :=
  let noClients := if clients.isEmpty then
    ["allowed_clients is empty: AdGuard would answer everyone; sumidero requires an ".toList ++
      "explicit allowlist — defaulting to RFC1918 + loopback, EDIT THIS".toList] else []
  let skipped := (clients.filter fun client => (allowClient client).isNone).map (skippedClient toml)
  if (allowed clients).isEmpty then
    (DEFAULT_ALLOW, noClients ++ skipped ++
      ["no allowed client survived the conversion; defaulting to RFC1918 + loopback, ".toList ++
        "EDIT THIS".toList])
  else (allowed clients, noClients ++ skipped)

/-- The enabled filters under unique names, and the warnings; `i` of them came before. -/
def convertFilters (toml : Toml) : List Str → Nat → List AghFilter → List (Str × Str) × List Str
  | _, _, [] => ([], [])
  | used, i, filter :: rest =>
      if filter.enabled then
        let name := slug filter.name
        let base := if name.isEmpty then "list-".toList ++ Nat.toDigits 10 (i + 1) else name
        let name := freshName used base used.length 2 base
        let renamed := if name ≠ base then
          ["filter ".toList ++ toml.quoted filter.name ++ " renamed to ".toList ++
            toml.quoted name ++ " to keep list names unique".toList] else []
        let (lists, warnings) := convertFilters toml (name :: used) (i + 1) rest
        ((name, filter.url) :: lists, renamed ++ warnings)
      else
        let (lists, warnings) := convertFilters toml used (i + 1) rest
        (lists, ("disabled filter ".toList ++ toml.quoted filter.name ++
          " not migrated".toList) :: warnings)

/-- The local list of user rules and blocked hosts. -/
def userRulesText (rules : List Str) : Option Str :=
  if rules.isEmpty then none
  else some ("! migrated from AdGuardHome.yaml (user_rules + blocked_hosts)\n".toList ++
    ['\n'].intercalate rules ++ ['\n'])

/-- Whether safe search is on, for which providers, and the warnings. -/
def convertSafeSearch (ss : AghSafeSearch) : Bool × List Str × List Str :=
  if ss.enabled then
    let providers := ([(ss.google, "google"), (ss.youtube, "youtube"), (ss.bing, "bing"),
      (ss.duckduckgo, "duckduckgo")].filter Prod.fst).map fun provider => provider.2.toList
    let unsupported := ([(ss.ecosia, "ecosia"), (ss.pixabay, "pixabay"),
      (ss.yandex, "yandex")].filter Prod.fst).map fun provider =>
        "safe-search provider ".toList ++ provider.2.toList ++ " is not supported in v1".toList
    let none_active := if providers.isEmpty then
      ["safe_search was enabled but no supported provider is active; disabled".toList] else []
    (!providers.isEmpty, providers, unsupported ++ none_active)
  else (false, [], [])

/-- `condition.then(warning)`. -/
def warn (condition : Bool) (warning : String) : List Str :=
  if condition then [warning.toList] else []

def outOfScope (agh : Agh) : List Str :=
  warn agh.dhcp.enabled "DHCP is enabled in AdGuard but out of scope for sumidero" ++
  warn agh.tls.enabled "TLS serving (DoT/DoH server) is out of scope for sumidero v1" ++
  warn (0 < agh.dns.ratelimit) "ratelimit has no equivalent in sumidero v1" ++
  ["web UI, query-log settings, and statistics settings do not apply: sumidero's ".toList ++
    "control plane is the config file + SQLite + CLI".toList]

/-! ### The whole -/

/-- What the sections come to. -/
structure Draft where
  warnings : List Str
  bind : List Str
  allow : List Str
  lists : List (Str × Str)
  userRules : Option Str
  servers : List Str
  bootstrap : List Str
  timeoutMs : Nat
  safeSearchEnabled : Bool
  providers : List Str

def draft (toml : Toml) (agh : Agh) (bind : List Str) : Draft :=
  let allowed := allowClients toml agh.dns.allowedClients
  let filters := convertFilters toml ["user-rules".toList] 0 agh.filters
  let safeSearch := convertSafeSearch agh.filtering.safeSearch
  let timeoutMs := parseGoDurationMs agh.dns.upstreamTimeout
  { warnings :=
      (agh.dns.upstreamDns.filter fun server => !survives server).map skippedUpstream ++
      warn (!agh.dns.fallbackDns.isEmpty)
        "fallback_dns has no equivalent: sumidero races all upstreams in parallel" ++
      (if timeoutMs.isNone then [unparsedTimeout toml agh.dns.upstreamTimeout] else []) ++
      allowed.2 ++ filters.2 ++ safeSearch.2.2 ++ outOfScope agh
    bind := retainNew [] (dedup bind)
    allow := allowed.1
    lists := filters.1
    userRules := userRulesText (agh.userRules ++ agh.dns.blockedHosts)
    servers := agh.dns.upstreamDns.filter survives
    bootstrap := agh.dns.bootstrapDns.map fun ip => ip.val.toStr
    timeoutMs := timeoutMs.getD 5000
    safeSearchEnabled := safeSearch.1
    providers := safeSearch.2.1 }

/-- `{:?}` of a list of strings. -/
def quotedList (toml : Toml) (texts : List Str) : Str :=
  '[' :: (", ".toList.intercalate (texts.map toml.quoted) ++ [']'])

/-- The text written, with the warnings as comments. -/
def Draft.text (toml : Toml) (draft : Draft) (listDir dbPath userRulesPath : Str) : Str :=
  "# sumidero config — generated by `sumidero migrate` from AdGuardHome.yaml\n".toList ++
  draft.warnings.flatMap (fun warning => "# WARNING: ".toList ++ warning ++ ['\n']) ++
  "\n[server]\nbind = ".toList ++ quotedList toml draft.bind ++
  "\nallow = ".toList ++ quotedList toml draft.allow ++
  "\n\n[filtering]\nlist_dir = ".toList ++ toml.quoted listDir ++ ['\n'] ++
  draft.lists.flatMap (fun list => "\n[[filtering.lists]]\nname = ".toList ++
    toml.quoted list.1 ++ "\nurl = ".toList ++ toml.quoted list.2 ++ ['\n']) ++
  (if draft.userRules.isSome then
    "\n[[filtering.lists]]\nname = \"user-rules\"\npath = ".toList ++ toml.quoted userRulesPath ++
      ['\n'] else []) ++
  "\n[upstreams]\nservers = ".toList ++ quotedList toml draft.servers ++
  "\nbootstrap = ".toList ++ quotedList toml draft.bootstrap ++
  "\ntimeout_ms = ".toList ++ Nat.toDigits 10 draft.timeoutMs ++
  "\n\n[database]\npath = ".toList ++ toml.quoted dbPath ++
  "\n\n[safe_search]\nenabled = ".toList ++
  (if draft.safeSearchEnabled then "true" else "false").toList ++
  "\nproviders = ".toList ++ quotedList toml draft.providers ++ ['\n']

/-- The values written into the text. -/
def Draft.config (draft : Draft) (listDir dbPath userRulesPath : Str) : Config where
  server := { bind := draft.bind, allow := draft.allow }
  filtering :=
    { profile := none
      lists := draft.lists.map (fun list => { name := list.1, url := some list.2, path := none }) ++
        if draft.userRules.isSome then
          [{ name := "user-rules".toList, url := none, path := some userRulesPath }] else []
      listDir }
  upstreams :=
    { servers := draft.servers, bootstrap := draft.bootstrap, timeoutMs := draft.timeoutMs }
  database := { path := dbPath }
  safeSearch := { enabled := draft.safeSearchEnabled, providers := draft.providers }
  tls := { extraRoots := [] }
  cache := CacheConfig.default

/-- The text of a failed check of the generated configuration. -/
def selfCheckFailed (err : ConfigError) : Str :=
  "generated config failed validation (bug): ".toList ++ err.toStr

/-- `readYaml` is `serde_yaml`. -/
def convert (readYaml : Str → Except Str Agh) (toml : Toml)
    (yaml listDir dbPath userRulesPath : Str) : Except Str Migration := do
  let agh ← (readYaml yaml).mapError fun err => "cannot parse YAML: ".toList ++ err
  let bind ← bindHosts agh.dns.port agh.dns.bindHosts
  let draft := draft toml agh bind
  if draft.servers.isEmpty then
    .error "no usable upstream (need at least one https:// or quic:// server)".toList
  else if agh.dns.bootstrapDns.isEmpty then
    .error "bootstrap_dns is empty; sumidero requires bootstrap IPs".toList
  else if draft.lists.isEmpty && draft.userRules.isNone then
    .error ("nothing to filter with: no enabled filters and no user rules in the AdGuard ".toList ++
      "config; start from `sumidero init --profile` instead".toList)
  else do
    let text := draft.text toml listDir dbPath userRulesPath
    let _ ← (fromToml toml text "<migrated>".toList).mapError selfCheckFailed
    return { toml := text, warnings := draft.warnings, userRules := draft.userRules }

example : slug "AdGuard DNS  filter (EU)".toList = "adguard-dns-filter-eu".toList := by decide

example : parseGoDurationMs "10s".toList = some 10000 := by decide

end Sumidero.Cli
