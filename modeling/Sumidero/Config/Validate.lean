import Sumidero.Data.Checks
import Sumidero.Net.SocketAddr
import Sumidero.Server.SafeSearch

namespace Sumidero

namespace Config

open Data Net Server Text

/-! `Config::from_toml`: the fields whose text another type reads, then `validate`. -/

inductive ConfigError where
  | Parse (path source : Str)
  | Invalid (reason : Str)
deriving Repr, DecidableEq

def ConfigError.toStr : ConfigError → Str
  | .Parse path source => "cannot parse ".toList ++ path ++ ": ".toList ++ source
  | .Invalid reason => "invalid config: ".toList ++ reason

/-- What `toml`, `serde` and `ipnet` do here. -/
structure Toml where
  /-- `{:?}` of a string. -/
  quoted : Str → Str
  /-- The values a text gives, absent sections as their defaults. -/
  read : Str → Except Str Config
  /-- Whether `IpNet` reads the text. -/
  isNet : Str → Bool
  /-- The report of a field whose text its type does not read. -/
  fieldError : String → Str → Str

def CacheConfig.default : CacheConfig where
  maxEntries := 16384
  serveStaleSecs := 12 * 3600

def MAX_SERVE_STALE_SECS : Nat := 3 * 86400

def isAbsolute (path : Str) : Bool := path.head? = some '/'

def startsWith (text front : Str) : Bool := front.isPrefixOf text

def check (holds : Bool) (reason : Str) : Except ConfigError Unit := ensure holds (.Invalid reason)

def CacheConfig.validate (cache : CacheConfig) : Except ConfigError Unit := do
  check (cache.maxEntries != 0) "cache.max_entries must be at least 1".toList
  check (cache.serveStaleSecs ≤ MAX_SERVE_STALE_SECS)
    ("cache.serve_stale_secs: ".toList ++ Nat.toDigits 10 cache.serveStaleSecs ++
      " exceeds the RFC 8767 bound of ".toList ++ Nat.toDigits 10 MAX_SERVE_STALE_SECS ++
      " (3 days)".toList)

def TlsConfig.validate (tls : TlsConfig) : Except ConfigError Unit :=
  checkAll (fun path => check (isAbsolute path)
    ("tls.extra_roots: ".toList ++ path ++ " must be absolute".toList)) tls.extraRoots

def validateProviders (providers : List Str) : Except ConfigError Unit :=
  checkAll (fun provider => check (listed SUPPORTED_PROVIDERS provider)
    ("safe_search.providers: unknown safe-search provider \"".toList ++ provider ++
      "\"; supported: google, youtube, bing, duckduckgo".toList)) providers

/-- No list without a name, and none with an earlier list's. -/
def validateNames (seen : List Str) : List ListSource → Except ConfigError Unit
  | [] => .ok ()
  | list :: rest => do
      check (!list.name.isEmpty) "filtering.lists: a list has an empty name".toList
      check (!seen.contains list.name)
        ("filtering.lists: duplicate list name '".toList ++ list.name ++ "'".toList)
      validateNames (list.name :: seen) rest

def validateSource (list : ListSource) : Except ConfigError Unit := do
  check (list.url.isSome || list.path.isSome)
    ("filtering.lists: '".toList ++ list.name ++ "' has neither url nor path".toList)
  checkAll (fun url => check (startsWith url "https://".toList)
    ("filtering.lists: '".toList ++ list.name ++ "' url '".toList ++ url ++
      "' must use https://".toList)) list.url.toList
  checkAll (fun path => check (isAbsolute path)
    ("filtering.lists: '".toList ++ list.name ++ "' path ".toList ++ path ++
      " must be absolute".toList)) list.path.toList

def isUpstream (server : Str) : Bool :=
  !(!startsWith server "https://".toList && !startsWith server "quic://".toList)

def validate (config : Config) : Except ConfigError Unit := do
  check (!config.server.bind.isEmpty) "server.bind: must not be empty".toList
  check (!config.server.allow.isEmpty) "server.allow: must not be empty".toList
  check (!config.upstreams.servers.isEmpty) "upstreams.servers: must not be empty".toList
  checkAll (fun server => check (isUpstream server)
    ("upstreams.servers: ".toList ++ server ++
      ": must use https:// or quic:// scheme".toList)) config.upstreams.servers
  check (!config.upstreams.bootstrap.isEmpty) "upstreams.bootstrap: must not be empty".toList
  check (100 ≤ config.upstreams.timeoutMs && config.upstreams.timeoutMs ≤ 30000)
    ("upstreams.timeout_ms: ".toList ++ Nat.toDigits 10 config.upstreams.timeoutMs ++
      " is not in 100..=30000".toList)
  check (isAbsolute config.database.path)
    ("database.path: ".toList ++ config.database.path ++ " must be absolute".toList)
  check (isAbsolute config.filtering.listDir)
    ("filtering.list_dir: ".toList ++ config.filtering.listDir ++ " must be absolute".toList)
  config.tls.validate
  config.cache.validate
  validateProviders config.safeSearch.providers
  check (!config.effectiveLists.isEmpty)
    "filtering: must have at least one list (set profile or lists)".toList
  validateNames [] config.filtering.lists
  checkAll validateSource config.effectiveLists

/-- The fields read as addresses and networks. -/
def decodeFields (toml : Toml) (config : Config) : Except Str Unit := do
  checkAll (fun text => ensure (parseSocketAddr text).isSome (toml.fieldError "server.bind" text))
    config.server.bind
  checkAll (fun text => ensure (toml.isNet text) (toml.fieldError "server.allow" text))
    config.server.allow
  checkAll (fun text => ensure (parseIpAddr text).isSome
    (toml.fieldError "upstreams.bootstrap" text)) config.upstreams.bootstrap

def fromToml (toml : Toml) (text origin : Str) : Except ConfigError Config := do
  let config ← (toml.read text).mapError (.Parse origin)
  (decodeFields toml config).mapError (.Parse origin)
  config.validate
  return config

/-! ### What passes -/

def Sourced (list : ListSource) : Prop :=
  (list.url.isSome ∨ list.path.isSome) ∧
    (∀ url ∈ list.url, startsWith url "https://".toList) ∧ ∀ path ∈ list.path, isAbsolute path

structure Valid (config : Config) : Prop where
  bound : config.server.bind ≠ []
  allows : config.server.allow ≠ []
  upstream : config.upstreams.servers ≠ []
  schemes : ∀ server ∈ config.upstreams.servers, isUpstream server
  bootstrapped : config.upstreams.bootstrap ≠ []
  timely : 100 ≤ config.upstreams.timeoutMs ∧ config.upstreams.timeoutMs ≤ 30000
  stored : isAbsolute config.database.path
  downloaded : isAbsolute config.filtering.listDir
  trusted : ∀ path ∈ config.tls.extraRoots, isAbsolute path
  cached : config.cache.maxEntries ≠ 0 ∧ config.cache.serveStaleSecs ≤ MAX_SERVE_STALE_SECS
  enforced : ∀ provider ∈ config.safeSearch.providers, listed SUPPORTED_PROVIDERS provider
  filters : config.effectiveLists ≠ []
  named : ∀ list ∈ config.filtering.lists, list.name ≠ []
  distinct : (config.filtering.lists.map ListSource.name).Nodup
  sourced : ∀ list ∈ config.effectiveLists, Sourced list

theorem check_ok {holds : Bool} {reason : Str} : check holds reason = .ok () ↔ holds = true :=
  ensure_ok

theorem checkAll_check {α : Type} {holds : α → Bool} {reason : α → Str} {items : List α} :
    checkAll (fun item => check (holds item) (reason item)) items = .ok () ↔
      ∀ item ∈ items, holds item = true := by
  rw [checkAll_ok]
  simp only [check_ok]

theorem validateNames_ok {seen : List Str} {lists : List ListSource} :
    validateNames seen lists = .ok () ↔
      (∀ list ∈ lists, list.name ≠ []) ∧ (∀ list ∈ lists, list.name ∉ seen) ∧
        (lists.map ListSource.name).Nodup := by
  induction lists generalizing seen with
  | nil => simp [validateNames]
  | cons list rest ih =>
      rw [validateNames, then_ok, then_ok, check_ok, check_ok, ih]
      simp only [Bool.not_eq_true', List.isEmpty_eq_false_iff, List.contains_eq_mem,
        decide_eq_false_iff_not, List.mem_cons,
        not_or, List.map_cons, List.nodup_cons, List.mem_map, not_exists, not_and,
        forall_eq_or_imp]
      constructor
      · intro ⟨some_name, unseen, others, fresh, distinct⟩
        exact ⟨⟨some_name, others⟩, ⟨unseen, fun other member => (fresh other member).2⟩,
          fun other member => (fresh other member).1, distinct⟩
      · intro ⟨⟨some_name, others⟩, ⟨unseen, fresh⟩, apart, distinct⟩
        exact ⟨some_name, unseen, others,
          fun other member => ⟨apart other member, fresh other member⟩, distinct⟩

theorem validateSource_ok {list : ListSource} : validateSource list = .ok () ↔ Sourced list := by
  rw [validateSource, then_ok, then_ok, check_ok, checkAll_check, checkAll_check, Bool.or_eq_true]
  simp only [Option.mem_toList]
  rfl

/-- `validate` accepts exactly the valid configurations. -/
theorem validate_ok {config : Config} : config.validate = .ok () ↔ Valid config := by
  simp only [validate, TlsConfig.validate, CacheConfig.validate, validateProviders]
  simp only [then_ok, check_ok, checkAll_ok, validateNames_ok, validateSource_ok,
    Bool.not_eq_true', List.isEmpty_eq_false_iff, Bool.and_eq_true, decide_eq_true_eq, bne_iff_ne]
  constructor
  · intro ⟨bound, allows, upstream, schemes, bootstrapped, timely, stored, downloaded, trusted,
      cached, enforced, filters, ⟨named, _, distinct⟩, sourced⟩
    exact ⟨bound, allows, upstream, schemes, bootstrapped, timely, stored, downloaded, trusted,
      cached, enforced, filters, named, distinct, sourced⟩
  · intro valid
    exact ⟨valid.bound, valid.allows, valid.upstream, valid.schemes, valid.bootstrapped,
      valid.timely, valid.stored, valid.downloaded, valid.trusted, valid.cached, valid.enforced,
      valid.filters, ⟨valid.named, fun _ _ => List.not_mem_nil, valid.distinct⟩, valid.sourced⟩

/-- Every address and network is one. -/
structure Decodes (toml : Toml) (config : Config) : Prop where
  sockets : ∀ text ∈ config.server.bind, (parseSocketAddr text).isSome
  networks : ∀ text ∈ config.server.allow, toml.isNet text
  addresses : ∀ text ∈ config.upstreams.bootstrap, (parseIpAddr text).isSome

theorem decodeFields_ok {toml : Toml} {config : Config} :
    decodeFields toml config = .ok () ↔ Decodes toml config := by
  simp only [decodeFields]
  simp only [then_ok, checkAll_ok, ensure_ok]
  constructor
  · intro ⟨sockets, networks, addresses⟩
    exact ⟨sockets, networks, addresses⟩
  · intro decodes
    exact ⟨decodes.sockets, decodes.networks, decodes.addresses⟩

theorem fromToml_ok {toml : Toml} {text origin : Str} {config : Config}
    (reads : toml.read text = .ok config) :
    (∃ loaded, fromToml toml text origin = .ok loaded) ↔ Decodes toml config ∧ Valid config := by
  have steps : fromToml toml text origin = (do
      (decodeFields toml config).mapError (.Parse origin)
      config.validate
      return config) := by
    simp only [fromToml]
    rw [reads]
    rfl
  rw [← decodeFields_ok, ← validate_ok, steps]
  cases decodeFields toml config with
  | error reason =>
      constructor
      · intro ⟨loaded, given⟩
        contradiction
      · intro ⟨given, _⟩
        contradiction
  | ok done =>
      cases config.validate with
      | error reason =>
          constructor
          · intro ⟨loaded, given⟩
            contradiction
          · intro ⟨_, given⟩
            contradiction
      | ok done =>
          exact ⟨fun _ => ⟨rfl, rfl⟩, fun _ => ⟨config, rfl⟩⟩

/-- Lists of distinct names, without a profile, all count. -/
theorem override_distinct {lists extras : List ListSource}
    (distinct : ((lists ++ extras).map ListSource.name).Nodup) :
    extras.foldl override lists = lists ++ extras := by
  induction extras generalizing lists with
  | nil => simp
  | cons extra rest ih =>
      have unused : lists.findIdx? (fun list => list.name = extra.name) = none := by
        rw [List.findIdx?_eq_none_iff]
        intro list member
        rw [List.map_append, List.nodup_append] at distinct
        have apart := distinct.2.2 list.name (List.mem_map_of_mem member) extra.name (by simp)
        simpa using apart
      rw [List.foldl_cons, override, unused]
      dsimp only
      rw [ih (by simpa using distinct), List.append_assoc, List.singleton_append]

end Config

end Sumidero
