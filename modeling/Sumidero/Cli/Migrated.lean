import Mathlib.Data.List.Destutter
import Sumidero.Cli.Names

namespace Sumidero.Cli

open Config Data Net Server Text

/-! Which of AdGuard Home's configurations migrate. -/

/-! ### Sockets and networks -/

theorem bindHost_parses {port : UInt16} {ip : IpAddr} (formed : ip.WellFormed) {text : Str}
    (member : text ∈ bindHost port ip) : (parseSocketAddr text).isSome := by
  have fits : port.toNat ≤ 65535 := Nat.le_of_lt_succ port.toNat_lt
  rcases List.mem_cons.mp member with rfl | unspecified
  · rw [parseSocketAddr_toStr formed fits]
    rfl
  · split at unspecified
    · have any : (IpAddr.V6 [0, 0, 0, 0, 0, 0, 0, 0]).WellFormed := by
        simp only [IpAddr.WellFormed]
        decide
      have written : "[::]:".toList ++ Nat.toDigits 10 port.toNat =
          (SocketAddr.new (.V6 [0, 0, 0, 0, 0, 0, 0, 0]) port.toNat).toStr := rfl
      rw [List.mem_singleton.mp unspecified, written, parseSocketAddr_toStr any fits]
      rfl
    · contradiction

theorem bindHosts_ok {port : UInt16} {hosts : List Str}
    (parse : ∀ host ∈ hosts, (parseIpAddr host).isSome) :
    ∃ bind, bindHosts port hosts = .ok bind ∧ (bind = [] ↔ hosts = []) ∧
      ∀ text ∈ bind, (parseSocketAddr text).isSome := by
  induction hosts with
  | nil => exact ⟨[], rfl, Iff.rfl, nofun⟩
  | cons host rest ih =>
      obtain ⟨others, bound, _, sockets⟩ := ih fun other member =>
        parse other (List.mem_cons_of_mem _ member)
      obtain ⟨ip, address⟩ := Option.isSome_iff_exists.mp (parse host List.mem_cons_self)
      have some_bound : bindHost port ip ++ others ≠ [] :=
        List.append_ne_nil_of_left_ne_nil (List.cons_ne_nil _ _) others
      refine ⟨bindHost port ip ++ others, ?_, iff_of_false some_bound (List.cons_ne_nil _ _), ?_⟩
      · simp only [bindHosts]
        rw [address, bound]
        rfl
      · intro text member
        rcases List.mem_append.mp member with own | other
        · exact bindHost_parses (parseIpAddr_wellFormed address) own
        · exact sockets text other

theorem retainNew_subset (seen texts : List Str) : ∀ text ∈ retainNew seen texts, text ∈ texts := by
  induction texts generalizing seen with
  | nil => exact nofun
  | cons text rest ih =>
      simp only [retainNew]
      split
      · exact fun other member => List.mem_cons_of_mem _ (ih seen other member)
      · intro other member
        rcases List.mem_cons.mp member with rfl | later
        · exact List.mem_cons_self
        · exact List.mem_cons_of_mem _ (ih _ other later)

theorem retainNew_nil {texts : List Str} : retainNew [] texts = [] ↔ texts = [] := by
  cases texts <;> simp [retainNew]

/-- What `ipnet` documents: an address with a width its family has is a network. -/
structure KnowsNetworks (toml : Toml) : Prop where
  v4 : ∀ octets, (IpAddr.V4 octets).WellFormed → toml.isNet (showIpv4 octets ++ "/32".toList)
  v6 : ∀ groups, (IpAddr.V6 groups).WellFormed → toml.isNet (showIpv6 groups ++ "/128".toList)
  defaults : ∀ net ∈ DEFAULT_ALLOW, toml.isNet net

theorem allowClients_fst (toml : Toml) (clients : List Str) :
    (allowClients toml clients).1 =
      if (allowed clients).isEmpty then DEFAULT_ALLOW else allowed clients := by
  simp only [allowClients]
  cases (allowed clients).isEmpty <;> rfl

theorem allowClients_some (toml : Toml) (clients : List Str) :
    (allowClients toml clients).1 ≠ [] := by
  rw [allowClients_fst]
  split
  · exact List.cons_ne_nil _ _
  · next kept => exact fun none => kept (List.isEmpty_iff.mpr none)

/-- A client written as an address gives a network; one written as a network stays as it is. -/
theorem allowClient_isNet {toml : Toml} (knows : KnowsNetworks toml) {client net : Str}
    (given : allowClient client = some net) (bare : '/' ∉ client) : toml.isNet net := by
  simp only [allowClient] at given
  rw [if_neg bare] at given
  cases parsed : parseIpAddr client with
  | none =>
      rw [parsed] at given
      contradiction
  | some ip =>
      rw [parsed] at given
      have formed := parseIpAddr_wellFormed parsed
      cases ip with
      | V4 octets =>
          cases given
          exact knows.v4 octets formed
      | V6 groups =>
          cases given
          exact knows.v6 groups formed

theorem allowClients_isNet {toml : Toml} (knows : KnowsNetworks toml) {clients : List Str} :
    (∀ net ∈ (allowClients toml clients).1, toml.isNet net) ↔
      ∀ client ∈ clients, '/' ∈ client → toml.isNet client := by
  have kept : (∀ net ∈ clients.filterMap allowClient, toml.isNet net) ↔
      ∀ client ∈ clients, '/' ∈ client → toml.isNet client := by
    constructor
    · intro nets client member slash
      apply nets client
      apply List.mem_filterMap.mpr
      exact ⟨client, member, by rw [allowClient, if_pos slash]⟩
    · intro networks net member
      obtain ⟨client, inside, given⟩ := List.mem_filterMap.mp member
      by_cases slash : '/' ∈ client
      · rw [allowClient, if_pos slash] at given
        cases given
        exact networks net inside slash
      · exact allowClient_isNet knows given slash
  have default_nets : ∀ net ∈ (if clients.isEmpty then DEFAULT_ALLOW else []), toml.isNet net := by
    split
    · exact knows.defaults
    · exact nofun
  rw [← kept, allowClients_fst, allowed]
  generalize clients.filterMap allowClient = nets
  generalize (if clients.isEmpty then DEFAULT_ALLOW else []) = front at default_nets
  split
  · next empty =>
    rw [List.isEmpty_iff, List.append_eq_nil_iff] at empty
    rw [empty.2]
    exact ⟨fun _ => nofun, fun _ => knows.defaults⟩
  · rw [List.forall_mem_append]
    exact ⟨And.right, fun others => ⟨default_nets, others⟩⟩

/-- The upstreams kept are those the validator accepts. -/
theorem survives_isUpstream {server : Str} (kept : survives server) : isUpstream server := by
  simp only [isUpstream]
  rw [Bool.not_and, Bool.not_not, Bool.not_not]
  exact kept

theorem convertSafeSearch_supported (ss : AghSafeSearch) :
    ∀ provider ∈ (convertSafeSearch ss).2.1, listed SUPPORTED_PROVIDERS provider := by
  simp only [convertSafeSearch]
  split
  · intro provider member
    obtain ⟨⟨on, name⟩, among, rfl⟩ := List.mem_map.mp member
    have known := (List.mem_filter.mp among).1
    simp only [List.mem_cons, Prod.mk.injEq, List.not_mem_nil, or_false] at known
    have supported : ∀ known ∈ ["google", "youtube", "bing", "duckduckgo"],
        listed SUPPORTED_PROVIDERS known.toList := by decide
    apply supported
    rcases known with ⟨_, rfl⟩ | ⟨_, rfl⟩ | ⟨_, rfl⟩ | ⟨_, rfl⟩ <;> simp
  · exact nofun

/-! ### The generated configuration -/

/-- The checks that `convert` makes of its own. -/
structure PassesChecks (agh : Agh) : Prop where
  hosts : ∀ host ∈ agh.dns.bindHosts, (parseIpAddr host).isSome
  upstream : ∃ server ∈ agh.dns.upstreamDns, survives server
  bootstrap : agh.dns.bootstrapDns ≠ []
  filters : (∃ filter ∈ agh.filters, filter.enabled) ∨ agh.userRules ++ agh.dns.blockedHosts ≠ []

/-- What `validate` asks of AdGuard's configuration beyond these checks. -/
structure Representable (toml : Toml) (agh : Agh) (listDir dbPath userRulesPath : Str) :
    Prop where
  bound : agh.dns.bindHosts ≠ []
  timely : 100 ≤ (parseGoDurationMs agh.dns.upstreamTimeout).getD 5000 ∧
    (parseGoDurationMs agh.dns.upstreamTimeout).getD 5000 ≤ 30000
  networks : ∀ client ∈ agh.dns.allowedClients, '/' ∈ client → toml.isNet client
  https : ∀ filter ∈ agh.filters, filter.enabled → startsWith filter.url "https://".toList
  paths : isAbsolute listDir ∧ isAbsolute dbPath ∧
    (agh.userRules ++ agh.dns.blockedHosts ≠ [] → isAbsolute userRulesPath)

/-- The emitted text decodes to the values written into it. -/
def ReadsBack (toml : Toml) (agh : Agh) (listDir dbPath userRulesPath : Str) : Prop :=
  ∀ bind, bindHosts agh.dns.port agh.dns.bindHosts = .ok bind →
    toml.read ((draft toml agh bind).text toml listDir dbPath userRulesPath) =
      .ok ((draft toml agh bind).config listDir dbPath userRulesPath)

/-- The cache's defaults pass its own check. -/
theorem cacheDefault_valid : CacheConfig.default.maxEntries ≠ 0 ∧
    CacheConfig.default.serveStaleSecs ≤ MAX_SERVE_STALE_SECS := by decide

section Drafts

variable {toml : Toml} {agh : Agh} {bind : List Str} {listDir dbPath userRulesPath : Str}

theorem draft_bind (toml : Toml)
    (bound : bindHosts agh.dns.port agh.dns.bindHosts = .ok bind)
    (checks : PassesChecks agh) :
    ((draft toml agh bind).bind = [] ↔ agh.dns.bindHosts = []) ∧
      ∀ text ∈ (draft toml agh bind).bind, (parseSocketAddr text).isSome := by
  obtain ⟨all, same, empty, sockets⟩ := bindHosts_ok checks.hosts
  obtain rfl := Except.ok.inj (bound.symm.trans same)
  constructor
  · rw [← empty]
    exact retainNew_nil.trans (List.destutter_eq_nil _)
  · intro text member
    exact sockets text ((List.destutter_sublist _ _).subset (retainNew_subset _ _ text member))

theorem draft_decodes (knows : KnowsNetworks toml) (checks : PassesChecks agh)
    (bound : bindHosts agh.dns.port agh.dns.bindHosts = .ok bind) :
    Decodes toml ((draft toml agh bind).config listDir dbPath userRulesPath) ↔
      ∀ client ∈ agh.dns.allowedClients, '/' ∈ client → toml.isNet client := by
  rw [← allowClients_isNet knows]
  constructor
  · intro decodes
    exact decodes.networks
  · intro networks
    refine ⟨(draft_bind toml bound checks).2, networks, ?_⟩
    intro text member
    obtain ⟨ip, _, rfl⟩ := List.mem_map.mp member
    rw [parseIpAddr_toStr ip.property]
    rfl

theorem draft_userRules (toml : Toml) (agh : Agh) (bind : List Str) :
    (draft toml agh bind).userRules.isSome ↔ agh.userRules ++ agh.dns.blockedHosts ≠ [] := by
  show (userRulesText (agh.userRules ++ agh.dns.blockedHosts)).isSome ↔ _
  simp only [userRulesText]
  split
  · next empty => simp [List.isEmpty_iff.mp empty]
  · next kept => exact ⟨fun _ none => kept (List.isEmpty_iff.mpr none), fun _ => rfl⟩

/-- The generated lists have distinct names, so none replaces another. -/
theorem draft_lists (toml : Toml) (agh : Agh) (bind : List Str)
    (listDir dbPath userRulesPath : Str) :
    let lists := ((draft toml agh bind).config listDir dbPath userRulesPath).filtering.lists
    (∀ list ∈ lists, list.name ≠ []) ∧ (lists.map ListSource.name).Nodup := by
  have naming := convertFilters_naming toml agh.filters
  have fresh := naming.formed
  have distinct := (List.nodup_cons.mp naming.distinct).2
  have names : ∀ lists : List (Str × Str),
      (lists.map fun list => (⟨list.1, some list.2, none⟩ : ListSource)).map ListSource.name =
        lists.map Prod.fst := by
    intro lists
    rw [List.map_map]
    rfl
  dsimp only [Draft.config]
  have own : (draft toml agh bind).lists =
      (convertFilters toml ["user-rules".toList] 0 agh.filters).1 := rfl
  rw [own]
  split
  · constructor
    · intro list member
      rcases List.mem_append.mp member with filter | rules
      · obtain ⟨pair, inside, rfl⟩ := List.mem_map.mp filter
        exact (fresh pair inside).some
      · rw [List.mem_singleton.mp rules]
        exact List.cons_ne_nil _ _
    · rw [List.map_append, names, List.nodup_append]
      refine ⟨distinct, List.nodup_singleton _, ?_⟩
      intro name member other rules same
      obtain ⟨pair, inside, rfl⟩ := List.mem_map.mp member
      rw [List.map_singleton, List.mem_singleton] at rules
      exact (fresh pair inside).free (same.trans rules)
  · rw [List.append_nil, names]
    refine ⟨?_, distinct⟩
    intro list member
    obtain ⟨pair, inside, rfl⟩ := List.mem_map.mp member
    exact (fresh pair inside).some

theorem draft_effectiveLists :
    ((draft toml agh bind).config listDir dbPath userRulesPath).effectiveLists =
      ((draft toml agh bind).config listDir dbPath userRulesPath).filtering.lists := by
  have distinct := (draft_lists toml agh bind listDir dbPath userRulesPath).2
  simp only [effectiveLists]
  exact @override_distinct [] _ distinct

theorem draft_urls (toml : Toml) (agh : Agh) (bind : List Str) :
    (draft toml agh bind).lists.map Prod.snd = (agh.filters.filter AghFilter.enabled).map AghFilter.url :=
  (convertFilters_naming toml agh.filters).urls

theorem draft_sourced :
    (∀ list ∈ ((draft toml agh bind).config listDir dbPath userRulesPath).filtering.lists,
      Sourced list) ↔
      (∀ filter ∈ agh.filters, filter.enabled → startsWith filter.url "https://".toList) ∧
        (agh.userRules ++ agh.dns.blockedHosts ≠ [] → isAbsolute userRulesPath) := by
  have https : (∀ list ∈ (draft toml agh bind).lists, startsWith list.2 "https://".toList) ↔
      ∀ filter ∈ agh.filters, filter.enabled → startsWith filter.url "https://".toList := by
    rw [← @List.forall_mem_map _ _ Prod.snd _ fun url => startsWith url "https://".toList,
      draft_urls, List.forall_mem_map]
    simp only [List.mem_filter, and_imp]
  have listed : ∀ list : Str × Str, Sourced ⟨list.1, some list.2, none⟩ ↔
      startsWith list.2 "https://".toList := by
    intro list
    simp [Sourced]
  rw [← https, ← draft_userRules toml agh bind]
  dsimp only [Draft.config]
  rw [List.forall_mem_append, List.forall_mem_map]
  simp only [listed]
  split
  · next rules => simp [Sourced, rules]
  · next none => simp [none]

theorem draft_filters (toml : Toml) (bind : List Str) (checks : PassesChecks agh) :
    ((draft toml agh bind).lists.isEmpty && (draft toml agh bind).userRules.isNone) = false := by
  rw [Bool.and_eq_false_iff]
  rcases checks.filters with ⟨filter, member, enabled⟩ | rules
  · left
    rw [List.isEmpty_eq_false_iff]
    intro none
    have urls := draft_urls toml agh bind
    rw [none] at urls
    have found := List.mem_map_of_mem (f := AghFilter.url) (List.mem_filter.mpr ⟨member, enabled⟩)
    rw [← urls] at found
    contradiction
  · right
    have kept := (draft_userRules toml agh bind).mpr rules
    rw [← Option.not_isSome, kept]
    rfl

/-- The validator accepts the generated configuration exactly when AdGuard's can be represented. -/
theorem draft_valid (checks : PassesChecks agh)
    (bound : bindHosts agh.dns.port agh.dns.bindHosts = .ok bind) :
    Valid ((draft toml agh bind).config listDir dbPath userRulesPath) ↔
      agh.dns.bindHosts ≠ [] ∧
      (100 ≤ (parseGoDurationMs agh.dns.upstreamTimeout).getD 5000 ∧
        (parseGoDurationMs agh.dns.upstreamTimeout).getD 5000 ≤ 30000) ∧
      (∀ filter ∈ agh.filters, filter.enabled → startsWith filter.url "https://".toList) ∧
      isAbsolute listDir ∧ isAbsolute dbPath ∧
        (agh.userRules ++ agh.dns.blockedHosts ≠ [] → isAbsolute userRulesPath) := by
  obtain ⟨named, distinct⟩ := draft_lists toml agh bind listDir dbPath userRulesPath
  have sources := @draft_sourced toml agh bind listDir dbPath userRulesPath
  rw [← draft_effectiveLists] at sources
  have sockets := not_congr (draft_bind toml bound checks).1
  constructor
  · intro valid
    obtain ⟨https, rules⟩ := sources.mp valid.sourced
    exact ⟨sockets.mp valid.bound, valid.timely, https, valid.downloaded, valid.stored, rules⟩
  · intro ⟨some_host, timely, https, downloaded, stored, rules⟩
    have nonempty : ((draft toml agh bind).config listDir dbPath userRulesPath).filtering.lists ≠
        [] := by
      intro none
      have filters := draft_filters toml bind checks
      dsimp only [Draft.config] at none
      rw [List.append_eq_nil_iff, List.map_eq_nil_iff] at none
      rw [none.1, List.isEmpty_nil, Bool.true_and] at filters
      rw [← Option.not_isSome, Bool.not_eq_false'] at filters
      rw [if_pos filters] at none
      exact List.cons_ne_nil _ _ none.2
    obtain ⟨server, offered, usable⟩ := checks.upstream
    exact {
      bound := sockets.mpr some_host
      allows := allowClients_some toml agh.dns.allowedClients
      upstream := List.ne_nil_of_mem (List.mem_filter.mpr ⟨offered, usable⟩)
      schemes := fun server member => survives_isUpstream (List.mem_filter.mp member).2
      bootstrapped := fun none => checks.bootstrap (List.map_eq_nil_iff.mp none)
      timely := timely
      stored := stored
      downloaded := downloaded
      trusted := nofun
      cached := cacheDefault_valid
      enforced := convertSafeSearch_supported agh.filtering.safeSearch
      filters := by rwa [draft_effectiveLists]
      named := named
      distinct := distinct
      sourced := sources.mpr ⟨https, rules⟩ }

/-- Past its own checks, only the generated configuration's are left. -/
theorem convert_checked {readYaml : Str → Except Str Agh} {yaml : Str}
    (parsed : readYaml yaml = .ok agh) (checks : PassesChecks agh)
    (bound : bindHosts agh.dns.port agh.dns.bindHosts = .ok bind) :
    convert readYaml toml yaml listDir dbPath userRulesPath =
      match fromToml toml ((draft toml agh bind).text toml listDir dbPath userRulesPath)
        "<migrated>".toList with
      | .ok _ => .ok
        { toml := (draft toml agh bind).text toml listDir dbPath userRulesPath
          warnings := (draft toml agh bind).warnings
          userRules := (draft toml agh bind).userRules }
      | .error err => .error (selfCheckFailed err) := by
  obtain ⟨server, offered, usable⟩ := checks.upstream
  have upstream : (draft toml agh bind).servers.isEmpty = false := by
    rw [List.isEmpty_eq_false_iff]
    exact List.ne_nil_of_mem (List.mem_filter.mpr ⟨offered, usable⟩)
  have bootstrap : agh.dns.bootstrapDns.isEmpty = false :=
    List.isEmpty_eq_false_iff.mpr checks.bootstrap
  simp only [convert]
  rw [parsed]
  simp only [Except.mapError, ok_bind, bound, upstream, bootstrap, draft_filters toml bind checks,
    Bool.false_eq_true, if_false]
  cases fromToml toml ((draft toml agh bind).text toml listDir dbPath userRulesPath)
    "<migrated>".toList <;> rfl

/-- The settings left out that a warning names. -/
structure Reported (toml : Toml) (agh : Agh) (warnings : List Str) : Prop where
  upstreams : ∀ server ∈ agh.dns.upstreamDns, survives server = false →
    skippedUpstream server ∈ warnings
  timeout : parseGoDurationMs agh.dns.upstreamTimeout = none →
    unparsedTimeout toml agh.dns.upstreamTimeout ∈ warnings
  clients : ∀ client ∈ agh.dns.allowedClients, '/' ∉ client → parseIpAddr client = none →
    skippedClient toml client ∈ warnings

theorem skippedClient_warned {client : Str} (given : client ∈ agh.dns.allowedClients)
    (bare : '/' ∉ client) (unread : parseIpAddr client = none) :
    skippedClient toml client ∈ (allowClients toml agh.dns.allowedClients).2 := by
  have left_out : (allowClient client).isNone := by
    rw [allowClient, if_neg bare, unread]
    rfl
  have skipped : skippedClient toml client ∈ (agh.dns.allowedClients.filter fun client =>
      (allowClient client).isNone).map (skippedClient toml) :=
    List.mem_map_of_mem (List.mem_filter.mpr ⟨given, left_out⟩)
  unfold allowClients
  dsimp only
  generalize (allowed agh.dns.allowedClients).isEmpty = none
  cases none with
  | true => exact List.mem_append_left _ (List.mem_append_right _ skipped)
  | false => exact List.mem_append_right _ skipped

theorem draft_reported (toml : Toml) (agh : Agh) (bind : List Str) :
    Reported toml agh (draft toml agh bind).warnings := by
  unfold draft
  dsimp only
  constructor
  · intro server offered unusable
    have skipped : skippedUpstream server ∈
        (agh.dns.upstreamDns.filter fun server => !survives server).map skippedUpstream :=
      List.mem_map_of_mem (List.mem_filter.mpr ⟨offered, by rw [unusable]; rfl⟩)
    simp only [List.mem_append, skipped, true_or]
  · intro unread
    rw [unread, Option.isNone_none, if_pos rfl]
    simp only [List.mem_append, List.mem_singleton, true_or, or_true]
  · intro client given bare unread
    simp only [List.mem_append, skippedClient_warned given bare unread, true_or, or_true]

end Drafts

/-- A configuration that passes `convert`'s own checks migrates, its malformed settings
reported, exactly when the validator can represent it; otherwise the self-check fails. -/
theorem migration_validates_iff {readYaml : Str → Except Str Agh} {toml : Toml} {agh : Agh}
    {yaml listDir dbPath userRulesPath : Str} (knows : KnowsNetworks toml)
    (parsed : readYaml yaml = .ok agh) (checks : PassesChecks agh)
    (readsBack : ReadsBack toml agh listDir dbPath userRulesPath) :
    (∃ migration, convert readYaml toml yaml listDir dbPath userRulesPath = .ok migration ∧
      Reported toml agh migration.warnings) ↔
      Representable toml agh listDir dbPath userRulesPath := by
  obtain ⟨bind, bound, _, _⟩ := bindHosts_ok checks.hosts
  have reads := readsBack bind bound
  have loads := @fromToml_ok toml _ "<migrated>".toList _ reads
  rw [draft_decodes knows checks bound, draft_valid checks bound] at loads
  rw [convert_checked parsed checks bound]
  have migrates : (∃ migration, (match fromToml toml ((draft toml agh bind).text toml listDir
      dbPath userRulesPath) "<migrated>".toList with
      | .ok _ => Except.ok (⟨(draft toml agh bind).text toml listDir dbPath userRulesPath,
          (draft toml agh bind).warnings, (draft toml agh bind).userRules⟩ : Migration)
      | .error err => .error (selfCheckFailed err)) = .ok migration ∧
        Reported toml agh migration.warnings) ↔
      ∃ loaded, fromToml toml ((draft toml agh bind).text toml listDir dbPath userRulesPath)
        "<migrated>".toList = .ok loaded := by
    cases fromToml toml ((draft toml agh bind).text toml listDir dbPath userRulesPath)
        "<migrated>".toList with
    | ok loaded => exact ⟨fun _ => ⟨loaded, rfl⟩, fun _ => ⟨_, rfl, draft_reported toml agh bind⟩⟩
    | error err =>
        constructor
        · intro ⟨_, failed, _⟩
          contradiction
        · intro ⟨_, failed⟩
          contradiction
  rw [migrates, loads]
  constructor
  · intro ⟨networks, some_host, timely, https, paths⟩
    exact ⟨some_host, timely, networks, https, paths⟩
  · intro representable
    exact ⟨representable.networks, representable.bound, representable.timely,
      representable.https, representable.paths⟩

/-! ### A small household -/

/-- An address, a slash and a width its family has. -/
def readNet (text : Str) : Bool :=
  match readIpAddr text with
  | some (.V4 _, '/' :: width) => (readUnlimited 32 width).any fun read => read.2.isEmpty
  | some (.V6 _, '/' :: width) => (readUnlimited 128 width).any fun read => read.2.isEmpty
  | _ => false

theorem readNet_bare {ip : IpAddr} (formed : ip.WellFormed) (width : Str) :
    readIpAddr (ip.toStr ++ '/' :: width) = some (ip, '/' :: width) := by
  apply readIpAddr_toStr formed
  intro c first
  cases first
  decide

def tomlOf (config : Config) : Toml where
  quoted := fun text => '"' :: (text ++ ['"'])
  read := fun _ => .ok config
  isNet := readNet
  fieldError := fun field text => field.toList ++ ": ".toList ++ text

theorem tomlOf_knows (config : Config) : KnowsNetworks (tomlOf config) := by
  constructor
  · intro octets formed
    have read := readNet_bare formed "32".toList
    show readNet _ = true
    simp only [readNet]
    rw [show showIpv4 octets ++ "/32".toList = (IpAddr.V4 octets).toStr ++ '/' :: "32".toList
      from rfl, read]
    rfl
  · intro groups formed
    have read := readNet_bare formed "128".toList
    show readNet _ = true
    simp only [readNet]
    rw [show showIpv6 groups ++ "/128".toList = (IpAddr.V6 groups).toStr ++ '/' :: "128".toList
      from rfl, read]
    rfl
  · show ∀ net ∈ DEFAULT_ALLOW, readNet net
    decide

def household (url : Str) : Agh where
  dns :=
    { upstreamDns := ["https://dns.example/dns-query".toList, "tls://dns.example".toList]
      bootstrapDns := [⟨.V4 [9, 9, 9, 9], by unfold IpAddr.WellFormed; decide⟩]
      allowedClients := ["192.168.1.2".toList, "printer".toList] }
  filters := [{ enabled := true, url, name := "Ads & more".toList }]

def householdConfig (url : Str) : Config where
  server :=
    { bind := ["0.0.0.0:53".toList, "[::]:53".toList], allow := ["192.168.1.2/32".toList] }
  filtering :=
    { profile := none, lists := [{ name := "ads-more".toList, url := some url, path := none }]
      listDir := "/var/lib/sumidero/lists".toList }
  upstreams :=
    { servers := ["https://dns.example/dns-query".toList], bootstrap := ["9.9.9.9".toList]
      timeoutMs := 5000 }
  database := { path := "/var/lib/sumidero/sumidero.sqlite".toList }
  safeSearch := { enabled := false, providers := [] }
  tls := { extraRoots := [] }
  cache := CacheConfig.default

theorem household_checks (url : Str) : PassesChecks (household url) := by
  refine ⟨?_, ⟨_, List.mem_cons_self, by decide⟩, List.cons_ne_nil _ _,
    .inl ⟨_, List.mem_cons_self, rfl⟩⟩
  show ∀ host ∈ ["0.0.0.0".toList], (parseIpAddr host).isSome
  decide

theorem household_readsBack (url userRulesPath : Str) :
    ReadsBack (tomlOf (householdConfig url)) (household url) "/var/lib/sumidero/lists".toList
      "/var/lib/sumidero/sumidero.sqlite".toList userRulesPath := by
  intro bind bound
  have both : bindHosts 53 ["0.0.0.0".toList] =
      .ok ["0.0.0.0:53".toList, "[::]:53".toList] := by rfl
  obtain rfl := Except.ok.inj (both.symm.trans bound)
  rfl

theorem household_migrates :
    ∃ migration, convert (fun _ => .ok (household "https://lists.example/ads.txt".toList))
      (tomlOf (householdConfig "https://lists.example/ads.txt".toList)) []
      "/var/lib/sumidero/lists".toList "/var/lib/sumidero/sumidero.sqlite".toList
      "/etc/sumidero/user-rules.txt".toList = .ok migration ∧
      Reported (tomlOf (householdConfig "https://lists.example/ads.txt".toList))
        (household "https://lists.example/ads.txt".toList) migration.warnings := by
  apply (migration_validates_iff (tomlOf_knows _) rfl (household_checks _)
    (household_readsBack _ _)).mpr
  refine ⟨List.cons_ne_nil _ _, by decide, ?_, ?_, by decide, by decide, fun _ => by decide⟩
  · intro client given slash
    simp only [household, List.mem_cons, List.not_mem_nil, or_false] at given
    rcases given with rfl | rfl <;> exact absurd slash (by decide)
  · intro filter given _
    obtain rfl := List.mem_singleton.mp given
    decide

/-- A list over plain HTTP is not left out with a warning: the whole migration fails. -/
theorem plain_http_fails :
    ¬ ∀ (readYaml : Str → Except Str Agh) (toml : Toml) (agh : Agh)
      (yaml listDir dbPath userRulesPath : Str),
      isAbsolute listDir → isAbsolute dbPath → isAbsolute userRulesPath → KnowsNetworks toml →
      readYaml yaml = .ok agh → PassesChecks agh →
      ReadsBack toml agh listDir dbPath userRulesPath →
      ∃ migration, convert readYaml toml yaml listDir dbPath userRulesPath = .ok migration := by
  intro claim
  obtain ⟨migration, migrated⟩ := claim
    (fun _ => .ok (household "http://lists.example/ads.txt".toList))
    (tomlOf (householdConfig "http://lists.example/ads.txt".toList)) _ []
    "/var/lib/sumidero/lists".toList "/var/lib/sumidero/sumidero.sqlite".toList
    "/etc/sumidero/user-rules.txt".toList (by decide) (by decide) (by decide) (tomlOf_knows _) rfl
    (household_checks _) (household_readsBack _ _)
  obtain ⟨bind, bound, _, _⟩ := bindHosts_ok (household_checks
    "http://lists.example/ads.txt".toList).hosts
  have refused : ¬ Valid (householdConfig "http://lists.example/ads.txt".toList) := by
    intro valid
    have sourced := valid.sourced _ List.mem_cons_self
    exact absurd (sourced.2.1 _ rfl) (by decide)
  rw [convert_checked rfl (household_checks _) bound] at migrated
  split at migrated
  · next loaded passed => exact refused ((fromToml_ok rfl).mp ⟨loaded, passed⟩).2
  · contradiction

end Sumidero.Cli
