import Sumidero.Lists.Offline

namespace Sumidero.Cli

open Text Data Program Sumidero.Filter Sumidero.Lists

/-! `sumidero explain`: one name against the lists on disk, and whether the daemon's heartbeat
shows the same ones. -/

/-- Enough of a DNS name that `no-match` says something about it. -/
def plausibleDomain (domain : Str) : Bool :=
  !domain.isEmpty && len domain ≤ 254 &&
    domain.all fun c => isAsciiAlphanumeric c || c = '-' || c = '_' || c = '.' || c = '*'

inductive Refusal where
  | notDomain (domain : Str)
  | lists (err : ListError)
deriving Repr, DecidableEq

def Refusal.exitCode : Refusal → Nat
  | .notDomain _ => 2
  | .lists _ => 1

/-- The payload, the text for people and the exit code. -/
structure Explanation where
  domain : Str
  verdict : Str
  rule : Option Str
  list : Option Str
  listsHash : Str
  daemonListsHash : Option Str
  hashMatch : Option Bool
  warning : Option Str
  human : Str
  exitCode : Nat
deriving Repr, DecidableEq

def staleWarning : Str :=
  ("list hash differs from the daemon's heartbeat: the daemon may be " ++
    "filtering with a different rule set than this verdict").toList

def verdictStr : Verdict → Str
  | .NoMatch => "no-match".toList
  | .Block _ _ => "blocked".toList
  | .Except _ _ => "excepted".toList

def verdictCode : Verdict → Nat
  | .NoMatch => 0
  | .Block _ _ => 3
  | .Except _ _ => 4

/-- `loaded.names[l]`, out of bounds is `none`. -/
def nameOf (names : List Str) : Option (Nat × MatchedRule) → Option (Option Str)
  | none => some none
  | some (list, _) => (names[list]?).map some

def humanText (domain verdict : Str) (rule list warning : Option Str) : Str :=
  let text := match rule, list with
    | some rule, some list =>
        domain ++ ": ".toList ++ verdict ++ " by `".toList ++ rule ++ "` (list ".toList ++ list ++
          ")".toList
    | _, _ => domain ++ ": ".toList ++ verdict
  match warning with
  | some warning => text ++ "\nwarning: ".toList ++ warning
  | none => text

def explanation (loaded : LoadedLists) (daemonHash : Option Str) (domain : Str) :
    Option Explanation := do
  let hashMatch := daemonHash.map fun hash => decide (hash = loaded.hash)
  let warning := match hashMatch with
    | some true | none => none
    | some false => some staleWarning
  let verdict ← loaded.engine.verdict domain
  let list ← nameOf loaded.names verdict.reported
  let rule := verdict.reported.map fun reported => reported.2.text
  return {
    domain
    verdict := verdictStr verdict
    rule
    list
    listsHash := loaded.hash
    daemonListsHash := daemonHash
    hashMatch
    warning
    human := humanText domain (verdictStr verdict) rule list warning
    exitCode := verdictCode verdict }

/-- `run`, once the config is loaded; `daemonHash` is what the heartbeat row shows, if it can
be read. -/
def explain (sort : UnstableSort) (sha256 : List UInt8 → List UInt8) (config : Config)
    (daemonHash : Option Str) (domain : Str) : Load (Except Refusal (Option Explanation)) :=
  if !plausibleDomain domain then return .error (.notDomain domain)
  else do
    match ← load sort sha256 config.effectiveLists config.filtering.listDir false with
    | .error err => return .error (.lists err)
    | .ok loaded => return .ok (loaded.bind fun loaded => explanation loaded daemonHash domain)

section Names

variable {sort : UnstableSort} {texts : List Str} {engine : Engine} {query : Str}
  {verdict : Verdict}

/-- The list a verdict reports is one of the lists loaded. -/
theorem reported_list (loaded : EngineBuilder.load sort texts = some engine)
    (decided : engine.verdict query = some verdict) {list : Nat} {rule : MatchedRule}
    (reported : verdict.reported = some (list, rule)) : list < texts.length := by
  have compiled := load_compiled loaded
  rcases verdict_reports decided with ⟨_, rfl⟩ | ⟨_, id, reports⟩
  · cases reported
  · have entry := reports.list compiled.store
    rw [reported] at entry
    obtain ⟨id, _, same⟩ := Option.bind_eq_some_iff.mp entry.symm
    obtain ⟨added, present, rfl⟩ := Option.map_eq_some_iff.mp same
    obtain ⟨text, found, _⟩ := mem_addedRules.mp (List.mem_of_getElem? present)
    exact (List.getElem?_eq_some_iff.mp found).1

end Names

section Agreement

variable {sort : UnstableSort} {sha256 : List UInt8 → List UInt8}

theorem addAll_names {acquired : List (Str × Acquired)} {loading final : Loading}
    (added : loading.addAll acquired = some final) :
    final.names = loading.names ++ acquired.map Prod.fst := by
  induction acquired generalizing loading with
  | nil =>
      cases added
      simp
  | cons list rest ih =>
      rw [Loading.addAll, List.foldlM_cons] at added
      obtain ⟨next, more, added⟩ := Option.bind_eq_some_iff.mp added
      obtain ⟨builder, _, same⟩ := Option.bind_eq_some_iff.mp more
      cases same
      rw [ih added, List.map_cons, List.append_assoc, List.singleton_append]

/-- A load is named after its sources, and every list its engine reports is one of them. -/
theorem load_names {sources : List Config.ListSource} {listDir : Str} {online : Bool}
    {world after : World} {admits : World → (op : Lists.Op) → Lists.Reply op → Prop}
    {loaded : LoadedLists}
    (loads : Returns effect admits world (load sort sha256 sources listDir online) after
      (.ok (some loaded))) :
    loaded.names = sources.map (·.name) ∧
      (∀ query, ∃ verdict, loaded.engine.verdict query = some verdict) ∧
      ∀ query verdict list rule, loaded.engine.verdict query = some verdict →
        verdict.reported = some (list, rule) → list < sources.length := by
  obtain ⟨acquired, names, done⟩ := kind_of_returns (load_yields sources listDir online) loads
    loaded rfl
  have built := (loadAll_parts done).1
  have counted : (texts acquired).length = sources.length := by
    have lengths := congrArg List.length names
    simpa [texts] using lengths
  refine ⟨?_, fun query => verdict_total (load_compiled built) query, ?_⟩
  · simp only [loadAll] at done
    obtain ⟨final, added, finished⟩ := Option.bind_eq_some_iff.mp done
    obtain ⟨engine, _, same⟩ := Option.bind_eq_some_iff.mp finished
    cases same
    rw [addAll_names added, ← names]
    rfl
  · intro query verdict list rule decided reported
    rw [← counted]
    exact reported_list built decided reported

theorem explanation_rebuilt {loaded again : LoadedLists} (rebuilt : loaded.Rebuilt again)
    (daemonHash : Option Str) (domain : Str) :
    explanation again daemonHash domain = explanation loaded daemonHash domain := by
  simp only [explanation, rebuilt.engine, rebuilt.names, rebuilt.hash]

/-- On the disk a completed load left, a name is explained by the engine of that load. -/
theorem explains_loaded {config : Config}
    (apart : Apart config.filtering.listDir config.effectiveLists) {world after last : World}
    {loaded : LoadedLists}
    (loads : Returns effect Working world
      (load sort sha256 config.effectiveLists config.filtering.listDir true) after
      (.ok (some loaded)))
    {daemonHash : Option Str} {domain : Str} {result : Except Refusal (Option Explanation)}
    (wellNamed : plausibleDomain domain = true)
    (runs : Returns effect Working after (explain sort sha256 config daemonHash domain) last
      result) :
    last = after ∧ result = .ok (explanation loaded daemonHash domain) := by
  obtain ⟨acquired, final, added, finished, found⟩ :=
    post_of_returns (working_load apart) loads loaded rfl
  have ensured : Ensures effect (.considering Working)
      (fun last result => last = after ∧ result = .ok (explanation loaded daemonHash domain))
      (explain sort sha256 config daemonHash domain) after := by
    simp only [explain, wellNamed]
    apply ensures_bind
    apply ensures_mono _ (offline_load found added finished)
    intro middle result both
    obtain ⟨rfl, again, rfl, rebuilt⟩ := both
    refine ⟨rfl, ?_⟩
    rw [Option.bind_some, explanation_rebuilt rebuilt]
  have both := post_of_returns ensured runs
  exact both

theorem warns_iff (daemonHash : Option Str) (hash : Str) :
    (match daemonHash.map fun shown => decide (shown = hash) with
      | some true | none => none
      | some false => some staleWarning) ≠ none ↔
      ∃ shown, daemonHash = some shown ∧ shown ≠ hash := by
  cases daemonHash with
  | none => simp
  | some shown =>
      by_cases same : shown = hash
      · simp [same]
      · simp [same]

end Agreement

/-- On the disk a completed load left, `explain` gives a plausible name the verdict of the
engine that load built, by the same rule and under the name of the same list, and warns exactly
if the heartbeat shows another hash than that load's. -/
theorem explain_agrees {sort : UnstableSort} {sha256 : List UInt8 → List UInt8} {config : Config}
    (apart : Apart config.filtering.listDir config.effectiveLists) {world after : World}
    {loaded : LoadedLists}
    (loads : Returns effect Working world
      (load sort sha256 config.effectiveLists config.filtering.listDir true) after
      (.ok (some loaded)))
    (daemonHash : Option Str) {domain : Str} (wellNamed : plausibleDomain domain = true) :
    ∃ verdict explained, loaded.engine.verdict domain = some verdict ∧
      explained.verdict = verdictStr verdict ∧ explained.exitCode = verdictCode verdict ∧
      explained.rule = verdict.reported.map (fun reported => reported.2.text) ∧
      (∀ list rule, verdict.reported = some (list, rule) → ∃ source,
        config.effectiveLists[list]? = some source ∧ explained.list = some source.name) ∧
      (explained.warning ≠ none ↔ ∃ hash, daemonHash = some hash ∧ hash ≠ loaded.hash) ∧
      Returns effect Working after (explain sort sha256 config daemonHash domain) after
        (.ok (some explained)) ∧
      ∀ last result, Returns effect Working after (explain sort sha256 config daemonHash domain)
        last result → last = after ∧ result = .ok (some explained) := by
  obtain ⟨names, decides, inside⟩ := load_names loads
  obtain ⟨verdict, decided⟩ := decides domain
  have listed : ∃ name, nameOf loaded.names verdict.reported = some name ∧
      ∀ list rule, verdict.reported = some (list, rule) → ∃ source,
        config.effectiveLists[list]? = some source ∧ name = some source.name := by
    cases reported : verdict.reported with
    | none => exact ⟨none, rfl, fun _ _ same => nomatch same⟩
    | some found =>
        have bound := inside domain verdict found.1 found.2 decided reported
        have present : config.effectiveLists[found.1]? = some config.effectiveLists[found.1] :=
          List.getElem?_eq_getElem bound
        refine ⟨some config.effectiveLists[found.1].name, ?_, ?_⟩
        · rw [nameOf, names, List.getElem?_map, present]
          rfl
        · intro list rule same
          cases same
          exact ⟨_, present, rfl⟩
  obtain ⟨name, named, sources⟩ := listed
  have explained : ∃ explained, explanation loaded daemonHash domain = some explained ∧
      explained.verdict = verdictStr verdict ∧ explained.exitCode = verdictCode verdict ∧
      explained.rule = verdict.reported.map (fun reported => reported.2.text) ∧
      explained.list = name ∧
      (explained.warning ≠ none ↔ ∃ hash, daemonHash = some hash ∧ hash ≠ loaded.hash) := by
    simp only [explanation, decided, named, Option.bind_eq_bind, Option.bind_some, Option.pure_def]
    exact ⟨_, rfl, rfl, rfl, rfl, rfl, warns_iff daemonHash loaded.hash⟩
  obtain ⟨explained, given, verdict_of, code, rule, list, warning⟩ := explained
  have every : ∀ last result, Returns effect Working after
      (explain sort sha256 config daemonHash domain) last result →
        last = after ∧ result = .ok (some explained) := by
    intro last result runs
    rw [← given]
    exact explains_loaded apart loads wellNamed runs
  obtain ⟨last, result, runs⟩ :=
    returns_some working_replies (explain sort sha256 config daemonHash domain) after
  obtain ⟨rfl, rfl⟩ := every last result runs
  refine ⟨verdict, explained, decided, verdict_of, code, rule, ?_, warning, runs, every⟩
  intro found matched reported
  rw [list]
  exact sources found matched reported

section Samples

/-- A configuration of these two lists and no profile. -/
def twoLists : Config where
  server := { bind := ["127.0.0.1:53".toList], allow := ["127.0.0.0/8".toList] }
  filtering := {
    profile := none
    lists := fetchedAndLocal
    listDir := "/var/lib/sumidero".toList }
  upstreams := {
    servers := ["https://9.9.9.9/dns-query".toList]
    bootstrap := ["9.9.9.9".toList]
    timeoutMs := 2000 }
  database := { path := "/var/lib/sumidero/sumidero.db".toList }
  safeSearch := { enabled := false, providers := [] }
  tls := { extraRoots := [] }
  cache := { maxEntries := 16384, serveStaleSecs := 43200 }

/-- The heartbeat still shows an older hash: the name is explained, with a warning. -/
theorem explain_agrees_stale : ∃ after loaded verdict explained,
    Returns effect Working firstStart
      (load .insertion id twoLists.effectiveLists twoLists.filtering.listDir true) after
      (.ok (some loaded)) ∧
    loaded.engine.verdict "x.ads.com".toList = some verdict ∧
    Returns effect Working after
      (explain .insertion id twoLists (some "00".toList) "x.ads.com".toList) after
      (.ok (some explained)) ∧
    explained.exitCode = verdictCode verdict ∧ explained.warning ≠ none := by
  obtain ⟨after, loaded, loads, _, hash⟩ := first_load
  obtain ⟨verdict, explained, decided, _, code, _, _, warning, runs, _⟩ :=
    explain_agrees (by decide : Apart twoLists.filtering.listDir twoLists.effectiveLists) loads
      (some "00".toList) (by decide : plausibleDomain "x.ads.com".toList = true)
  refine ⟨after, loaded, verdict, explained, loads, decided, runs, code, warning.mpr ?_⟩
  refine ⟨_, rfl, ?_⟩
  rw [hash]
  decide

end Samples

end Sumidero.Cli
