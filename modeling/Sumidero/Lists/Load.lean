import Sumidero.Filter.Searched
import Sumidero.Lists.Fetch

namespace Sumidero.Lists

open Text Data Program Sumidero.Filter
open Daemon (ListReport)

/-! Loading all lists: one engine, and one hash for the texts it was built from. -/

def hexEncode (bytes : List UInt8) : Str :=
  bytes.flatMap fun byte => [Nat.digitChar (byte.toNat / 16), Nat.digitChar (byte.toNat % 16)]

/-- A built engine plus provenance. -/
structure LoadedLists where
  engine : Engine
  names : List Str
  /-- SHA-256 (hex) of the lists' bytes, in order. -/
  hash : Str
  issues : List (Str × LineIssue)
  reports : List ListReport

/-- What `load` carries from list to list; `hashed` is what its hasher was fed. -/
structure Loading where
  builder : Engine
  names : List Str
  hashed : List UInt8
  issues : List (Str × LineIssue)
  reports : List ListReport

namespace Loading

def start : Loading where
  builder := Engine.empty
  names := []
  hashed := []
  issues := []
  reports := []

/-- Hash and compile one list; a compile task that panics is `none`. -/
def add (loading : Loading) (name : Str) (acquired : Acquired) : Option Loading := do
  let parsed := parseList acquired.text
  let builder ← EngineBuilder.addListText loading.builder acquired.text
  return {
    builder
    names := loading.names ++ [name]
    hashed := loading.hashed ++ asBytes acquired.text
    issues := loading.issues ++ parsed.issues.map fun issue => (name, issue)
    reports := loading.reports ++ [{
      name
      origin := acquired.origin
      rules := parsed.rules.length
      issues := parsed.issues.length
      verifiedAgeSecs := acquired.verifiedAgeSecs }] }

def addAll (loading : Loading) (acquired : List (Str × Acquired)) : Option Loading :=
  acquired.foldlM (fun (loading : Loading) list => loading.add list.1 list.2) loading

def finish (sort : UnstableSort) (sha256 : List UInt8 → List UInt8) (loading : Loading) :
    Option LoadedLists := do
  let engine ← loading.builder.finish sort
  return {
    engine
    names := loading.names
    hash := hexEncode (sha256 loading.hashed)
    issues := loading.issues
    reports := loading.reports }

end Loading

/-- One list at a time: acquire its text, compile it, drop it. -/
def loadEach (listDir : Str) (online : Bool) :
    List Config.ListSource → Loading → Load (Except ListError (Option Loading))
  | [], loading => return .ok (some loading)
  | source :: rest, loading => do
      match ← acquireList source listDir online with
      | .error err => return .error err
      | .ok acquired =>
          match loading.add source.name acquired with
          | some next => loadEach listDir online rest next
          | none => return .ok none

/-- `load`, once its directory has been found usable. -/
def load (sort : UnstableSort) (sha256 : List UInt8 → List UInt8)
    (sources : List Config.ListSource) (listDir : Str) (online : Bool) :
    Load (Except ListError (Option LoadedLists)) := do
  match ← loadEach listDir online sources .start with
  | .error err => return .error err
  | .ok loading => return .ok (loading.bind (Loading.finish sort sha256))

/-- What a load makes of the texts it has acquired. -/
def loadAll (sort : UnstableSort) (sha256 : List UInt8 → List UInt8)
    (acquired : List (Str × Acquired)) : Option LoadedLists := do
  let loading ← Loading.start.addAll acquired
  loading.finish sort sha256

def texts (acquired : List (Str × Acquired)) : List Str := acquired.map fun list => list.2.text

section Load

variable {sort : UnstableSort} {sha256 : List UInt8 → List UInt8}

/-- Every load is one of the texts it acquired, under the names of its sources. -/
theorem load_yields (sources : List Config.ListSource) (listDir : Str) (online : Bool) :
    Yields (fun result => ∀ loaded, result = .ok (some loaded) →
        ∃ acquired, acquired.map Prod.fst = sources.map (·.name) ∧
          loadAll sort sha256 acquired = some loaded)
      (load sort sha256 sources listDir online) := by
  have each : ∀ loading, Yields (fun result => ∀ final, result = .ok (some final) →
      ∃ acquired : List (Str × Acquired), acquired.map Prod.fst = sources.map (·.name) ∧
        loading.addAll acquired = some final)
      (loadEach listDir online sources loading) := by
    induction sources with
    | nil =>
        intro loading final same
        cases same
        exact ⟨[], rfl, rfl⟩
    | cons source rest ih =>
        intro loading
        apply yields_bind
        intro result
        cases result with
        | error err => exact fun _ same => nomatch same
        | ok acquired =>
            dsimp only
            cases more : loading.add source.name acquired with
            | none => exact fun _ same => nomatch same
            | some next =>
                apply yields_mono _ (ih next)
                intro result later final same
                obtain ⟨others, names, added⟩ := later final same
                refine ⟨(source.name, acquired) :: others, ?_, ?_⟩
                · rw [List.map_cons, List.map_cons, names]
                · rw [Loading.addAll, List.foldlM_cons, more]
                  exact added
  apply yields_bind_of (each .start)
  intro result later
  cases result with
  | error err => exact fun _ same => nomatch same
  | ok loading =>
      intro loaded same
      obtain ⟨final, found, finished⟩ := Option.bind_eq_some_iff.mp (Except.ok.inj same)
      subst found
      obtain ⟨acquired, names, added⟩ := later final rfl
      refine ⟨acquired, names, ?_⟩
      simp only [loadAll]
      rw [added]
      exact finished

/-- The engine built and the bytes hashed depend on the texts alone. -/
theorem addAll_parts (acquired : List (Str × Acquired)) (loading : Loading) :
    (loading.addAll acquired).map (fun final => (final.builder, final.hashed)) =
      ((texts acquired).foldlM EngineBuilder.addListText loading.builder).map
        fun builder => (builder, loading.hashed ++ asBytes (texts acquired).flatten) := by
  induction acquired generalizing loading with
  | nil => simp [texts, Loading.addAll]
  | cons list rest ih =>
      have split : texts (list :: rest) = list.2.text :: texts rest := rfl
      rw [split, Loading.addAll, List.foldlM_cons, List.foldlM_cons, List.flatten_cons,
        asBytes_append]
      cases built : EngineBuilder.addListText loading.builder list.2.text with
      | none =>
          have stuck : loading.add list.1 list.2 = none := by
            simp only [Loading.add]
            rw [built]
            rfl
          rw [stuck]
          rfl
      | some builder =>
          have added : ∃ next, loading.add list.1 list.2 = some next ∧ next.builder = builder ∧
              next.hashed = loading.hashed ++ asBytes list.2.text := by
            simp only [Loading.add]
            rw [built]
            exact ⟨_, rfl, rfl, rfl⟩
          obtain ⟨next, more, rfl, hashed⟩ := added
          have later := ih next
          rw [hashed, List.append_assoc] at later
          rw [more]
          exact later

variable {acquired : List (Str × Acquired)} {loaded : LoadedLists} {engine : Engine}

theorem loadAll_parts (done : loadAll sort sha256 acquired = some loaded) :
    EngineBuilder.load sort (texts acquired) = some loaded.engine ∧
      loaded.hash = hexEncode (sha256 (asBytes (texts acquired).flatten)) := by
  simp only [loadAll] at done
  obtain ⟨final, added, done⟩ := Option.bind_eq_some_iff.mp done
  obtain ⟨engine, finished, same⟩ := Option.bind_eq_some_iff.mp done
  cases same
  have parts := addAll_parts acquired .start
  rw [added] at parts
  obtain ⟨builder, built, same⟩ := Option.map_eq_some_iff.mp parts.symm
  obtain ⟨rfl, hashed⟩ := Prod.mk.inj same
  refine ⟨?_, by rw [← hashed]; rfl⟩
  simp only [EngineBuilder.load]
  rw [show Engine.empty = Loading.start.builder from rfl, built]
  exact finished

theorem loadAll_of_load (built : EngineBuilder.load sort (texts acquired) = some engine) :
    ∃ loaded, loadAll sort sha256 acquired = some loaded ∧ loaded.engine = engine := by
  simp only [EngineBuilder.load] at built
  obtain ⟨builder, added, finished⟩ := Option.bind_eq_some_iff.mp built
  have parts := addAll_parts acquired .start
  rw [show Loading.start.builder = Engine.empty from rfl, added] at parts
  obtain ⟨final, run, same⟩ := Option.map_eq_some_iff.mp parts
  obtain ⟨rfl, _⟩ := Prod.mk.inj same
  simp only [loadAll, Loading.finish]
  rw [run]
  simp only [Option.bind_eq_bind, Option.bind_some, finished]
  exact ⟨_, rfl, rfl⟩

end Load

/-! ### What the hash says -/

theorem digitChar_inj : ∀ first < 16, ∀ second < 16,
    Nat.digitChar first = Nat.digitChar second → first = second := by decide

theorem hexEncode_injective : Function.Injective hexEncode := by
  intro first second same
  induction first generalizing second with
  | nil =>
      cases second with
      | nil => rfl
      | cons byte rest => cases same
  | cons byte rest ih =>
      cases second with
      | nil => cases same
      | cons other others =>
          simp only [hexEncode, List.flatMap_cons, List.cons_append, List.nil_append,
            List.cons.injEq] at same
          obtain ⟨high, low, tail⟩ := same
          have fits := byte.toNat_lt
          have otherFits := other.toNat_lt
          have quotient := digitChar_inj _ (by omega) _ (by omega) high
          have remainder := digitChar_inj _ (by omega) _ (by omega) low
          rw [ih tail, UInt8.toNat.inj (show byte.toNat = other.toNat by omega)]

/-- Two loads give every name a verdict of the same kind that reports the same list. -/
def FilterAlike (first second : LoadedLists) : Prop :=
  ∀ query, ∃ verdict other, first.engine.verdict query = some verdict ∧
    second.engine.verdict query = some other ∧ verdict.decision = other.decision

/-- List by list, the texts hold rules that mean the same, in the same order. -/
def SameRules (first second : List Str) : Prop :=
  (addedRules first).map (fun entry => (entry.list, entry.rule.meaning)) =
    (addedRules second).map fun entry => (entry.list, entry.rule.meaning)

section Hash

variable {sort : UnstableSort} {sha256 : List UInt8 → List UInt8}
  {first second : List (Str × Acquired)} {loaded other : LoadedLists}

/-- Equal hashes: the texts, run together, are the same. -/
theorem hash_eq_iff (injective : Function.Injective sha256)
    (done : loadAll sort sha256 first = some loaded)
    (alsoDone : loadAll sort sha256 second = some other) :
    loaded.hash = other.hash ↔ (texts first).flatten = (texts second).flatten := by
  rw [(loadAll_parts done).2, (loadAll_parts alsoDone).2, hexEncode_injective.eq_iff,
    injective.eq_iff, asBytes_injective.eq_iff]

theorem filterAlike_of_sameRules (done : loadAll sort sha256 first = some loaded)
    (alsoDone : loadAll sort sha256 second = some other)
    (same : SameRules (texts first) (texts second)) : FilterAlike loaded other := by
  have meanings : (parsedRules (texts first)).map Rule.meaning =
      (parsedRules (texts second)).map Rule.meaning := by
    have second := congrArg (List.map Prod.snd) same
    rw [List.map_map, List.map_map] at second
    rw [← map_addedRules, ← map_addedRules, List.map_map, List.map_map]
    exact second
  have lists : (addedRules (texts first)).map Added.list =
      (addedRules (texts second)).map Added.list := by
    have first := congrArg (List.map Prod.fst) same
    rw [List.map_map, List.map_map] at first
    exact first
  intro query
  obtain ⟨verdict, otherVerdict, decided, otherDecided, id, first, second⟩ :=
    alike_verdicts (loadAll_parts done).1 (loadAll_parts alsoDone).1 meanings query
  refine ⟨verdict, otherVerdict, decided, otherDecided, ?_⟩
  rw [first, second]
  cases id with
  | none => rfl
  | some id =>
      simp only [listOf, Option.bind_some]
      rw [← List.getElem?_map, ← List.getElem?_map, lists]

end Hash

/-- A list without a rule in front of the others. -/
def behindEmpty (acquired : List (Str × Acquired)) : List (Str × Acquired) :=
  ("empty".toList, { text := [], origin := .localFile, verifiedAgeSecs := none }) :: acquired

section Shift

variable {sort : UnstableSort} {sha256 : List UInt8 → List UInt8}
  {first : List (Str × Acquired)} {loaded : LoadedLists}

/-- Every other list moves up by one. -/
theorem addedRules_behindEmpty (lists : List Str) :
    addedRules ([] :: lists) =
      (addedRules lists).map fun entry => Added.mk (entry.list + 1) entry.rule := by
  have none : (parseList []).rules = [] := rfl
  simp only [addedRules]
  rw [List.zipIdx_cons, List.flatMap_cons, none, List.map_nil, List.nil_append, List.zipIdx_succ,
    List.flatMap_map, List.map_flatMap]
  simp only [List.map_map, Function.comp_def]

theorem parsedRules_behindEmpty (lists : List Str) :
    parsedRules ([] :: lists) = parsedRules lists := by
  rw [← map_addedRules, addedRules_behindEmpty, List.map_map, ← map_addedRules]
  rfl

theorem listOf_behindEmpty (lists : List Str) (id : Option Nat) :
    listOf (addedRules ([] :: lists)) id = (listOf (addedRules lists) id).map (· + 1) := by
  cases id with
  | none => rfl
  | some id =>
      simp only [listOf, Option.bind_some, addedRules_behindEmpty, List.getElem?_map,
        Option.map_map]
      rfl

theorem limits_behindEmpty {lists : List Str} (limits : Limits (addedRules lists)) :
    Limits (addedRules ([] :: lists)) := by
  have same : ∀ {α : Type} (collect : Rule → Nat → Option α),
      collected collect (addedRules ([] :: lists)) = collected collect (addedRules lists) := by
    intro α collect
    simp only [collected]
    rw [addedRules_behindEmpty, List.zipIdx_map, List.filterMap_map]
    rfl
  have kept : verbatimBytes (addedRules ([] :: lists)) = verbatimBytes (addedRules lists) := by
    simp only [verbatimBytes]
    rw [addedRules_behindEmpty, List.map_map]
    rfl
  refine ⟨?_, ?_, ?_, ?_⟩
  · rw [addedRules_behindEmpty, List.length_map]
    exact limits.rules
  · rw [exactEntries, same]
    exact limits.exact
  · rw [subtreeEntries, same]
    exact limits.subtree
  · rw [kept]
    exact limits.verbatim

/-- Within the limits of an engine, a load that blocks or excepts a name has another of the
same hash that reports another list. -/
theorem hash_blind (done : loadAll sort sha256 first = some loaded)
    (limits : Limits (addedRules (texts first))) (room : first.length < 65536) {query : Str}
    {verdict : Verdict} (decided : loaded.engine.verdict query = some verdict)
    (matched : verdict ≠ .NoMatch) :
    ∃ other, loadAll sort sha256 (behindEmpty first) = some other ∧ loaded.hash = other.hash ∧
      ¬ FilterAlike loaded other := by
  have behind : texts (behindEmpty first) = [] :: texts first := rfl
  have few : (texts (behindEmpty first)).length ≤ 65536 := by
    rw [behind, List.length_cons, texts, List.length_map]
    omega
  obtain ⟨engine, built⟩ := load_total sort few (limits_behindEmpty limits)
  have reload : ∃ other, loadAll sort sha256 (behindEmpty first) = some other ∧
      other.engine = engine := loadAll_of_load built
  obtain ⟨other, alsoDone, rfl⟩ := reload
  have meanings : (parsedRules (texts first)).map Rule.meaning =
      (parsedRules (texts (behindEmpty first))).map Rule.meaning := by
    rw [behind, parsedRules_behindEmpty]
  refine ⟨other, alsoDone, ?_, fun alike => ?_⟩
  · rw [(loadAll_parts done).2, (loadAll_parts alsoDone).2, behind, List.flatten_cons,
      List.nil_append]
  · obtain ⟨found, shifted, sameFound, sameShifted, equal⟩ := alike query
    obtain ⟨again, shiftedAgain, foundAgain, otherFound, id, here, there⟩ :=
      alike_verdicts (loadAll_parts done).1 built meanings query
    rw [decided] at sameFound foundAgain
    cases sameFound
    cases foundAgain
    rw [otherFound] at sameShifted
    cases sameShifted
    obtain ⟨list, named⟩ : ∃ list, verdict.reported.map Prod.fst = some list := by
      cases verdict with
      | NoMatch => exact absurd rfl matched
      | Block list rule => exact ⟨list, rfl⟩
      | Except list rule => exact ⟨list, rfl⟩
    have reports : listOf (addedRules (texts first)) id = some list :=
      (congrArg Prod.snd here).symm.trans named
    have above : some list = some (list + 1) := by
      have lists := congrArg Prod.snd (here.symm.trans (equal.trans there))
      rw [behind, listOf_behindEmpty, reports] at lists
      exact lists
    simp at above

end Shift

/-- Two loads have equal hashes exactly if their texts, run together, are the same; they filter
alike if the rules, list by list, mean the same.  The hash alone does not say so: every load
that decides a name has another one of its hash that does not filter alike. -/
theorem hash_filters_alike {sort : UnstableSort} {sha256 : List UInt8 → List UInt8}
    (injective : Function.Injective sha256) {first : List (Str × Acquired)} {loaded : LoadedLists}
    (done : loadAll sort sha256 first = some loaded) :
    (∀ second other, loadAll sort sha256 second = some other →
      (loaded.hash = other.hash ↔ (texts first).flatten = (texts second).flatten) ∧
        (loaded.hash = other.hash → SameRules (texts first) (texts second) →
          FilterAlike loaded other)) ∧
      (Limits (addedRules (texts first)) → first.length < 65536 → ∀ query verdict,
        loaded.engine.verdict query = some verdict → verdict ≠ .NoMatch →
          ∃ second other, loadAll sort sha256 second = some other ∧ loaded.hash = other.hash ∧
            ¬ FilterAlike loaded other) := by
  refine ⟨fun second other alsoDone => ⟨hash_eq_iff injective done alsoDone, ?_⟩, ?_⟩
  · exact fun _ same => filterAlike_of_sameRules done alsoDone same
  · intro limits room query verdict decided matched
    obtain ⟨other, blind⟩ := hash_blind done limits room decided matched
    exact ⟨behindEmpty first, other, blind⟩

section Samples

def localText (name text : String) : Str × Acquired :=
  (name.toList, { text := text.toList, origin := .localFile, verifiedAgeSecs := none })

def cutLate : List (Str × Acquired) :=
  [localText "ads" "||ads.com^\n! end\n", localText "more" "||t.net^\n"]

/-- The same text with the comment in the second list. -/
def cutEarly : List (Str × Acquired) :=
  [localText "ads" "||ads.com^\n", localText "more" "! end\n||t.net^\n"]

/-- A hash of which one value is known. -/
def knownDigest (text : Str) (digest bytes : List UInt8) : List UInt8 :=
  if bytes = asBytes text then digest else bytes ++ List.replicate (digest.length + 1) 0

theorem knownDigest_injective (text : Str) (digest : List UInt8) :
    Function.Injective (knownDigest text digest) := by
  intro first second same
  simp only [knownDigest] at same
  split at same
  · next here =>
    split at same
    · next there => rw [here, there]
    · have sizes := congrArg List.length same
      simp only [List.length_append, List.length_replicate] at sizes
      omega
  · split at same
    · have sizes := congrArg List.length same
      simp only [List.length_append, List.length_replicate] at sizes
      omega
    · exact List.append_cancel_right same

/-- SHA-256, as far as the text of both is concerned. -/
def cutDigest : List UInt8 → List UInt8 :=
  knownDigest (texts cutLate).flatten
    [0x09, 0x56, 0x74, 0x30, 0xfe, 0x9c, 0xae, 0x7d, 0x55, 0x9e, 0xce, 0xa6, 0x46, 0x11, 0x10, 0xd9,
    0xd5, 0x15, 0xc7, 0xca, 0x69, 0xee, 0xe2, 0x86, 0xf5, 0x89, 0xba, 0xea, 0x69, 0xab, 0xbb, 0x07]

theorem loadAll_sample {sha256 : List UInt8 → List UInt8} {acquired : List (Str × Acquired)}
    {query : Str} {decision : Kind × Option Nat}
    (decided : ((EngineBuilder.load .insertion (texts acquired)).bind
      fun engine => (engine.verdict query).map Verdict.decision) = some decision) :
    ∃ loaded verdict, loadAll .insertion sha256 acquired = some loaded ∧
      loaded.engine.verdict query = some verdict ∧ verdict.decision = decision := by
  obtain ⟨engine, built, decided⟩ := Option.bind_eq_some_iff.mp decided
  obtain ⟨verdict, found, same⟩ := Option.map_eq_some_iff.mp decided
  have load : ∃ loaded, loadAll .insertion sha256 acquired = some loaded ∧
      loaded.engine = engine := loadAll_of_load built
  obtain ⟨loaded, done, rfl⟩ := load
  exact ⟨loaded, verdict, done, found, same⟩

theorem recut_filters_alike :
    ∃ loaded other, loadAll .insertion cutDigest cutLate = some loaded ∧
      loadAll .insertion cutDigest cutEarly = some other ∧ loaded.hash = other.hash ∧
      FilterAlike loaded other ∧
      ∃ second third, loadAll .insertion cutDigest second = some third ∧
        loaded.hash = third.hash ∧ ¬ FilterAlike loaded third := by
  obtain ⟨loaded, verdict, done, decided, kind⟩ := @loadAll_sample cutDigest cutLate
    "ads.com".toList (.Block, some 0) (by decide +kernel)
  obtain ⟨other, _, alsoDone, _⟩ := @loadAll_sample cutDigest cutEarly
    "ads.com".toList (.Block, some 0) (by decide +kernel)
  obtain ⟨pairs, blind⟩ := hash_filters_alike (knownDigest_injective _ _) done
  obtain ⟨hash, alike⟩ := pairs cutEarly other alsoDone
  have equal := hash.mpr rfl
  refine ⟨loaded, other, done, alsoDone, equal, alike equal (by unfold SameRules; decide), ?_⟩
  refine blind ⟨by decide, by decide, by decide, by decide⟩ (by decide) _ verdict decided ?_
  intro same
  rw [same] at kind
  cases kind

/-- A list that ends without a newline, and the next one. -/
def unended : List (Str × Acquired) := [localText "ads" "||ads.com", localText "more" ".au^\n"]

def joined : List (Str × Acquired) := [localText "ads" "", localText "more" "||ads.com.au^\n"]

def joinedDigest : List UInt8 → List UInt8 :=
  knownDigest (texts joined).flatten
    [0xae, 0xfd, 0x69, 0x2e, 0xf8, 0xf9, 0x0c, 0xd1, 0x3f, 0xc6, 0xc3, 0x8f, 0x50, 0x40, 0x8a, 0x84,
    0x86, 0x72, 0xca, 0xea, 0x4d, 0xad, 0x28, 0x67, 0x4e, 0xab, 0xd9, 0x09, 0x2d, 0x50, 0x84, 0xa1]

/-- The two have one hash; one blocks `ads.com`, the other does not. -/
theorem equal_hash_other_verdict :
    Function.Injective joinedDigest ∧
      ∃ loaded other, loadAll .insertion joinedDigest unended = some loaded ∧
        loadAll .insertion joinedDigest joined = some other ∧ loaded.hash = other.hash ∧
        (loaded.engine.verdict "ads.com".toList).map Verdict.decision = some (.Block, some 0) ∧
        (other.engine.verdict "ads.com".toList).map Verdict.decision = some (.NoMatch, none) := by
  obtain ⟨loaded, verdict, done, decided, kind⟩ := @loadAll_sample joinedDigest unended
    "ads.com".toList (.Block, some 0) (by decide +kernel)
  obtain ⟨other, otherVerdict, alsoDone, otherDecided, otherKind⟩ := @loadAll_sample joinedDigest
    joined "ads.com".toList (.NoMatch, none) (by decide +kernel)
  refine ⟨knownDigest_injective _ _, loaded, other, done, alsoDone, ?_, ?_, ?_⟩
  · rw [(loadAll_parts done).2, (loadAll_parts alsoDone).2]
    rfl
  · rw [decided, Option.map_some, kind]
  · rw [otherDecided, Option.map_some, otherKind]

end Samples

end Sumidero.Lists
