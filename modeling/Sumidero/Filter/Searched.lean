import Sumidero.Filter.Total

namespace Sumidero.Filter

open Text Engine

/-! What a verdict depends on: the keys, the wildcards and the actions of the rules in the
order they were added, and neither their texts nor the lists they came from. -/

/-- What a rule does, whatever line it was read from. -/
def Rule.meaning (rule : Rule) : RuleAction × Pattern := (rule.action, rule.pattern)

/-- The part of an engine that is searched. -/
structure Searched where
  rules : Nat
  subtree : KeyIndex
  exact : KeyIndex
  wildcards : List WildcardEntry
  buckets : Str → Option (List Nat)
  unanchored : List Nat

def Engine.searched (engine : Engine) : Searched where
  rules := engine.store.lines.length
  subtree := engine.subtree
  exact := engine.exact
  wildcards := engine.wildcards
  buckets := engine.wildcardBuckets
  unanchored := engine.wildcardUnanchored

namespace Searched

/-- The searched part of an engine with one more rule. -/
def add (searched : Searched) : Pattern → Option Searched
  | .Subtree domain => do
      let key ← reverseLabelsInto (asBytes domain)
      let subtree ← searched.subtree.insert key searched.rules
      return { searched with rules := searched.rules + 1, subtree }
  | .Exact domain => do
      let exact ← searched.exact.insert (asBytes domain) searched.rules
      return { searched with rules := searched.rules + 1, exact }
  | .Wildcard expr includeSubdomains =>
      let idx := searched.wildcards.length
      let more : Searched := { searched with
        rules := searched.rules + 1
        wildcards := searched.wildcards ++
          [{ expr := expr, includeSubdomains := includeSubdomains, rule := searched.rules }] }
      match wildcardAnchor expr with
      | some anchor =>
          let bucket := (searched.buckets anchor).getD []
          some { more with
            buckets := Function.update searched.buckets anchor (some (bucket ++ [idx])) }
      | none => some { more with unanchored := searched.unanchored ++ [idx] }

end Searched

/-! ### Loading -/

section Add

variable {engine after : Engine} {store pushed : Store} {list line id form : Nat} {except : Bool}
  {rule : Rule}

theorem push_lines (pushing : store.push list line except form = some (pushed, id)) :
    id = store.lines.length ∧ pushed.lines.length = store.lines.length + 1 := by
  obtain ⟨fresh, rfl⟩ := Store.push_eq pushing
  exact ⟨fresh, List.length_append⟩

theorem pushVerbatim_lines {text : Str} (pushing : store.pushVerbatim id text = some pushed) :
    pushed.lines = store.lines := by
  obtain ⟨_, _, rfl⟩ := Store.pushVerbatim_eq pushing
  rfl

theorem kept_lines {text : Str} {canonical : Prop} [Decidable canonical]
    (kept : (if canonical then some store else store.pushVerbatim id text) = some pushed) :
    pushed.lines = store.lines := by
  split at kept
  · cases kept
    rfl
  · exact pushVerbatim_lines kept

theorem addSubtree_searched {domain : Str}
    (done : engine.addSubtree list rule domain = some after) :
    engine.searched.add (.Subtree domain) = some after.searched := by
  simp only [addSubtree] at done
  obtain ⟨⟨pushed, id⟩, pushing, done⟩ := Option.bind_eq_some_iff.mp done
  obtain ⟨key, reversed, done⟩ := Option.bind_eq_some_iff.mp done
  obtain ⟨subtree, inserted, done⟩ := Option.bind_eq_some_iff.mp done
  obtain ⟨store, kept, done⟩ := Option.bind_eq_some_iff.mp done
  cases done
  obtain ⟨rfl, more⟩ := push_lines pushing
  simp only [Searched.add, searched, reversed, inserted, kept_lines kept, more,
    Option.bind_eq_bind, Option.bind_some, Option.pure_def]

theorem addExact_searched {domain : Str} (done : engine.addExact list rule domain = some after) :
    engine.searched.add (.Exact domain) = some after.searched := by
  simp only [addExact] at done
  obtain ⟨form, _, done⟩ := Option.bind_eq_some_iff.mp done
  obtain ⟨⟨pushed, id⟩, pushing, done⟩ := Option.bind_eq_some_iff.mp done
  obtain ⟨exact, inserted, done⟩ := Option.bind_eq_some_iff.mp done
  obtain ⟨store, kept, done⟩ := Option.bind_eq_some_iff.mp done
  cases done
  obtain ⟨rfl, more⟩ := push_lines pushing
  rw [← ite_not] at kept
  simp only [Searched.add, searched, inserted, kept_lines kept, more, Option.bind_eq_bind,
    Option.bind_some, Option.pure_def]

theorem addWildcard_searched {expr : Str} {includeSubdomains : Bool}
    (done : engine.addWildcard list rule expr includeSubdomains = some after) :
    engine.searched.add (.Wildcard expr includeSubdomains) = some after.searched := by
  simp only [addWildcard] at done
  obtain ⟨⟨pushed, id⟩, pushing, done⟩ := Option.bind_eq_some_iff.mp done
  obtain ⟨store, kept, done⟩ := Option.bind_eq_some_iff.mp done
  obtain ⟨idx, small, done⟩ := Option.bind_eq_some_iff.mp done
  obtain ⟨rfl, more⟩ := push_lines pushing
  have lines := pushVerbatim_lines kept
  have position : idx = engine.wildcards.length := by
    simp only [toU32] at small
    split at small
    · exact (Option.some.inj small).symm
    · cases small
  subst position
  cases anchor : wildcardAnchor expr with
  | some anchor =>
      simp only [anchor] at done
      cases done
      simp only [Searched.add, anchor, searched, lines, more]
  | none =>
      simp only [anchor] at done
      cases done
      simp only [Searched.add, anchor, searched, lines, more]

theorem addRule_searched (done : engine.addRule rule = some after) :
    engine.searched.add rule.pattern = some after.searched := by
  simp only [addRule] at done
  obtain ⟨list, _, done⟩ := Option.bind_eq_some_iff.mp done
  split at done
  · next pattern => exact pattern ▸ addSubtree_searched done
  · next pattern => exact pattern ▸ addExact_searched done
  · next pattern => exact pattern ▸ addWildcard_searched done

theorem addRules_searched {rules : List Rule} (done : rules.foldlM addRule engine = some after) :
    (rules.map Rule.pattern).foldlM Searched.add engine.searched = some after.searched := by
  induction rules generalizing engine with
  | nil =>
      cases done
      rfl
  | cons rule rest ih =>
      rw [List.foldlM_cons] at done
      obtain ⟨middle, first, done⟩ := Option.bind_eq_some_iff.mp done
      rw [List.map_cons, List.foldlM_cons, addRule_searched first]
      exact ih done

/-- Where one list ends and the next begins is nothing to the searched part. -/
theorem addListTexts_searched {texts : List Str}
    (done : texts.foldlM EngineBuilder.addListText engine = some after) :
    ((parsedRules texts).map Rule.pattern).foldlM Searched.add engine.searched =
      some after.searched := by
  induction texts generalizing engine with
  | nil =>
      cases done
      rfl
  | cons text rest ih =>
      rw [List.foldlM_cons] at done
      obtain ⟨middle, first, done⟩ := Option.bind_eq_some_iff.mp done
      have here := addRules_searched (addListText_rules first)
      have split : parsedRules (text :: rest) = (parseList text).rules ++ parsedRules rest :=
        List.flatMap_cons
      rw [split, List.map_append, List.foldlM_append]
      exact Option.bind_eq_some_iff.mpr ⟨middle.searched, here, ih done⟩

end Add

theorem finish_searched {sort : UnstableSort} {engine after : Engine}
    (finished : engine.finish sort = some after) :
    ∃ subtree exact, engine.subtree.finish sort = some subtree ∧
      engine.exact.finish sort = some exact ∧
      after.searched = { engine.searched with subtree, exact } := by
  obtain ⟨subtree, exact, subtreeDone, exactDone, rfl⟩ := finish_eq finished
  exact ⟨subtree, exact, subtreeDone, exactDone, rfl⟩

section Loads

variable {sort : UnstableSort} {texts others : List Str} {engine other : Engine}

theorem load_searched (loaded : EngineBuilder.load sort texts = some engine)
    (alsoLoaded : EngineBuilder.load sort others = some other)
    (same : (parsedRules texts).map Rule.meaning = (parsedRules others).map Rule.meaning) :
    engine.searched = other.searched := by
  have patterns : (parsedRules texts).map Rule.pattern = (parsedRules others).map Rule.pattern := by
    have second := congrArg (List.map Prod.snd) same
    rw [List.map_map, List.map_map] at second
    exact second
  simp only [EngineBuilder.load] at loaded alsoLoaded
  obtain ⟨built, lists, finished⟩ := Option.bind_eq_some_iff.mp loaded
  obtain ⟨otherBuilt, otherLists, otherFinished⟩ := Option.bind_eq_some_iff.mp alsoLoaded
  have first := addListTexts_searched lists
  rw [patterns, addListTexts_searched otherLists] at first
  have equal : otherBuilt.searched = built.searched := Option.some.inj first
  obtain ⟨subtree, exact, subtreeDone, exactDone, parts⟩ := finish_searched finished
  obtain ⟨otherSubtree, otherExact, otherSubtreeDone, otherExactDone, otherParts⟩ :=
    finish_searched otherFinished
  have subtrees : otherBuilt.subtree = built.subtree := congrArg Searched.subtree equal
  have exacts : otherBuilt.exact = built.exact := congrArg Searched.exact equal
  rw [subtrees, subtreeDone] at otherSubtreeDone
  rw [exacts, exactDone] at otherExactDone
  cases otherSubtreeDone
  cases otherExactDone
  rw [parts, otherParts, equal]

theorem map_addedRules (texts : List Str) :
    (addedRules texts).map Added.rule = parsedRules texts := by
  have each : ∀ first, ((texts.zipIdx first).flatMap fun text =>
      (parseList text.1).rules.map fun rule => Added.mk text.2 rule).map Added.rule =
        parsedRules texts := by
    induction texts with
    | nil => exact fun _ => rfl
    | cons text rest ih =>
        intro first
        rw [List.zipIdx_cons, List.flatMap_cons, List.map_append, ih (first + 1), List.map_map]
        simp [parsedRules, Function.comp_def]
  exact each 0

end Loads

/-! ### Verdicts -/

/-- What a verdict decides: the kind, and the list it reports. -/
def Verdict.decision (verdict : Verdict) : Kind × Option Nat :=
  (verdict.kind, verdict.reported.map Prod.fst)

section Search

variable {engine other : Engine}

/-- The search reads nothing else. -/
theorem search_congr (same : engine.searched = other.searched)
    (excepts : engine.store.isExcept = other.store.isExcept) (name : Str) :
    engine.search name = other.search name := by
  have considers : consider engine.store = consider other.store := by
    funext block id
    simp only [consider, excepts]
  have subtree : engine.subtree = other.subtree := congrArg Searched.subtree same
  have exact : engine.exact = other.exact := congrArg Searched.exact same
  have wildcards : engine.wildcards = other.wildcards := congrArg Searched.wildcards same
  have buckets : engine.wildcardBuckets = other.wildcardBuckets := congrArg Searched.buckets same
  have unanchored : engine.wildcardUnanchored = other.wildcardUnanchored :=
    congrArg Searched.unanchored same
  have probes : engine.probe = other.probe := by
    funext index block key
    simp only [probe, considers]
  have checks : engine.check name = other.check name := by
    funext block idx
    simp only [check, wildcards, considers]
  have bucketed : engine.searchBucket name = other.searchBucket name := by
    funext block suffix
    simp only [searchBucket, buckets, checks]
  simp only [search, searchWildcards, probes, subtree, exact, wildcards, unanchored, checks,
    bucketed]

theorem isExcept_eq {store : Store} {added : List Added} (holds : store.Holds added) (id : Nat) :
    store.isExcept id = (added[id]?).map fun entry => entry.rule.isExcept := by
  cases found : added[id]? with
  | some entry => exact holds.isExcept found
  | none =>
      have beyond : added.length ≤ id := List.getElem?_eq_none_iff.mp found
      rw [Store.isExcept, List.getElem?_eq_none (by rw [holds.flagsLength]; exact beyond)]
      rfl

/-- The rule a verdict reports, if any. -/
inductive Reports (engine : Engine) (name : Str) : Option Nat → Verdict → Prop
  | exception {id list : Nat} {rule : MatchedRule}
      (searched : (engine.search name).run = some (.error id))
      (matched : engine.matched id = some (list, rule)) :
      Reports engine name (some id) (.Except list rule)
  | block {id list : Nat} {rule : MatchedRule}
      (searched : (engine.search name).run = some (.ok (some id)))
      (matched : engine.matched id = some (list, rule)) :
      Reports engine name (some id) (.Block list rule)
  | nothing (searched : (engine.search name).run = some (.ok none)) :
      Reports engine name none .NoMatch

theorem verdict_reports {query : Str} {verdict : Verdict}
    (decided : engine.verdict query = some verdict) :
    (((queryName query).isEmpty || 253 < len (queryName query)) = true ∧ verdict = .NoMatch) ∨
      ((queryName query).isEmpty || 253 < len (queryName query)) ≠ true ∧
        ∃ id, Reports engine (queryName query) id verdict := by
  unfold Engine.verdict at decided
  dsimp only at decided
  split at decided
  · next odd =>
    cases decided
    exact .inl ⟨odd, rfl⟩
  · next even =>
    refine .inr ⟨even, ?_⟩
    obtain ⟨found, searched, decided⟩ := Option.bind_eq_some_iff.mp decided
    cases found with
    | error id =>
        obtain ⟨⟨list, rule⟩, matched, same⟩ := Option.bind_eq_some_iff.mp decided
        cases same
        exact ⟨_, .exception searched matched⟩
    | ok block =>
        cases block with
        | some id =>
            obtain ⟨⟨list, rule⟩, matched, same⟩ := Option.bind_eq_some_iff.mp decided
            cases same
            exact ⟨_, .block searched matched⟩
        | none =>
            cases decided
            exact ⟨_, .nothing searched⟩

end Search

theorem matched_list {engine : Engine} {added : List Added} {id list : Nat} {rule : MatchedRule}
    (holds : engine.store.Holds added) (matched : engine.matched id = some (list, rule)) :
    (added[id]?).map Added.list = some list := by
  simp only [Engine.matched] at matched
  obtain ⟨except, _, matched⟩ := Option.bind_eq_some_iff.mp matched
  obtain ⟨off, _, matched⟩ := Option.bind_eq_some_iff.mp matched
  obtain ⟨size, _, matched⟩ := Option.bind_eq_some_iff.mp matched
  obtain ⟨form, _, matched⟩ := Option.bind_eq_some_iff.mp matched
  obtain ⟨text, _, matched⟩ := Option.bind_eq_some_iff.mp matched
  obtain ⟨found, lists, matched⟩ := Option.bind_eq_some_iff.mp matched
  obtain ⟨line, _, matched⟩ := Option.bind_eq_some_iff.mp matched
  cases matched
  rw [holds.lists, List.getElem?_map] at lists
  exact lists

section Alike

variable {sort : UnstableSort} {texts others : List Str} {engine other : Engine} {name : Str}
  {added : List Added} {id otherId : Option Nat} {verdict otherVerdict : Verdict}

/-- The list of the rule with this id, if there is one. -/
def listOf (added : List Added) (id : Option Nat) : Option Nat :=
  id.bind fun id => (added[id]?).map Added.list

theorem Reports.list (reports : Reports engine name id verdict) (holds : engine.store.Holds added) :
    verdict.reported.map Prod.fst = listOf added id := by
  cases reports with
  | exception _ matched => exact (matched_list holds matched).symm
  | block _ matched => exact (matched_list holds matched).symm
  | nothing => rfl

theorem Reports.alike (reports : Reports engine name id verdict)
    (otherReports : Reports other name otherId otherVerdict)
    (search : engine.search name = other.search name) :
    verdict.kind = otherVerdict.kind ∧ id = otherId := by
  cases reports with
  | exception searched =>
      rw [search] at searched
      cases otherReports with
      | exception otherSearched => exact ⟨rfl, by simpa using searched.symm.trans otherSearched⟩
      | block otherSearched => exact absurd (searched.symm.trans otherSearched) (by simp)
      | nothing otherSearched => exact absurd (searched.symm.trans otherSearched) (by simp)
  | block searched =>
      rw [search] at searched
      cases otherReports with
      | exception otherSearched => exact absurd (searched.symm.trans otherSearched) (by simp)
      | block otherSearched => exact ⟨rfl, by simpa using searched.symm.trans otherSearched⟩
      | nothing otherSearched => exact absurd (searched.symm.trans otherSearched) (by simp)
  | nothing searched =>
      rw [search] at searched
      cases otherReports with
      | exception otherSearched => exact absurd (searched.symm.trans otherSearched) (by simp)
      | block otherSearched => exact absurd (searched.symm.trans otherSearched) (by simp)
      | nothing => exact ⟨rfl, rfl⟩

/-- Two loads of rules that mean the same, one after the other, search alike. -/
theorem load_search (loaded : EngineBuilder.load sort texts = some engine)
    (alsoLoaded : EngineBuilder.load sort others = some other)
    (same : (parsedRules texts).map Rule.meaning = (parsedRules others).map Rule.meaning)
    (name : Str) : engine.search name = other.search name := by
  apply search_congr (load_searched loaded alsoLoaded same)
  funext id
  rw [isExcept_eq (load_compiled loaded).store, isExcept_eq (load_compiled alsoLoaded).store]
  have actions : ∀ lists, (addedRules lists).map (fun entry => entry.rule.isExcept) =
      ((parsedRules lists).map Rule.meaning).map fun meaning => decide (meaning.1 = .Except) := by
    intro lists
    rw [← map_addedRules, List.map_map, List.map_map]
    rfl
  rw [← List.getElem?_map, ← List.getElem?_map, actions, actions, same]

/-- Their verdicts are of one kind, and report the lists of one and the same rule. -/
theorem alike_verdicts (loaded : EngineBuilder.load sort texts = some engine)
    (alsoLoaded : EngineBuilder.load sort others = some other)
    (same : (parsedRules texts).map Rule.meaning = (parsedRules others).map Rule.meaning)
    (query : Str) : ∃ verdict otherVerdict, engine.verdict query = some verdict ∧
      other.verdict query = some otherVerdict ∧ ∃ id,
        verdict.decision = (verdict.kind, listOf (addedRules texts) id) ∧
        otherVerdict.decision = (verdict.kind, listOf (addedRules others) id) := by
  have compiled := load_compiled loaded
  have alsoCompiled := load_compiled alsoLoaded
  have search := load_search loaded alsoLoaded same (queryName query)
  obtain ⟨verdict, decided⟩ := verdict_total compiled query
  obtain ⟨otherVerdict, otherDecided⟩ := verdict_total alsoCompiled query
  refine ⟨verdict, otherVerdict, decided, otherDecided, ?_⟩
  rcases verdict_reports decided with ⟨odd, rfl⟩ | ⟨even, id, reports⟩
  · rcases verdict_reports otherDecided with ⟨_, rfl⟩ | ⟨even, _⟩
    · exact ⟨none, rfl, rfl⟩
    · exact absurd odd even
  · rcases verdict_reports otherDecided with ⟨odd, _⟩ | ⟨_, otherId, otherReports⟩
    · exact absurd odd even
    · obtain ⟨kind, rfl⟩ := reports.alike otherReports search
      refine ⟨id, ?_, ?_⟩
      · rw [Verdict.decision, reports.list compiled.store]
      · rw [Verdict.decision, otherReports.list alsoCompiled.store, kind]

end Alike

end Sumidero.Filter
