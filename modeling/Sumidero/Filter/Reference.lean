import Sumidero.Filter.Searching

namespace Sumidero.Filter

open Text Engine

/-! The linear scan over all parsed rules, and the compiled engine against it. -/

inductive Kind where
  | NoMatch
  | Block
  | Except
deriving Repr, DecidableEq

/-- Scan every rule: an exception that covers the name wins over any block. -/
def referenceVerdict (rules : List Rule) (query : Str) : Kind :=
  let name := queryName query
  let covered := fun action => rules.any fun rule =>
    decide (rule.action = action) && rule.pattern.covers name
  if name.isEmpty || 253 < len name then .NoMatch
  else if covered .Except then .Except
  else if covered .Block then .Block
  else .NoMatch

namespace Verdict

def kind : Verdict → Kind
  | NoMatch => .NoMatch
  | Block _ _ => .Block
  | Except _ _ => .Except

/-- The list and rule a verdict names. -/
def reported : Verdict → Option (Nat × MatchedRule)
  | NoMatch => none
  | Block list rule => some (list, rule)
  | Except list rule => some (list, rule)

end Verdict

/-- All parsed rules, list after list. -/
def parsedRules (texts : List Str) : List Rule := texts.flatMap fun text => (parseList text).rules

theorem mem_addedRules {texts : List Str} {entry : Added} :
    entry ∈ addedRules texts ↔
      ∃ text, texts[entry.list]? = some text ∧ entry.rule ∈ (parseList text).rules := by
  simp only [addedRules]
  rw [List.mem_flatMap]
  constructor
  · intro given
    obtain ⟨⟨text, list⟩, present, member⟩ := given
    obtain ⟨rule, inside, rfl⟩ := List.mem_map.mp member
    exact ⟨text, List.mem_zipIdx_iff_getElem?.mp present, inside⟩
  · intro given
    obtain ⟨text, present, inside⟩ := given
    exact ⟨(text, entry.list), List.mem_zipIdx_iff_getElem?.mpr present,
      List.mem_map.mpr ⟨entry.rule, inside, rfl⟩⟩

theorem mem_parsedRules {texts : List Str} {rule : Rule} :
    rule ∈ parsedRules texts ↔ ∃ entry ∈ addedRules texts, entry.rule = rule := by
  simp only [parsedRules]
  rw [List.mem_flatMap]
  constructor
  · intro given
    obtain ⟨text, present, member⟩ := given
    obtain ⟨list, bound, found⟩ := List.getElem_of_mem present
    refine ⟨{ list := list, rule := rule }, mem_addedRules.mpr ⟨text, ?_, member⟩, rfl⟩
    exact found ▸ List.getElem?_eq_getElem bound
  · intro given
    obtain ⟨entry, present, rfl⟩ := given
    obtain ⟨text, found, member⟩ := mem_addedRules.mp present
    exact ⟨text, List.mem_of_getElem? found, member⟩

theorem load_compiled {sort : UnstableSort} {texts : List Str} {engine : Engine}
    (loaded : EngineBuilder.load sort texts = some engine) : Compiled engine (addedRules texts) := by
  simp only [EngineBuilder.load] at loaded
  obtain ⟨built, lists, finished⟩ := Option.bind_eq_some_iff.mp loaded
  have building := addListTexts_building building_empty lists
  rw [List.nil_append] at building
  exact finish_compiled building finished

section Verdict

variable {engine : Engine} {added : List Added} {name : Str}

/-- What a search comes to: an exception that covers the name, or else a block rule
that covers it, or else no rule does. -/
theorem search_cases (compiled : Compiled engine added)
    (labels : ∀ label ∈ name.splitOn '.', label ≠ []) (fits : len name ≤ 253) :
    (∃ id entry, (engine.search name).run = some (.error id) ∧ added[id]? = some entry ∧
        entry.rule.pattern.covers name = true ∧ entry.rule.action = .Except) ∨
      (∀ entry ∈ added, entry.rule.pattern.covers name = true → entry.rule.action = .Block) ∧
        ((∃ id entry, (engine.search name).run = some (.ok (some id)) ∧ added[id]? = some entry ∧
            entry.rule.pattern.covers name = true) ∨
          (engine.search name).run = some (.ok none) ∧
            ∀ entry ∈ added, ¬ entry.rule.pattern.covers name = true) := by
  obtain ⟨ids, searched, members⟩ := search_candidates compiled labels fits
  let excepted := fun id : Nat => (added[id]?).any fun entry => entry.rule.isExcept
  have known : ∀ id ∈ ids, engine.store.isExcept id = some (excepted id) := by
    intro id member
    obtain ⟨entry, present, _⟩ := (members id).mp member
    simp only [excepted, present, Option.any_some, compiled.store.isExcept present]
  rw [searched, scan_eq known]
  cases found : ids.find? excepted with
  | some id =>
      obtain ⟨entry, present, covered⟩ := (members id).mp (List.mem_of_find?_eq_some found)
      have exception := List.find?_some found
      simp only [excepted, present, Option.any_some, Rule.isExcept, decide_eq_true_eq] at exception
      exact .inl ⟨id, entry, rfl, present, covered, exception⟩
  | none =>
      refine .inr ⟨?_, ?_⟩
      · intro entry member covered
        obtain ⟨id, bound, same⟩ := List.getElem_of_mem member
        have present : added[id]? = some entry := same ▸ List.getElem?_eq_getElem bound
        have blocks := List.find?_eq_none.mp found id ((members id).mpr ⟨entry, present, covered⟩)
        simp only [excepted, present, Option.any_some, Rule.isExcept, decide_eq_true_eq] at blocks
        cases action : entry.rule.action with
        | Block => rfl
        | Except => exact absurd action blocks
      · cases candidates : ids with
        | nil =>
            refine .inr ⟨rfl, fun entry member covered => ?_⟩
            obtain ⟨id, bound, same⟩ := List.getElem_of_mem member
            have hit := (members id).mpr ⟨entry, same ▸ List.getElem?_eq_getElem bound, covered⟩
            rw [candidates] at hit
            cases hit
        | cons id rest =>
            obtain ⟨entry, present, covered⟩ := (members id).mp (by rw [candidates]; exact List.mem_cons_self)
            exact .inl ⟨id, entry, rfl, present, covered⟩

end Verdict

/-- Whether the scan meets a covering rule with this action. -/
theorem any_covers {texts : List Str} {action : RuleAction} {name : Str} :
    ((parsedRules texts).any fun rule => decide (rule.action = action) && rule.pattern.covers name) =
        true ↔
      ∃ entry ∈ addedRules texts, entry.rule.action = action ∧
        entry.rule.pattern.covers name = true := by
  rw [List.any_eq_true]
  constructor
  · intro given
    obtain ⟨rule, member, holds⟩ := given
    obtain ⟨entry, present, rfl⟩ := mem_parsedRules.mp member
    rw [Bool.and_eq_true, decide_eq_true_eq] at holds
    exact ⟨entry, present, holds⟩
  · intro given
    obtain ⟨entry, present, holds⟩ := given
    exact ⟨entry.rule, mem_parsedRules.mpr ⟨entry, present, rfl⟩, by simpa using holds⟩

/-- What a verdict names when it names this rule. -/
theorem named_rule {texts : List Str} {id : Nat} {entry : Added} {text : Str} {list : Nat}
    {matched : MatchedRule} {name : Str} (present : (addedRules texts)[id]? = some entry)
    (covered : entry.rule.pattern.covers name = true)
    (named : some (entry.list, MatchedRule.mk entry.rule.action text entry.rule.line) =
      some (list, matched)) :
    ∃ text rule, texts[list]? = some text ∧ rule ∈ (parseList text).rules ∧
      rule.line = matched.line ∧ rule.action = matched.action ∧
      rule.pattern.covers name = true := by
  obtain ⟨text, found, member⟩ := mem_addedRules.mp (List.mem_of_getElem? present)
  cases named
  exact ⟨text, entry.rule, found, member, rfl, rfl, covered⟩

/-- The verdict of an engine that holds the parsed rules, against the scan of them. -/
theorem compiled_verdict {texts : List Str} {engine : Engine}
    (compiled : Compiled engine (addedRules texts)) (query : Str)
    (labels : queryName query = [] ∨ ∀ label ∈ (queryName query).splitOn '.', label ≠ []) :
    ∃ verdict, engine.verdict query = some verdict ∧
      verdict.kind = referenceVerdict (parsedRules texts) query ∧
      ∀ list matched, verdict.reported = some (list, matched) →
        ∃ text rule, texts[list]? = some text ∧ rule ∈ (parseList text).rules ∧
          rule.line = matched.line ∧ rule.action = matched.action ∧
          rule.pattern.covers (queryName query) = true := by
  unfold Engine.verdict referenceVerdict
  dsimp only
  by_cases odd : (queryName query).isEmpty || 253 < len (queryName query)
  · rw [if_pos odd, if_pos odd]
    exact ⟨.NoMatch, rfl, rfl, fun _ _ named => by cases named⟩
  · rw [if_neg odd, if_neg odd]
    simp only [Bool.or_eq_true, List.isEmpty_iff, decide_eq_true_eq, not_or] at odd
    have whole := labels.resolve_left odd.1
    rcases search_cases compiled whole (by omega) with
      ⟨id, entry, searched, present, covered, exception⟩ | ⟨blocks, found⟩
    · obtain ⟨text, reported⟩ := matched_eq compiled present
      have scanned := any_covers.mpr ⟨entry, List.mem_of_getElem? present, exception, covered⟩
      rw [if_pos scanned, searched]
      refine ⟨.Except entry.list ⟨entry.rule.action, text, entry.rule.line⟩, ?_, rfl,
        fun _ _ named => named_rule present covered named⟩
      simp only [Option.bind_eq_bind, Option.bind_some, reported]
      rfl
    · have noException : ¬ ((parsedRules texts).any fun rule =>
          decide (rule.action = .Except) && rule.pattern.covers (queryName query)) = true := by
        intro scanned
        obtain ⟨entry, present, exception, covered⟩ := any_covers.mp scanned
        rw [blocks entry present covered] at exception
        cases exception
      rw [if_neg noException]
      rcases found with ⟨id, entry, searched, present, covered⟩ | ⟨searched, uncovered⟩
      · obtain ⟨text, reported⟩ := matched_eq compiled present
        have member := List.mem_of_getElem? present
        have scanned := any_covers.mpr ⟨entry, member, blocks entry member covered, covered⟩
        rw [if_pos scanned, searched]
        refine ⟨.Block entry.list ⟨entry.rule.action, text, entry.rule.line⟩, ?_, rfl,
        fun _ _ named => named_rule present covered named⟩
        simp only [Option.bind_eq_bind, Option.bind_some, reported]
        rfl
      · have noBlock : ¬ ((parsedRules texts).any fun rule =>
            decide (rule.action = .Block) && rule.pattern.covers (queryName query)) = true := by
          intro scanned
          obtain ⟨entry, present, _, covered⟩ := any_covers.mp scanned
          exact uncovered entry present covered
        rw [if_neg noBlock, searched]
        exact ⟨.NoMatch, rfl, rfl, fun _ _ named => by cases named⟩

/-- For every loaded engine and every query name without an empty label, the
verdict is the linear scan's, and the rule it names was added to the list it names
and covers the name. -/
theorem verdict_eq_reference (sort : UnstableSort) (texts : List Str) (engine : Engine)
    (loaded : EngineBuilder.load sort texts = some engine) (query : Str)
    (labels : queryName query = [] ∨ ∀ label ∈ (queryName query).splitOn '.', label ≠ []) :
    ∃ verdict, engine.verdict query = some verdict ∧
      verdict.kind = referenceVerdict (parsedRules texts) query ∧
      ∀ list matched, verdict.reported = some (list, matched) →
        ∃ text rule, texts[list]? = some text ∧ rule ∈ (parseList text).rules ∧
          rule.line = matched.line ∧ rule.action = matched.action ∧
          rule.pattern.covers (queryName query) = true :=
  compiled_verdict (load_compiled loaded) query labels

def exampleLists : List Str := ["||ads.com^\n".toList, "@@||ok.ads.com^\n".toList]

theorem subdomain_blocked : ∃ engine verdict,
    EngineBuilder.load .insertion exampleLists = some engine ∧
      engine.verdict "x.Ads.com.".toList = some verdict ∧ verdict.kind = .Block := by
  have loads : (EngineBuilder.load .insertion exampleLists).isSome = true := by decide
  obtain ⟨engine, loaded⟩ := Option.isSome_iff_exists.mp loads
  obtain ⟨verdict, found, kind, _⟩ := verdict_eq_reference .insertion exampleLists engine loaded
    "x.Ads.com.".toList (.inr (by decide))
  exact ⟨engine, verdict, loaded, found, kind.trans (by decide)⟩

end Sumidero.Filter
