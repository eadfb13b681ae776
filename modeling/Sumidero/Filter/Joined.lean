import Sumidero.Filter.Reference

namespace Sumidero.Filter

open Text Engine

/-! What several lists come to together: the join of what each comes to alone. -/

/-- An exception wins over a block, and both win over nothing. -/
def Kind.join : Kind → Kind → Kind
  | .Except, _ | _, .Except => .Except
  | .Block, _ | _, .Block => .Block
  | .NoMatch, .NoMatch => .NoMatch

/-- The kind of a name that some exceptions cover, or some blocks. -/
def Kind.of (excepted blocked : Bool) : Kind :=
  if excepted then .Except else if blocked then .Block else .NoMatch

theorem Kind.of_or (excepted blocked alsoExcepted alsoBlocked : Bool) :
    Kind.of (excepted || alsoExcepted) (blocked || alsoBlocked) =
      (Kind.of excepted blocked).join (Kind.of alsoExcepted alsoBlocked) := by
  cases excepted <;> cases blocked <;> cases alsoExcepted <;> cases alsoBlocked <;> rfl

/-- Some rule with this action covers the name. -/
def covered (rules : List Rule) (action : RuleAction) (name : Str) : Bool :=
  rules.any fun rule => decide (rule.action = action) && rule.pattern.covers name

theorem referenceVerdict_eq (rules : List Rule) (query : Str) :
    referenceVerdict rules query =
      if (queryName query).isEmpty || 253 < len (queryName query) then .NoMatch
      else Kind.of (covered rules .Except (queryName query))
        (covered rules .Block (queryName query)) := rfl

theorem reference_append (first second : List Rule) (query : Str) :
    referenceVerdict (first ++ second) query =
      (referenceVerdict first query).join (referenceVerdict second query) := by
  simp only [referenceVerdict_eq]
  split
  · rfl
  · rw [covered, covered, List.any_append, List.any_append, Kind.of_or]
    rfl

/-- The order of the rules is nothing to the scan, nor is how often one stands there. -/
theorem reference_congr {first second : List Rule} (same : ∀ rule, rule ∈ first ↔ rule ∈ second)
    (query : Str) : referenceVerdict first query = referenceVerdict second query := by
  have alike : ∀ action name, covered first action name = covered second action name := by
    intro action name
    rw [Bool.eq_iff_iff, covered, covered, List.any_eq_true, List.any_eq_true]
    simp only [same]
  simp only [referenceVerdict_eq, alike]

/-- The join of some kinds, nothing when there are none. -/
def Kind.joinAll (kinds : List Kind) : Kind := kinds.foldr Kind.join .NoMatch

theorem reference_joined (texts : List Str) (query : Str) :
    referenceVerdict (parsedRules texts) query =
      Kind.joinAll (texts.map fun text => referenceVerdict (parsedRules [text]) query) := by
  induction texts with
  | nil =>
      simp only [parsedRules, List.flatMap_nil, List.map_nil, referenceVerdict_eq]
      split <;> rfl
  | cons text rest ih =>
      have split : parsedRules (text :: rest) = parsedRules [text] ++ parsedRules rest := by
        simp [parsedRules]
      rw [split, reference_append, ih]
      rfl

section Loads

variable {sort : UnstableSort} {query : Str}

/-- What an engine of one list answers, list by list. -/
theorem alone_verdicts {texts : List Str} {alone : List Engine}
    (each : List.Forall₂ (fun text engine => EngineBuilder.load sort [text] = some engine) texts
      alone)
    (labels : queryName query = [] ∨ ∀ label ∈ (queryName query).splitOn '.', label ≠ []) :
    ∃ verdicts, List.Forall₂ (fun (engine : Engine) verdict => engine.verdict query = some verdict)
        alone verdicts ∧
      verdicts.map Verdict.kind =
        texts.map fun text => referenceVerdict (parsedRules [text]) query := by
  induction each with
  | nil => exact ⟨[], .nil, rfl⟩
  | cons loaded _ ih =>
      obtain ⟨verdicts, decided, kinds⟩ := ih
      obtain ⟨verdict, found, kind, _⟩ := compiled_verdict (load_compiled loaded) query labels
      refine ⟨verdict :: verdicts, .cons found decided, ?_⟩
      rw [List.map_cons, List.map_cons, kind, kinds]

/-- An engine gives every name the join of what an engine of each of its lists alone gives it,
and so the order of the lists and their repetition do not change the kind of a verdict. -/
theorem verdict_of_lists {texts : List Str} {engine : Engine} {alone : List Engine}
    (loaded : EngineBuilder.load sort texts = some engine)
    (each : List.Forall₂ (fun text engine => EngineBuilder.load sort [text] = some engine) texts
      alone)
    (labels : queryName query = [] ∨ ∀ label ∈ (queryName query).splitOn '.', label ≠ []) :
    ∃ verdict verdicts, engine.verdict query = some verdict ∧
      List.Forall₂ (fun (engine : Engine) verdict => engine.verdict query = some verdict) alone
        verdicts ∧
      verdict.kind = Kind.joinAll (verdicts.map Verdict.kind) ∧
      ∀ others other, EngineBuilder.load sort others = some other →
        (∀ text, text ∈ others ↔ text ∈ texts) → ∃ otherVerdict,
          other.verdict query = some otherVerdict ∧ otherVerdict.kind = verdict.kind := by
  obtain ⟨verdict, found, kind, _⟩ := compiled_verdict (load_compiled loaded) query labels
  obtain ⟨verdicts, decided, kinds⟩ := alone_verdicts each labels
  refine ⟨verdict, verdicts, found, decided, ?_, ?_⟩
  · rw [kind, kinds, reference_joined]
  · intro others other alsoLoaded same
    obtain ⟨otherVerdict, otherFound, otherKind, _⟩ :=
      compiled_verdict (load_compiled alsoLoaded) query labels
    refine ⟨otherVerdict, otherFound, ?_⟩
    rw [otherKind, kind]
    apply reference_congr
    intro rule
    simp only [parsedRules, List.mem_flatMap, same]

end Loads

section Samples

/-- One list blocks a site, the other one excepts a host of it; either may come first. -/
theorem verdict_of_lists_swapped : ∃ engine other verdict otherVerdict,
    EngineBuilder.load .insertion exampleLists = some engine ∧
      EngineBuilder.load .insertion exampleLists.reverse = some other ∧
      engine.verdict "ok.ads.com".toList = some verdict ∧
      other.verdict "ok.ads.com".toList = some otherVerdict ∧ otherVerdict.kind = verdict.kind := by
  have loads : ∀ texts ∈ [exampleLists, exampleLists.reverse, ["||ads.com^\n".toList],
      ["@@||ok.ads.com^\n".toList]],
      (EngineBuilder.load .insertion texts).isSome = true := by decide
  obtain ⟨engine, loaded⟩ := Option.isSome_iff_exists.mp (loads exampleLists (by simp))
  obtain ⟨other, swapped⟩ := Option.isSome_iff_exists.mp (loads exampleLists.reverse (by simp))
  obtain ⟨first, blocks⟩ := Option.isSome_iff_exists.mp (loads ["||ads.com^\n".toList] (by simp))
  obtain ⟨second, excepts⟩ :=
    Option.isSome_iff_exists.mp (loads ["@@||ok.ads.com^\n".toList] (by simp))
  have labels : queryName "ok.ads.com".toList = [] ∨
      ∀ label ∈ (queryName "ok.ads.com".toList).splitOn '.', label ≠ [] := .inr (by decide)
  obtain ⟨verdict, _, found, _, _, either⟩ :=
    verdict_of_lists loaded (.cons blocks (.cons excepts .nil)) labels
  obtain ⟨otherVerdict, otherFound, kind⟩ :=
    either exampleLists.reverse other swapped fun _ => List.mem_reverse
  exact ⟨engine, other, verdict, otherVerdict, loaded, swapped, found, otherFound, kind⟩

end Samples

end Sumidero.Filter
