import Sumidero.Filter.Stored

namespace Sumidero.Filter

open Text Data

/-! The engine while lists are added to it. -/

/-! ### Reversed labels -/

/-- Written after a first label, every further one follows a dot. -/
theorem reverseLabels_run {labels : List (List UInt8)} {out : List UInt8}
    (started : out ≠ []) (fits : (out ++ labels.flatMap (DOT :: ·)).length ≤ 256) :
    labels.foldlM (fun out label =>
      let out := if out.isEmpty then out else out ++ [DOT]
      if out.length + label.length ≤ 256 then some (out ++ label) else none) out =
      some (out ++ labels.flatMap (DOT :: ·)) := by
  induction labels generalizing out with
  | nil => simp
  | cons label rest ih =>
      have nonempty : out.isEmpty = false := by simpa using started
      rw [List.flatMap_cons] at fits ⊢
      have room : (out ++ [DOT]).length + label.length ≤ 256 := by
        simp only [List.length_append, List.length_cons, List.length_nil] at fits ⊢
        omega
      rw [List.foldlM_cons]
      simp only [nonempty, Bool.false_eq_true, if_false, if_pos room, Option.bind_eq_bind,
        Option.bind_some]
      rw [ih (by simp) (by simpa using fits)]
      simp

theorem intercalate_eq_flatMap (sep : UInt8) (first : List UInt8) (rest : List (List UInt8)) :
    [sep].intercalate (first :: rest) = first ++ rest.flatMap (sep :: ·) := by
  induction rest generalizing first with
  | nil => simp
  | cons next rest ih =>
      rw [List.intercalate_cons_of_ne_nil (List.cons_ne_nil _ _), ih, List.flatMap_cons]
      simp

/-- Where no label is empty the buffer receives the labels in reverse order. -/
theorem reverseLabelsInto_eq {domain : List UInt8}
    (labels : ∀ label ∈ domain.splitOn DOT, label ≠ []) (fits : domain.length ≤ 256) :
    reverseLabelsInto domain = some (reverseFields DOT domain) := by
  have length := @length_reverseFields _ _ DOT domain
  simp only [reverseLabelsInto]
  unfold reverseFields at length ⊢
  have present : ∀ label ∈ (domain.splitOn DOT).reverse, label ≠ [] :=
    fun label member => labels label (List.mem_reverse.mp member)
  cases reversed : (domain.splitOn DOT).reverse with
  | nil => exact absurd reversed (by simp)
  | cons first rest =>
      rw [reversed] at length present
      rw [intercalate_eq_flatMap] at length ⊢
      have room : first.length ≤ 256 := by
        rw [List.length_append] at length
        omega
      rw [List.foldlM_cons]
      simp only [List.isEmpty_nil, if_true, List.length_nil, Nat.zero_add, if_pos room,
        List.nil_append, Option.bind_eq_bind, Option.bind_some]
      exact reverseLabels_run (present first List.mem_cons_self) (by omega)

theorem labels_asBytes {name : Str} (labels : ∀ label ∈ name.splitOn '.', label ≠ []) :
    ∀ label ∈ (asBytes name).splitOn DOT, label ≠ [] := by
  intro label member empty
  rw [show DOT = 46 from rfl, splitOn_asBytes] at member
  obtain ⟨text, inside, same⟩ := List.mem_map.mp member
  rw [empty] at same
  exact labels text inside (asBytes_injective same)

/-! ### What the indexes hold -/

/-- The key a rule has in the exact index. -/
def Rule.exactKey (rule : Rule) : Option (List UInt8) :=
  match rule.pattern with
  | .Exact domain => some (asBytes domain)
  | _ => none

/-- The key a rule has in the subtree index. -/
def Rule.subtreeKey (rule : Rule) : Option (List UInt8) :=
  match rule.pattern with
  | .Subtree domain => some (reverseFields DOT (asBytes domain))
  | _ => none

/-- The wildcard a rule with this id is. -/
def Rule.wildcard (rule : Rule) (id : Nat) : Option WildcardEntry :=
  match rule.pattern with
  | .Wildcard expr includeSubdomains =>
      some { expr := expr, includeSubdomains := includeSubdomains, rule := id }
  | _ => none

section Collected

variable {α : Type} {collect : Rule → Nat → Option α} {added : List Added}

/-- What the added rules contribute, in order. -/
def collected (collect : Rule → Nat → Option α) (added : List Added) : List α :=
  added.zipIdx.filterMap fun entry => collect entry.1.rule entry.2

theorem collected_concat (entry : Added) :
    collected collect (added ++ [entry]) =
      collected collect added ++ (collect entry.rule added.length).toList := by
  simp only [collected]
  rw [List.zipIdx_append, List.filterMap_append]
  simp [List.filterMap_cons]
  cases collect entry.rule added.length <;> rfl

theorem mem_collected {item : α} :
    item ∈ collected collect added ↔
      ∃ (id : Nat) (entry : Added), added[id]? = some entry ∧ collect entry.rule id = some item := by
  simp only [collected]
  rw [List.mem_filterMap]
  constructor
  · intro given
    obtain ⟨⟨entry, id⟩, member, found⟩ := given
    exact ⟨id, entry, List.mem_zipIdx_iff_getElem?.mp member, found⟩
  · intro given
    obtain ⟨id, entry, present, found⟩ := given
    exact ⟨(entry, id), List.mem_zipIdx_iff_getElem?.mpr present, found⟩

end Collected

def exactEntries : List Added → List KeyIndex.Entry :=
  collected fun rule id => rule.exactKey.map (·, id)

def subtreeEntries : List Added → List KeyIndex.Entry :=
  collected fun rule id => rule.subtreeKey.map (·, id)

theorem exactEntries_concat (added : List Added) (entry : Added) :
    exactEntries (added ++ [entry]) =
      exactEntries added ++ (entry.rule.exactKey.map (·, added.length)).toList :=
  collected_concat entry

theorem subtreeEntries_concat (added : List Added) (entry : Added) :
    subtreeEntries (added ++ [entry]) =
      subtreeEntries added ++ (entry.rule.subtreeKey.map (·, added.length)).toList :=
  collected_concat entry

/-- Every wildcard is found by its anchor, or among those without one. -/
structure Bucketed (engine : Engine) : Prop where
  anchored : ∀ (idx : Nat) (w : WildcardEntry) (anchor : Str), engine.wildcards[idx]? = some w →
    wildcardAnchor w.expr = some anchor →
    ∃ bucket, engine.wildcardBuckets anchor = some bucket ∧ idx ∈ bucket
  unanchored : ∀ (idx : Nat) (w : WildcardEntry), engine.wildcards[idx]? = some w →
    wildcardAnchor w.expr = none → idx ∈ engine.wildcardUnanchored
  bucketBound : ∀ (anchor : Str) (bucket : List Nat), engine.wildcardBuckets anchor = some bucket →
    ∀ idx ∈ bucket, idx < engine.wildcards.length
  unanchoredBound : ∀ idx ∈ engine.wildcardUnanchored, idx < engine.wildcards.length

structure Building (engine : Engine) (added : List Added) : Prop where
  store : engine.store.Holds added
  exact : engine.exact.Holds (exactEntries added)
  subtree : engine.subtree.Holds (subtreeEntries added)
  wildcards : engine.wildcards = collected Rule.wildcard added
  bucketed : Bucketed engine
  normal : ∀ entry ∈ added, entry.rule.pattern.Normal

theorem building_empty : Building Engine.empty [] where
  store := Store.holds_empty
  exact := KeyIndex.holds_empty
  subtree := KeyIndex.holds_empty
  wildcards := rfl
  bucketed :=
    { anchored := fun _ _ _ found => by cases found
      unanchored := fun _ _ found => by cases found
      bucketBound := fun _ _ found => by cases found
      unanchoredBound := fun _ member => by cases member }
  normal := fun _ member => by cases member

/-! ### Adding a rule -/

section Add

variable {engine after : Engine} {added : List Added} {list : Nat} {rule : Rule}

theorem normal_concat (earlier : ∀ entry ∈ added, entry.rule.pattern.Normal)
    (normal : rule.pattern.Normal) :
    ∀ entry ∈ added ++ [{ list := list, rule := rule }], entry.rule.pattern.Normal := by
  intro entry member
  rcases List.mem_append.mp member with older | newest
  · exact earlier entry older
  · rw [List.mem_singleton.mp newest]
    exact normal

theorem Bucketed.of_same (bucketed : Bucketed engine) (wildcards : after.wildcards = engine.wildcards)
    (buckets : after.wildcardBuckets = engine.wildcardBuckets)
    (unanchored : after.wildcardUnanchored = engine.wildcardUnanchored) : Bucketed after where
  anchored := by rw [wildcards, buckets]; exact bucketed.anchored
  unanchored := by rw [wildcards, unanchored]; exact bucketed.unanchored
  bucketBound := by rw [wildcards, buckets]; exact bucketed.bucketBound
  unanchoredBound := by rw [wildcards, unanchored]; exact bucketed.unanchoredBound

theorem subtreeForm_ite {α : Type} (body domain : Str) (canonical verbatim : α) :
    (if subtreeForm body domain = FORM_SUBTREE then canonical else verbatim) =
      if subtreeForm body domain = FORM_VERBATIM then verbatim else canonical := by
  simp only [subtreeForm]
  split <;> simp [FORM_SUBTREE, FORM_VERBATIM]

theorem addSubtree_building (building : Building engine added) {domain : Str}
    (pattern : rule.pattern = .Subtree domain) (normal : IsDomain domain)
    (done : engine.addSubtree list rule domain = some after) :
    Building after (added ++ [{ list := list, rule := rule }]) ∧
      after.listCount = engine.listCount := by
  simp only [Engine.addSubtree] at done
  obtain ⟨⟨pushed, id⟩, push, done⟩ := Option.bind_eq_some_iff.mp done
  obtain ⟨key, reversed, done⟩ := Option.bind_eq_some_iff.mp done
  obtain ⟨subtree, inserted, done⟩ := Option.bind_eq_some_iff.mp done
  obtain ⟨store, kept, done⟩ := Option.bind_eq_some_iff.mp done
  cases done
  rw [reverseLabelsInto_eq (labels_asBytes normal.labels) (Nat.le_trans normal.fits (by decide))]
    at reversed
  cases reversed
  have formed : rule.form = some (subtreeForm rule.body domain) := by rw [Rule.form, pattern]
  rw [subtreeForm_ite] at kept
  obtain ⟨stored, fresh⟩ := building.store.push formed push kept
  refine ⟨⟨stored, ?_, ?_, ?_, building.bucketed.of_same rfl rfl rfl,
    normal_concat building.normal (by rw [pattern]; exact normal)⟩, rfl⟩
  · have key : rule.exactKey = none := by rw [Rule.exactKey, pattern]
    rw [exactEntries_concat, key]
    simpa using building.exact
  · have key : rule.subtreeKey = some (reverseFields DOT (asBytes domain)) := by
      rw [Rule.subtreeKey, pattern]
    rw [subtreeEntries_concat, key, ← fresh]
    exact KeyIndex.insert_holds building.subtree inserted
  · rw [collected_concat]
    simpa [Rule.wildcard, pattern] using building.wildcards

theorem addExact_building (building : Building engine added) {domain : Str}
    (pattern : rule.pattern = .Exact domain) (normal : IsDomain domain)
    (done : engine.addExact list rule domain = some after) :
    Building after (added ++ [{ list := list, rule := rule }]) ∧
      after.listCount = engine.listCount := by
  simp only [Engine.addExact] at done
  obtain ⟨form, formed, done⟩ := Option.bind_eq_some_iff.mp done
  obtain ⟨⟨pushed, id⟩, push, done⟩ := Option.bind_eq_some_iff.mp done
  obtain ⟨exact, inserted, done⟩ := Option.bind_eq_some_iff.mp done
  obtain ⟨store, kept, done⟩ := Option.bind_eq_some_iff.mp done
  cases done
  have formOf : rule.form = some form := by rw [Rule.form, pattern]; exact formed
  obtain ⟨stored, fresh⟩ := building.store.push formOf push kept
  refine ⟨⟨stored, ?_, ?_, ?_, building.bucketed.of_same rfl rfl rfl,
    normal_concat building.normal (by rw [pattern]; exact normal)⟩, rfl⟩
  · have key : rule.exactKey = some (asBytes domain) := by rw [Rule.exactKey, pattern]
    rw [exactEntries_concat, key, ← fresh]
    exact KeyIndex.insert_holds building.exact inserted
  · have key : rule.subtreeKey = none := by rw [Rule.subtreeKey, pattern]
    rw [subtreeEntries_concat, key]
    simpa using building.subtree
  · rw [collected_concat]
    simpa [Rule.wildcard, pattern] using building.wildcards

theorem bucketed_anchored (bucketed : Bucketed engine) {w : WildcardEntry} {anchor : Str}
    (anchored : wildcardAnchor w.expr = some anchor)
    (wildcards : after.wildcards = engine.wildcards ++ [w])
    (buckets : after.wildcardBuckets = Function.update engine.wildcardBuckets anchor
      (some ((engine.wildcardBuckets anchor).getD [] ++ [engine.wildcards.length])))
    (unanchored : after.wildcardUnanchored = engine.wildcardUnanchored) : Bucketed after where
  anchored := by
    intro idx other found present its
    rw [wildcards] at present
    rw [buckets]
    by_cases same : found = anchor
    · subst same
      refine ⟨_, Function.update_self .., List.mem_append.mpr ?_⟩
      rcases getElem?_concat_cases present with ⟨_, older⟩ | ⟨rfl, rfl⟩
      · obtain ⟨bucket, held, member⟩ := bucketed.anchored idx other found older its
        rw [held]
        exact .inl member
      · exact .inr List.mem_cons_self
    · rw [Function.update_of_ne same]
      rcases getElem?_concat_cases present with ⟨_, older⟩ | ⟨rfl, rfl⟩
      · exact bucketed.anchored idx other found older its
      · rw [anchored] at its
        exact absurd (Option.some.inj its).symm same
  unanchored := by
    intro idx other present its
    rw [wildcards] at present
    rw [unanchored]
    rcases getElem?_concat_cases present with ⟨_, older⟩ | ⟨rfl, rfl⟩
    · exact bucketed.unanchored idx other older its
    · rw [anchored] at its
      cases its
  bucketBound := by
    intro found bucket held idx member
    rw [wildcards, List.length_append, List.length_singleton]
    rw [buckets] at held
    by_cases same : found = anchor
    · subst same
      rw [Function.update_self] at held
      cases held
      rcases List.mem_append.mp member with older | newest
      · cases earlier : engine.wildcardBuckets found with
        | none => rw [earlier] at older; cases older
        | some bucket =>
            rw [earlier] at older
            exact Nat.lt_succ_of_lt (bucketed.bucketBound found bucket earlier idx older)
      · rw [List.mem_singleton.mp newest]
        exact Nat.lt_succ_self _
    · rw [Function.update_of_ne same] at held
      exact Nat.lt_succ_of_lt (bucketed.bucketBound found bucket held idx member)
  unanchoredBound := by
    intro idx member
    rw [wildcards, List.length_append, List.length_singleton]
    rw [unanchored] at member
    exact Nat.lt_succ_of_lt (bucketed.unanchoredBound idx member)

theorem bucketed_unanchored (bucketed : Bucketed engine) {w : WildcardEntry}
    (anchorless : wildcardAnchor w.expr = none)
    (wildcards : after.wildcards = engine.wildcards ++ [w])
    (buckets : after.wildcardBuckets = engine.wildcardBuckets)
    (unanchored : after.wildcardUnanchored =
      engine.wildcardUnanchored ++ [engine.wildcards.length]) : Bucketed after where
  anchored := by
    intro idx other anchor present its
    rw [wildcards] at present
    rw [buckets]
    rcases getElem?_concat_cases present with ⟨_, older⟩ | ⟨rfl, rfl⟩
    · exact bucketed.anchored idx other anchor older its
    · rw [anchorless] at its
      cases its
  unanchored := by
    intro idx other present its
    rw [wildcards] at present
    rw [unanchored, List.mem_append]
    rcases getElem?_concat_cases present with ⟨_, older⟩ | ⟨rfl, rfl⟩
    · exact .inl (bucketed.unanchored idx other older its)
    · exact .inr List.mem_cons_self
  bucketBound := by
    intro anchor bucket held idx member
    rw [wildcards, List.length_append, List.length_singleton]
    rw [buckets] at held
    exact Nat.lt_succ_of_lt (bucketed.bucketBound anchor bucket held idx member)
  unanchoredBound := by
    intro idx member
    rw [wildcards, List.length_append, List.length_singleton]
    rw [unanchored] at member
    rcases List.mem_append.mp member with older | newest
    · exact Nat.lt_succ_of_lt (bucketed.unanchoredBound idx older)
    · rw [List.mem_singleton.mp newest]
      exact Nat.lt_succ_self _

theorem addWildcard_building (building : Building engine added) {expr : Str}
    {includeSubdomains : Bool} (pattern : rule.pattern = .Wildcard expr includeSubdomains)
    (done : engine.addWildcard list rule expr includeSubdomains = some after) :
    Building after (added ++ [{ list := list, rule := rule }]) ∧
      after.listCount = engine.listCount := by
  simp only [Engine.addWildcard] at done
  obtain ⟨⟨pushed, id⟩, push, done⟩ := Option.bind_eq_some_iff.mp done
  obtain ⟨store, kept, done⟩ := Option.bind_eq_some_iff.mp done
  obtain ⟨idx, small, done⟩ := Option.bind_eq_some_iff.mp done
  have position : idx = engine.wildcards.length := by
    simp only [toU32] at small
    split at small
    · exact (Option.some.inj small).symm
    · cases small
  have formed : rule.form = some FORM_VERBATIM := by rw [Rule.form, pattern]
  obtain ⟨stored, fresh⟩ := building.store.push formed push (by rw [if_pos rfl]; exact kept)
  have exact : engine.exact.Holds
      (exactEntries (added ++ [{ list := list, rule := rule }])) := by
    have key : rule.exactKey = none := by rw [Rule.exactKey, pattern]
    rw [exactEntries_concat, key]
    simpa using building.exact
  have subtree : engine.subtree.Holds
      (subtreeEntries (added ++ [{ list := list, rule := rule }])) := by
    have key : rule.subtreeKey = none := by rw [Rule.subtreeKey, pattern]
    rw [subtreeEntries_concat, key]
    simpa using building.subtree
  have wildcards : engine.wildcards ++
        [{ expr := expr, includeSubdomains := includeSubdomains, rule := id }] =
      collected Rule.wildcard (added ++ [{ list := list, rule := rule }]) := by
    rw [collected_concat, ← building.wildcards]
    simp [Rule.wildcard, pattern, fresh]
  have normal : ∀ entry ∈ added ++ [{ list := list, rule := rule }],
      entry.rule.pattern.Normal :=
    normal_concat building.normal (by rw [pattern]; exact True.intro)
  subst position
  dsimp only at done
  cases anchor : wildcardAnchor expr with
  | some anchor =>
      rw [anchor] at done
      cases done
      exact ⟨⟨stored, exact, subtree, wildcards,
        bucketed_anchored building.bucketed anchor rfl rfl rfl, normal⟩, rfl⟩
  | none =>
      rw [anchor] at done
      cases done
      exact ⟨⟨stored, exact, subtree, wildcards,
        bucketed_unanchored building.bucketed anchor rfl rfl rfl, normal⟩, rfl⟩

theorem addRule_building (building : Building engine added) (normal : rule.pattern.Normal)
    (done : engine.addRule rule = some after) :
    Building after (added ++ [{ list := engine.listCount - 1, rule := rule }]) ∧
      after.listCount = engine.listCount := by
  simp only [Engine.addRule] at done
  obtain ⟨list, small, done⟩ := Option.bind_eq_some_iff.mp done
  simp only [toU16] at small
  split at small
  · cases small
    split at done
    · next domain pattern =>
      exact addSubtree_building building pattern (by rw [pattern] at normal; exact normal) done
    · next domain pattern =>
      exact addExact_building building pattern (by rw [pattern] at normal; exact normal) done
    · next expr includeSubdomains pattern => exact addWildcard_building building pattern done
  · cases small

end Add

/-! ### Adding lists -/

/-- The rules of the texts, each with the index of its list. -/
def addedRules (texts : List Str) : List Added :=
  texts.zipIdx.flatMap fun text =>
    (parseList text.1).rules.map fun rule => { list := text.2, rule := rule }

theorem addRules_building {engine after : Engine} {added : List Added} {rules : List Rule}
    (building : Building engine added) (normal : ∀ rule ∈ rules, rule.pattern.Normal)
    (done : rules.foldlM Engine.addRule engine = some after) :
    Building after
        (added ++ rules.map fun rule => { list := engine.listCount - 1, rule := rule }) ∧
      after.listCount = engine.listCount := by
  induction rules generalizing engine added with
  | nil =>
      cases done
      exact ⟨by simpa using building, rfl⟩
  | cons rule rest ih =>
      rw [List.foldlM_cons] at done
      obtain ⟨middle, first, done⟩ := Option.bind_eq_some_iff.mp done
      obtain ⟨one, count⟩ := addRule_building building (normal rule List.mem_cons_self) first
      obtain ⟨whole, same⟩ := ih one (fun other member => normal other (List.mem_cons_of_mem _ member)) done
      rw [count] at whole same
      exact ⟨by simpa using whole, same⟩

theorem Building.begin {engine : Engine} {added : List Added} (building : Building engine added) :
    Building { engine with listCount := engine.listCount + 1 } added :=
  { building with bucketed := building.bucketed.of_same rfl rfl rfl }

/-- Adding a list counts it and adds its rules. -/
theorem addListText_rules {engine after : Engine} {text : Str}
    (done : EngineBuilder.addListText engine text = some after) :
    (parseList text).rules.foldlM Engine.addRule
      { engine with listCount := engine.listCount + 1 } = some after := by
  simp only [EngineBuilder.addListText, Engine.beginList] at done
  obtain ⟨begun, started, done⟩ := Option.bind_eq_some_iff.mp done
  obtain ⟨_, _, same⟩ := Option.bind_eq_some_iff.mp started
  cases same
  exact done

theorem addListText_building {engine after : Engine} {added : List Added} {text : Str}
    (building : Building engine added) (done : EngineBuilder.addListText engine text = some after) :
    Building after
        (added ++ (parseList text).rules.map fun rule =>
          { list := engine.listCount, rule := rule }) ∧
      after.listCount = engine.listCount + 1 :=
  addRules_building building.begin (parseList_normal text) (addListText_rules done)

theorem addListTexts_building {engine after : Engine} {added : List Added} {texts : List Str}
    (building : Building engine added)
    (done : texts.foldlM EngineBuilder.addListText engine = some after) :
    Building after (added ++ (texts.zipIdx engine.listCount).flatMap fun text =>
      (parseList text.1).rules.map fun rule => { list := text.2, rule := rule }) := by
  induction texts generalizing engine added with
  | nil =>
      cases done
      simpa using building
  | cons text rest ih =>
      rw [List.foldlM_cons] at done
      obtain ⟨middle, first, done⟩ := Option.bind_eq_some_iff.mp done
      obtain ⟨one, count⟩ := addListText_building building first
      have whole := ih one done
      rw [count] at whole
      simpa [List.zipIdx_cons] using whole

end Sumidero.Filter
