import Sumidero.Filter.Forms
import Sumidero.Filter.Reference

namespace Sumidero.Filter

open Text Data Engine

/-! No step of the filter fails: within the documented limits every list text is
compiled, and every query string whatsoever has a verdict. -/

theorem toU8_of_lt {value : Nat} (small : value < 2 ^ 8) : toU8 value = some value := if_pos small

theorem toU16_of_lt {value : Nat} (small : value < 2 ^ 16) : toU16 value = some value :=
  if_pos small

theorem toU32_of_lt {value : Nat} (small : value < 2 ^ 32) : toU32 value = some value :=
  if_pos small

/-! ### The reversal buffer -/

/-- With room for every label and a dot before each, the buffer is never left. -/
theorem reverseLabels_total {labels : List (List UInt8)} {out : List UInt8}
    (fits : out.length + (labels.flatMap (DOT :: ·)).length ≤ 256) :
    ∃ result, labels.foldlM (fun out label =>
      let out := if out.isEmpty then out else out ++ [DOT]
      if out.length + label.length ≤ 256 then some (out ++ label) else none) out =
      some result := by
  induction labels generalizing out with
  | nil => exact ⟨out, rfl⟩
  | cons label rest ih =>
      rw [List.flatMap_cons, List.length_append, List.length_cons] at fits
      rw [List.foldlM_cons]
      have dotted : (if out.isEmpty then out else out ++ [DOT]).length ≤ out.length + 1 := by
        split
        · exact Nat.le_succ _
        · rw [List.length_append]
          exact Nat.le_refl _
      dsimp only
      rw [if_pos (by omega)]
      simp only [Option.bind_eq_bind, Option.bind_some]
      apply ih
      rw [List.length_append]
      omega

/-- Any bytes of at most the buffer's size can be written label by label. -/
theorem reverseLabelsInto_total {domain : List UInt8} (fits : domain.length ≤ 256) :
    ∃ out, reverseLabelsInto domain = some out := by
  have length := @length_reverseFields _ _ DOT domain
  simp only [reverseLabelsInto]
  simp only [reverseFields] at length
  cases reversed : (domain.splitOn DOT).reverse with
  | nil => exact absurd reversed (by simp)
  | cons first rest =>
      rw [reversed, intercalate_eq_flatMap, List.length_append] at length
      rw [List.foldlM_cons]
      simp only [List.isEmpty_nil, if_true, List.length_nil, Nat.zero_add,
        if_pos (show first.length ≤ 256 by omega), List.nil_append, Option.bind_eq_bind,
        Option.bind_some]
      exact reverseLabels_total (by omega)

/-! ### The key indexes -/

namespace KeyIndex

variable {index : KeyIndex} {entries : List Entry}

/-- The bytes the keys take up. -/
def keyBytes (entries : List Entry) : Nat := (entries.map fun entry => entry.1.length).sum

@[simp] theorem keyBytes_append (front back : List Entry) :
    keyBytes (front ++ back) = keyBytes front + keyBytes back := by
  simp only [keyBytes, List.map_append, List.sum_append]

theorem insert_total {key : List UInt8} (rule : Nat) (room : index.arena.length < 2 ^ 32)
    (short : key.length < 2 ^ 8) :
    ∃ after, index.insert key rule = some after ∧
      after.arena.length = index.arena.length + key.length := by
  refine ⟨{ arena := index.arena ++ key, offs := index.offs ++ [index.arena.length],
            lens := index.lens ++ [key.length], rules := index.rules ++ [rule] }, ?_,
    List.length_append⟩
  simp only [KeyIndex.insert]
  rw [toU32_of_lt room, toU8_of_lt short]
  rfl

theorem place_total {before : Rebuilt} (i : Nat) (key : List UInt8)
    (written : ∀ prev ∈ before.prev, ∃ key, index.key prev.1 = some key)
    (room : before.index.arena.length < 2 ^ 32) :
    ∃ placed, index.place before i key = some placed := by
  simp only [place]
  rw [toU32_of_lt room]
  cases last : before.prev with
  | none => exact ⟨_, rfl⟩
  | some previous =>
      obtain ⟨lastKey, lastFound⟩ := written previous last
      simp only [lastFound, Option.bind_eq_bind, Option.bind_some]
      split
      · exact ⟨_, rfl⟩
      · exact ⟨_, rfl⟩

theorem rebuildStep_total {before : Rebuilt} {i : Nat} {entry : Entry}
    (holds : Holds index entries) (found : entries[i]? = some entry)
    (written : ∀ prev ∈ before.prev, ∃ key, index.key prev.1 = some key)
    (room : before.index.arena.length < 2 ^ 32) :
    ∃ after, index.rebuildStep before i = some after ∧
      after.index.arena.length ≤ before.index.arena.length + entry.1.length ∧
      ∀ prev ∈ after.prev, ∃ key, index.key prev.1 = some key := by
  obtain ⟨placed, ran⟩ := place_total i entry.1 written room
  refine ⟨before.push entry placed, by rw [rebuildStep_eq holds found, ran]; rfl, ?_⟩
  cases place_placed ran with
  | written =>
      refine ⟨Nat.le_of_eq List.length_append, ?_⟩
      intro other member
      cases member
      exact ⟨entry.1, by rw [holds.key, found]; rfl⟩
  | repeated => exact ⟨Nat.le_add_right _ _, written⟩

theorem rebuild_total {order : List Nat} {before : Rebuilt} (holds : Holds index entries)
    (inside : ∀ i ∈ order, i < entries.length)
    (written : ∀ prev ∈ before.prev, ∃ key, index.key prev.1 = some key)
    (room : before.index.arena.length + keyBytes (order.filterMap (entries[·]?)) < 2 ^ 32) :
    ∃ after, order.foldlM index.rebuildStep before = some after := by
  induction order generalizing before with
  | nil => exact ⟨before, rfl⟩
  | cons i rest ih =>
      have found := List.getElem?_eq_getElem (inside i List.mem_cons_self)
      rw [List.filterMap_cons, found] at room
      simp only [keyBytes, List.map_cons, List.sum_cons] at room
      obtain ⟨middle, stepped, shorter, known⟩ :=
        rebuildStep_total holds found written (by omega)
      rw [List.foldlM_cons, stepped]
      simp only [Option.bind_eq_bind, Option.bind_some]
      apply ih (fun j member => inside j (List.mem_cons_of_mem _ member)) known
      simp only [keyBytes]
      omega

theorem finish_total (sort : UnstableSort) (holds : Holds index entries)
    (few : entries.length < 2 ^ 32) (room : keyBytes entries < 2 ^ 32) :
    ∃ after, index.finish sort = some after := by
  have size : index.rules.length = entries.length := by rw [holds.rules, List.length_map]
  have bytes : keyBytes (arranged sort entries) = keyBytes entries :=
    ((arranged_perm sort entries).map _).sum_nat
  rw [← bytes, ← Nat.zero_add (keyBytes _)] at room
  obtain ⟨rebuilt, run⟩ := @rebuild_total _ _ _ Rebuilt.empty holds order_inside
    (fun _ member => by cases member) room
  refine ⟨rebuilt.index, ?_⟩
  simp only [KeyIndex.finish]
  rw [size, toU32_of_lt few]
  simp only [Option.bind_eq_bind, Option.bind_some, holds.keys, run]
  rfl

end KeyIndex

/-! ### Adding rules -/

namespace Store

variable {store : Store} {added : List Added}

theorem shownLen_le (text : Str) : shownLen text ≤ 255 := by
  simp only [shownLen]
  cases found : (List.range (min (len text) 255 + 1)).reverse.find? (isCharBoundary text) with
  | none => exact Nat.zero_le _
  | some size =>
      have inRange := List.mem_of_find?_eq_some found
      rw [List.mem_reverse, List.mem_range] at inRange
      rw [Option.getD_some]
      omega

theorem pushVerbatim_total {id : Nat} {text : Str} (room : len store.verbatim < 2 ^ 32)
    (inOffs : id < store.spanOff.length) (inLens : id < store.spanLen.length) :
    ∃ after, store.pushVerbatim id text = some after ∧
      after.verbatim = store.verbatim ++ text := by
  refine ⟨{ store with
            verbatim := store.verbatim ++ text
            spanOff := store.spanOff.set id (len store.verbatim)
            spanLen := store.spanLen.set id (shownLen text) }, ?_, rfl⟩
  have short := shownLen_le text
  simp only [Store.pushVerbatim, Store.setSpan, setSpanOff, setSpanLen, toU32_of_lt room,
    toU8_of_lt (Nat.lt_succ_of_le short), if_pos inOffs, if_pos inLens, Option.bind_eq_bind,
    Option.bind_some]

theorem Holds.push_total (holds : store.Holds added) (list : Nat) (rule : Rule) (form : Nat)
    (few : added.length < 2 ^ 32) (room : len store.verbatim < 2 ^ 32) :
    ∃ pushed after, store.push list rule.line rule.isExcept form = some (pushed, added.length) ∧
      (if form = FORM_VERBATIM then pushed.pushVerbatim added.length rule.text
        else some pushed) = some after ∧
      len after.verbatim =
        len store.verbatim + if form = FORM_VERBATIM then len rule.text else 0 := by
  have lines : store.lines.length = added.length := by rw [holds.lines, List.length_map]
  let pushed : Store := { store with
    lists := store.lists ++ [list]
    lines := store.lines ++ [rule.line]
    flags := store.flags ++ [packFlags rule.isExcept form]
    spanOff := store.spanOff ++ [0]
    spanLen := store.spanLen ++ [0] }
  have push : store.push list rule.line rule.isExcept form = some (pushed, added.length) := by
    simp only [Store.push]
    rw [lines, toU32_of_lt few]
    rfl
  by_cases verbatim : form = FORM_VERBATIM
  · obtain ⟨after, kept, text⟩ := @pushVerbatim_total pushed added.length rule.text room
      (by simp [pushed, holds.spanOff]) (by simp [pushed, holds.spanLen])
    refine ⟨pushed, after, push, by rw [if_pos verbatim, kept], ?_⟩
    rw [if_pos verbatim, text, len_append]
  · refine ⟨pushed, pushed, push, by rw [if_neg verbatim], ?_⟩
    rw [if_neg verbatim]
    rfl

end Store

/-- The bytes of rule text kept as they stand. -/
def verbatimBytes (added : List Added) : Nat :=
  (added.map fun entry => if entry.rule.form = some FORM_VERBATIM then len entry.rule.text else 0).sum

theorem verbatimBytes_append (front back : List Added) :
    verbatimBytes (front ++ back) = verbatimBytes front + verbatimBytes back := by
  simp only [verbatimBytes, List.map_append, List.sum_append]

/-- Fewer than 2³² rules, and arenas under 4 GiB. -/
structure Limits (added : List Added) : Prop where
  rules : added.length < 2 ^ 32
  exact : KeyIndex.keyBytes (exactEntries added) < 2 ^ 32
  subtree : KeyIndex.keyBytes (subtreeEntries added) < 2 ^ 32
  verbatim : verbatimBytes added < 2 ^ 32

/-- How far the arenas are filled. -/
structure Filled (engine : Engine) (added : List Added) : Prop where
  exact : engine.exact.arena.length = KeyIndex.keyBytes (exactEntries added)
  subtree : engine.subtree.arena.length = KeyIndex.keyBytes (subtreeEntries added)
  verbatim : len engine.store.verbatim = verbatimBytes added

theorem filled_empty : Filled Engine.empty [] := ⟨rfl, rfl, rfl⟩

theorem exactEntries_append (front back : List Added) :
    ∃ more, exactEntries (front ++ back) = exactEntries front ++ more := by
  simp only [exactEntries, collected]
  rw [List.zipIdx_append, List.filterMap_append]
  exact ⟨_, rfl⟩

theorem subtreeEntries_append (front back : List Added) :
    ∃ more, subtreeEntries (front ++ back) = subtreeEntries front ++ more := by
  simp only [subtreeEntries, collected]
  rw [List.zipIdx_append, List.filterMap_append]
  exact ⟨_, rfl⟩

/-- What is within the limits was so at every earlier point. -/
theorem Limits.earlier {front back : List Added} (limits : Limits (front ++ back)) :
    Limits front := by
  have exact := limits.exact
  have subtree := limits.subtree
  have verbatim := limits.verbatim
  have rules := limits.rules
  obtain ⟨moreExact, exactParts⟩ := exactEntries_append front back
  obtain ⟨moreSubtree, subtreeParts⟩ := subtreeEntries_append front back
  rw [exactParts, KeyIndex.keyBytes_append] at exact
  rw [subtreeParts, KeyIndex.keyBytes_append] at subtree
  rw [verbatimBytes_append] at verbatim
  rw [List.length_append] at rules
  exact ⟨by omega, by omega, by omega, by omega⟩

section Add

variable {engine : Engine} {added : List Added} {list : Nat} {rule : Rule}

theorem filled_concat {after : Engine}
    (exact : after.exact.arena.length =
      KeyIndex.keyBytes (exactEntries added) + (rule.exactKey.map List.length).getD 0)
    (subtree : after.subtree.arena.length =
      KeyIndex.keyBytes (subtreeEntries added) + (rule.subtreeKey.map List.length).getD 0)
    (verbatim : len after.store.verbatim =
      verbatimBytes added + if rule.form = some FORM_VERBATIM then len rule.text else 0) :
    Filled after (added ++ [{ list := list, rule := rule }]) where
  exact := by
    rw [exact, exactEntries_concat, KeyIndex.keyBytes_append]
    cases rule.exactKey <;> simp [KeyIndex.keyBytes]
  subtree := by
    rw [subtree, subtreeEntries_concat, KeyIndex.keyBytes_append]
    cases rule.subtreeKey <;> simp [KeyIndex.keyBytes]
  verbatim := by
    rw [verbatim, verbatimBytes_append]
    simp [verbatimBytes]

theorem addSubtree_total (building : Building engine added) (filled : Filled engine added)
    (limits : Limits added) {domain : Str} (pattern : rule.pattern = .Subtree domain)
    (normal : IsDomain domain) :
    ∃ after, engine.addSubtree list rule domain = some after ∧
      Filled after (added ++ [{ list := list, rule := rule }]) := by
  obtain ⟨pushed, store, push, kept, verbatim⟩ := building.store.push_total list rule
    (subtreeForm rule.body domain) limits.rules (by rw [filled.verbatim]; exact limits.verbatim)
  have reversed := reverseLabelsInto_eq (labels_asBytes normal.labels)
    (Nat.le_trans normal.fits (by decide))
  have length : (reverseFields DOT (asBytes domain)).length ≤ 253 := by
    rw [length_reverseFields]
    exact normal.fits
  obtain ⟨subtree, inserted, bytes⟩ := @KeyIndex.insert_total engine.subtree
    (reverseFields DOT (asBytes domain)) added.length
    (by rw [filled.subtree]; exact limits.subtree) (by omega)
  refine ⟨{ engine with store := store, subtree := subtree }, ?_, filled_concat ?_ ?_ ?_⟩
  · unfold Engine.addSubtree
    dsimp only
    rw [push, reversed]
    simp only [Option.bind_eq_bind, Option.bind_some, inserted, subtreeForm_ite, kept]
    rfl
  · rw [Rule.exactKey, pattern]
    exact filled.exact
  · rw [Rule.subtreeKey, pattern, ← filled.subtree]
    exact bytes
  · rw [Rule.form, pattern, ← filled.verbatim]
    simpa using verbatim

theorem addExact_total (building : Building engine added) (filled : Filled engine added)
    (limits : Limits added) {domain : Str} (pattern : rule.pattern = .Exact domain)
    (normal : IsDomain domain) (formed : rule.form.isSome = true) :
    ∃ after, engine.addExact list rule domain = some after ∧
      Filled after (added ++ [{ list := list, rule := rule }]) := by
  obtain ⟨form, found⟩ := Option.isSome_iff_exists.mp formed
  have exactForm : exactForm rule.isExcept rule.body domain = some form := by
    rw [Rule.form, pattern] at found
    exact found
  obtain ⟨pushed, store, push, kept, verbatim⟩ := building.store.push_total list rule form
    limits.rules (by rw [filled.verbatim]; exact limits.verbatim)
  have length : (asBytes domain).length ≤ 253 := normal.fits
  obtain ⟨exact, inserted, bytes⟩ := @KeyIndex.insert_total engine.exact (asBytes domain)
    added.length (by rw [filled.exact]; exact limits.exact) (by omega)
  refine ⟨{ engine with store := store, exact := exact }, ?_, filled_concat ?_ ?_ ?_⟩
  · simp only [Engine.addExact]
    rw [exactForm]
    simp only [Option.bind_eq_bind, Option.bind_some, push, inserted, kept]
    rfl
  · rw [Rule.exactKey, pattern, ← filled.exact]
    exact bytes
  · rw [Rule.subtreeKey, pattern]
    exact filled.subtree
  · rw [found, ← filled.verbatim]
    simpa using verbatim

theorem addWildcard_total (building : Building engine added) (filled : Filled engine added)
    (limits : Limits added) {expr : Str} {includeSubdomains : Bool}
    (pattern : rule.pattern = .Wildcard expr includeSubdomains) :
    ∃ after, engine.addWildcard list rule expr includeSubdomains = some after ∧
      Filled after (added ++ [{ list := list, rule := rule }]) := by
  obtain ⟨pushed, store, push, kept, verbatim⟩ := building.store.push_total list rule
    FORM_VERBATIM limits.rules (by rw [filled.verbatim]; exact limits.verbatim)
  rw [if_pos rfl] at kept
  have few : engine.wildcards.length < 2 ^ 32 := by
    have fewer : engine.wildcards.length ≤ added.length := by
      rw [building.wildcards, collected]
      exact Nat.le_trans (List.length_filterMap_le _ _) (Nat.le_of_eq List.length_zipIdx)
    exact Nat.lt_of_le_of_lt fewer limits.rules
  have exact : engine.exact.arena.length =
      KeyIndex.keyBytes (exactEntries added) + (rule.exactKey.map List.length).getD 0 := by
    rw [Rule.exactKey, pattern]
    exact filled.exact
  have subtree : engine.subtree.arena.length =
      KeyIndex.keyBytes (subtreeEntries added) + (rule.subtreeKey.map List.length).getD 0 := by
    rw [Rule.subtreeKey, pattern]
    exact filled.subtree
  have stored : len store.verbatim =
      verbatimBytes added + if rule.form = some FORM_VERBATIM then len rule.text else 0 := by
    rw [Rule.form, pattern, ← filled.verbatim]
    exact verbatim
  simp only [Engine.addWildcard]
  simp only [Option.bind_eq_bind, push, kept, Option.bind_some, toU32_of_lt few]
  cases wildcardAnchor expr with
  | some anchor => exact ⟨_, rfl, filled_concat exact subtree stored⟩
  | none => exact ⟨_, rfl, filled_concat exact subtree stored⟩

theorem addRule_total (building : Building engine added) (filled : Filled engine added)
    (limits : Limits added) (lists : engine.listCount - 1 < 2 ^ 16)
    (normal : rule.pattern.Normal) (formed : rule.form.isSome = true) :
    ∃ after, engine.addRule rule = some after ∧
      Filled after (added ++ [{ list := engine.listCount - 1, rule := rule }]) := by
  simp only [Engine.addRule]
  rw [toU16_of_lt lists]
  simp only [Option.bind_eq_bind, Option.bind_some]
  cases pattern : rule.pattern with
  | Exact domain =>
      rw [pattern] at normal
      exact addExact_total building filled limits pattern normal formed
  | Subtree domain =>
      rw [pattern] at normal
      exact addSubtree_total building filled limits pattern normal
  | Wildcard expr includeSubdomains =>
      exact addWildcard_total building filled limits pattern

end Add

/-! ### Adding lists -/

section Lists

variable {engine : Engine} {added : List Added}

theorem addRules_total {rules : List Rule} (building : Building engine added)
    (filled : Filled engine added)
    (limits : Limits
      (added ++ rules.map fun rule => { list := engine.listCount - 1, rule := rule }))
    (lists : engine.listCount - 1 < 2 ^ 16) (normal : ∀ rule ∈ rules, rule.pattern.Normal)
    (formed : ∀ rule ∈ rules, rule.form.isSome = true) :
    ∃ after, rules.foldlM Engine.addRule engine = some after ∧
      Filled after
        (added ++ rules.map fun rule => { list := engine.listCount - 1, rule := rule }) := by
  induction rules generalizing engine added with
  | nil => exact ⟨engine, rfl, by simpa using filled⟩
  | cons rule rest ih =>
      have first := normal rule List.mem_cons_self
      obtain ⟨middle, done, more⟩ := addRule_total building filled limits.earlier lists first
        (formed rule List.mem_cons_self)
      obtain ⟨next, count⟩ := addRule_building building first done
      rw [List.map_cons, List.append_cons] at limits ⊢
      obtain ⟨after, run, whole⟩ := ih next more (by rw [count]; exact limits)
        (by rw [count]; exact lists)
        (fun other member => normal other (List.mem_cons_of_mem _ member))
        (fun other member => formed other (List.mem_cons_of_mem _ member))
      rw [count] at whole
      refine ⟨after, ?_, whole⟩
      rw [List.foldlM_cons, done]
      exact run

theorem addListText_total {text : Str} (building : Building engine added)
    (filled : Filled engine added)
    (limits : Limits (added ++ (parseList text).rules.map fun rule =>
      { list := engine.listCount, rule := rule }))
    (lists : engine.listCount < 2 ^ 16) :
    ∃ after, EngineBuilder.addListText engine text = some after ∧
      Filled after (added ++ (parseList text).rules.map fun rule =>
        { list := engine.listCount, rule := rule }) := by
  have sizes : Filled { engine with listCount := engine.listCount + 1 } added :=
    ⟨filled.exact, filled.subtree, filled.verbatim⟩
  simp only [EngineBuilder.addListText, Engine.beginList]
  rw [toU16_of_lt lists]
  exact addRules_total building.begin sizes limits lists (parseList_normal text) (parseList_formed text)

theorem addListTexts_total {texts : List Str} (building : Building engine added)
    (filled : Filled engine added)
    (limits : Limits (added ++ (texts.zipIdx engine.listCount).flatMap fun text =>
      (parseList text.1).rules.map fun rule => { list := text.2, rule := rule }))
    (lists : engine.listCount + texts.length ≤ 2 ^ 16) :
    ∃ after, texts.foldlM EngineBuilder.addListText engine = some after ∧
      Filled after (added ++ (texts.zipIdx engine.listCount).flatMap fun text =>
        (parseList text.1).rules.map fun rule => { list := text.2, rule := rule }) := by
  induction texts generalizing engine added with
  | nil => exact ⟨engine, rfl, by simpa using filled⟩
  | cons text rest ih =>
      rw [List.zipIdx_cons, List.flatMap_cons, ← List.append_assoc] at limits ⊢
      rw [List.length_cons] at lists
      obtain ⟨middle, done, more⟩ := addListText_total building filled limits.earlier (by omega)
      obtain ⟨next, count⟩ := addListText_building building done
      obtain ⟨after, run, whole⟩ := ih next more (by rw [count]; exact limits) (by omega)
      rw [count] at whole
      refine ⟨after, ?_, whole⟩
      rw [List.foldlM_cons, done]
      exact run

end Lists

/-! ### Compiling -/

section Finish

variable {store : Store} {added : List Added} {calls : List (Nat × Nat)} {isForm : Nat → Bool}

theorem form_total (holds : store.flags.length = added.length) {id : Nat}
    (bound : id < added.length) : ∃ form, store.form id = some form := by
  rw [Store.form, List.getElem?_eq_getElem (by rw [holds]; exact bound)]
  exact ⟨_, rfl⟩

/-- A pass that can take every call while an invariant holds takes them all. -/
theorem pass_total {pass : Store → Nat × Nat → Option Store} {invariant : Store → Prop}
    {known : Nat × Nat → Prop}
    (each : ∀ store call, invariant store → known call →
      ∃ after, pass store call = some after ∧ invariant after)
    (holds : invariant store) (all : ∀ call ∈ calls, known call) :
    ∃ after, calls.foldlM pass store = some after := by
  induction calls generalizing store with
  | nil => exact ⟨store, rfl⟩
  | cons call rest ih =>
      obtain ⟨middle, first, next⟩ := each store call holds (all call List.mem_cons_self)
      obtain ⟨after, later⟩ := ih next fun other member => all other (List.mem_cons_of_mem _ member)
      exact ⟨after, by rw [List.foldlM_cons, first]; exact later⟩

theorem relocate_total (flags : store.flags.length = added.length)
    (spans : store.spanOff.length = added.length)
    (known : ∀ call ∈ calls, call.1 < added.length) :
    ∃ after, calls.foldlM (Engine.relocate isForm) store = some after := by
  have each : ∀ (store : Store) (call : Nat × Nat),
      store.flags.length = added.length ∧ store.spanOff.length = added.length →
      call.1 < added.length →
      ∃ after, Engine.relocate isForm store call = some after ∧
        after.flags.length = added.length ∧ after.spanOff.length = added.length := by
    intro store call sizes bound
    obtain ⟨form, found⟩ := form_total sizes.1 bound
    rw [Engine.relocate, found]
    simp only [Option.bind_eq_bind, Option.bind_some]
    split
    · rw [Store.setSpanOff, if_pos (by rw [sizes.2]; exact bound)]
      exact ⟨_, rfl, sizes.1, by rw [List.length_set]; exact sizes.2⟩
    · exact ⟨store, rfl, sizes⟩
  exact pass_total each ⟨flags, spans⟩ known

theorem measure_total (flags : store.flags.length = added.length)
    (spans : store.spanLen.length = added.length)
    (known : ∀ call ∈ calls, call.1 < added.length) :
    ∃ after, calls.foldlM (Engine.measure isForm) store = some after := by
  have each : ∀ (store : Store) (call : Nat × Nat),
      store.flags.length = added.length ∧ store.spanLen.length = added.length →
      call.1 < added.length →
      ∃ after, Engine.measure isForm store call = some after ∧
        after.flags.length = added.length ∧ after.spanLen.length = added.length := by
    intro store call sizes bound
    obtain ⟨form, found⟩ := form_total sizes.1 bound
    rw [Engine.measure, found]
    simp only [Option.bind_eq_bind, Option.bind_some]
    split
    · rw [Store.setSpanLen, if_pos (by rw [sizes.2]; exact bound)]
      exact ⟨_, rfl, sizes.1, by rw [List.length_set]; exact sizes.2⟩
    · exact ⟨store, rfl, sizes⟩
  exact pass_total each ⟨flags, spans⟩ known

end Finish

/-- The ids an index holds are those of added rules. -/
theorem collected_bound {collect : Rule → Option (List UInt8)} {added : List Added}
    {entry : KeyIndex.Entry}
    (member : entry ∈ collected (fun rule id => (collect rule).map (·, id)) added) :
    entry.2 < added.length := by
  obtain ⟨id, _, present, collects⟩ := mem_collected.mp member
  obtain ⟨_, _, same⟩ := Option.map_eq_some_iff.mp collects
  rw [← same]
  exact (List.getElem?_eq_some_iff.mp present).1

theorem length_collected_le {α : Type} {collect : Rule → Nat → Option α} {added : List Added} :
    (collected collect added).length ≤ added.length :=
  Nat.le_trans (List.length_filterMap_le _ _) (Nat.le_of_eq List.length_zipIdx)

/-- Every call a finished index makes names an added rule. -/
theorem calls_bound {index : KeyIndex} {added : List Added}
    {collect : Rule → Option (List UInt8)}
    (sorted : Sorted index (collected (fun rule id => (collect rule).map (·, id)) added)) :
    (∀ call ∈ index.relocations, call.1 < added.length) ∧
      ∀ call ∈ index.rules.zip index.lens, call.1 < added.length := by
  obtain ⟨entries, holds, perm, _⟩ := sorted
  constructor
  · intro call called
    obtain ⟨key, member, _⟩ := @KeyIndex.Holds.relocated _ _ call.1 holds call.2 called
    exact collected_bound (perm.mem_iff.mp member)
  · intro call called
    obtain ⟨key, member, _⟩ := @KeyIndex.Holds.measured _ _ call.1 holds call.2 called
    exact collected_bound (perm.mem_iff.mp member)

theorem finish_total (sort : UnstableSort) {engine : Engine} {added : List Added}
    (building : Building engine added) (limits : Limits added) :
    ∃ after, engine.finish sort = some after := by
  have few : ∀ {α : Type} (collect : Rule → Nat → Option α),
      (collected collect added).length < 2 ^ 32 :=
    fun collect => Nat.lt_of_le_of_lt length_collected_le limits.rules
  obtain ⟨subtree, subtreeDone⟩ :=
    KeyIndex.finish_total sort building.subtree (few _) limits.subtree
  obtain ⟨exact, exactDone⟩ := KeyIndex.finish_total sort building.exact (few _) limits.exact
  obtain ⟨subtreeMoves, subtreeSizes⟩ :=
    calls_bound (KeyIndex.finish_holds building.subtree subtreeDone)
  obtain ⟨exactMoves, exactSizes⟩ := calls_bound (KeyIndex.finish_holds building.exact exactDone)
  have stored := building.store
  obtain ⟨store₁, run₁⟩ := @relocate_total engine.store _ _ isSubtreeForm
    stored.flagsLength stored.spanOff subtreeMoves
  have moved₁ := relocate_run run₁
  obtain ⟨store₂, run₂⟩ := @relocate_total store₁ _ _ isExactForm
    (by rw [moved₁]; exact stored.flagsLength)
    (by rw [moved₁]; dsimp only; rw [length_foldl_setMarked, stored.spanOff]) exactMoves
  have moved₂ := relocate_run run₂
  obtain ⟨store₃, run₃⟩ := @measure_total store₂ _ _ isSubtreeForm
    (by rw [moved₂, moved₁]; exact stored.flagsLength)
    (by rw [moved₂, moved₁]; exact stored.spanLen) subtreeSizes
  have moved₃ := measure_run run₃
  obtain ⟨store₄, run₄⟩ := @measure_total store₃ _ _ isExactForm
    (by rw [moved₃, moved₂, moved₁]; exact stored.flagsLength)
    (by
      rw [moved₃]
      dsimp only
      rw [length_foldl_setMarked, moved₂, moved₁]
      exact stored.spanLen) exactSizes
  refine ⟨{ engine with store := store₄, subtree := subtree, exact := exact }, ?_⟩
  simp only [Engine.finish]
  simp only [Option.bind_eq_bind, subtreeDone, Option.bind_some, run₁, exactDone, run₂, run₃, run₄]
  rfl

/-! ### Verdicts -/

section Verdict

variable {engine : Engine} {added : List Added}

theorem search_total (compiled : Compiled engine added) {name : Str} (fits : len name ≤ 253) :
    ∃ ids : List Nat, engine.search name = ids.foldlM (consider engine.store) none ∧
      ∀ id ∈ ids, id < added.length := by
  obtain ⟨exact, exactFound, exactMembers⟩ := compiled.exact.equalRange (asBytes name)
  obtain ⟨rev, reversed⟩ := @reverseLabelsInto_total (asBytes name)
    (Nat.le_trans fits (by decide))
  choose below belowFound belowMembers using fun stop =>
    compiled.subtree.equalRange (rev.take stop)
  obtain ⟨wild, wildFound, wildMembers⟩ := @wildcard_candidates _ _ name compiled
  refine ⟨exact ++ (boundaries rev).flatMap below ++ wild, ?_, ?_⟩
  · exact search_eq exactFound reversed belowFound wildFound
  · intro id member
    rcases List.mem_append.mp member with keyed | wildcard
    · rcases List.mem_append.mp keyed with inExact | inSubtree
      · exact collected_bound ((exactMembers id).mp inExact)
      · obtain ⟨stop, _, found⟩ := List.mem_flatMap.mp inSubtree
        exact collected_bound ((belowMembers stop id).mp found)
    · obtain ⟨entry, _, _, present, _⟩ := (wildMembers id).mp wildcard
      exact (List.getElem?_eq_some_iff.mp present).1

theorem verdict_total (compiled : Compiled engine added) (query : Str) :
    ∃ verdict, engine.verdict query = some verdict := by
  unfold Engine.verdict
  dsimp only
  split
  · exact ⟨_, rfl⟩
  · next shape =>
    simp only [Bool.or_eq_true, decide_eq_true_eq, not_or] at shape
    obtain ⟨ids, searched, known⟩ := search_total compiled (show len (queryName query) ≤ 253 by omega)
    let excepted := fun id : Nat => (added[id]?).any fun entry => entry.rule.isExcept
    have flags : ∀ id ∈ ids, engine.store.isExcept id = some (excepted id) := by
      intro id member
      have present := List.getElem?_eq_getElem (known id member)
      simp only [excepted, present, Option.any_some, compiled.store.isExcept present]
    have reported : ∀ id ∈ ids, ∃ hit, engine.matched id = some hit := by
      intro id member
      obtain ⟨text, found⟩ := matched_eq compiled (List.getElem?_eq_getElem (known id member))
      exact ⟨_, found⟩
    rw [searched, scan_eq flags]
    cases found : ids.find? excepted with
    | some id =>
        obtain ⟨hit, matched⟩ := reported id (List.mem_of_find?_eq_some found)
        refine ⟨.Except hit.1 hit.2, ?_⟩
        change ((engine.matched id).bind fun hit => some (Verdict.Except hit.1 hit.2)) = _
        rw [matched]
        rfl
    | none =>
        cases ids with
        | nil => exact ⟨.NoMatch, rfl⟩
        | cons id rest =>
            obtain ⟨hit, matched⟩ := reported id List.mem_cons_self
            refine ⟨.Block hit.1 hit.2, ?_⟩
            change ((engine.matched id).bind fun hit => some (Verdict.Block hit.1 hit.2)) = _
            rw [matched]
            rfl

end Verdict

/-- An engine built from lists. -/
structure LoadedEngine where
  engine : Engine
  compiled : ∃ added, Compiled engine added

namespace LoadedEngine

def load (sort : UnstableSort) (texts : List Str) : Option LoadedEngine :=
  match loaded : EngineBuilder.load sort texts with
  | some engine => some { engine, compiled := ⟨_, load_compiled loaded⟩ }
  | none => none

theorem verdict_isSome (loaded : LoadedEngine) (query : Str) :
    (loaded.engine.verdict query).isSome = true := by
  obtain ⟨_, compiled⟩ := loaded.compiled
  obtain ⟨verdict, found⟩ := verdict_total compiled query
  rw [found]
  rfl

def verdict (loaded : LoadedEngine) (query : Str) : Verdict :=
  (loaded.engine.verdict query).get (loaded.verdict_isSome query)

theorem kind_of_load {sort : UnstableSort} {texts : List Str} {loaded : LoadedEngine}
    (done : load sort texts = some loaded) (query : Str)
    (labels : queryName query = [] ∨ ∀ label ∈ (queryName query).splitOn '.', label ≠ []) :
    (loaded.verdict query).kind = referenceVerdict (parsedRules texts) query := by
  simp only [load] at done
  split at done
  · next engine built =>
    cases done
    obtain ⟨verdict, found, kind, _⟩ := compiled_verdict (load_compiled built) query labels
    simp only [LoadedEngine.verdict, found, Option.get_some]
    exact kind
  · cases done

end LoadedEngine

/-! ### Slices -/

/-- `rest` is what follows some byte offset of `text`: the slice the source takes is on a
character boundary. -/
def Sliced (text rest : Str) : Prop := ∃ offset front, splitAtByte text offset = some (front, rest)

theorem sliced_append (front rest : Str) : Sliced (front ++ rest) rest :=
  ⟨len front, front, splitAtByte_append front rest⟩

theorem afterFirst_sliced {sep : Char} {text rest : Str} (found : afterFirst sep text = some rest) :
    Sliced text rest := by
  obtain ⟨front, whole⟩ := afterFirst_eq found
  rw [whole, List.append_cons]
  exact sliced_append _ _

theorem afterLast_sliced {sep : Char} {text rest : Str} (found : afterLast sep text = some rest) :
    Sliced text rest := by
  obtain ⟨front, whole, _⟩ := afterLast_eq found
  rw [whole, List.append_cons]
  exact sliced_append _ _

theorem labelSuffixes_sliced {name suffix : Str} (member : suffix ∈ labelSuffixes name) :
    Sliced name suffix := by
  obtain ⟨front, whole⟩ := mem_labelSuffixes.mp member
  rw [← whole, List.append_cons]
  exact sliced_append _ _

theorem comment_sliced {line : Str} (marked : ['#', '#'] <+: line) :
    splitAtByte line 2 = some (['#', '#'], line.drop 2) := by
  obtain ⟨rest, whole⟩ := marked
  rw [← whole]
  exact splitAtByte_append ['#', '#'] rest

/-- Within the limits every list is added and compiled. -/
theorem load_total (sort : UnstableSort) {texts : List Str} (lists : texts.length ≤ 65536)
    (limits : Limits (addedRules texts)) : ∃ engine, EngineBuilder.load sort texts = some engine := by
  obtain ⟨built, added, _⟩ := @addListTexts_total Engine.empty [] texts building_empty
    filled_empty limits (by simpa [Engine.empty] using lists)
  have building := addListTexts_building building_empty added
  obtain ⟨engine, finished⟩ := finish_total sort building limits
  refine ⟨engine, ?_⟩
  simp only [EngineBuilder.load]
  rw [added]
  exact finished

/-- Within the limits no step of the filter panics: every list is added and compiled,
every query string has a verdict, and the slices taken on the way — after the `##` of a
line, after the last star and the first dot of a wildcard, and at each label boundary of a
name — are on character boundaries. -/
theorem filter_panic_free (sort : UnstableSort) (texts : List Str) (lists : texts.length ≤ 65536)
    (limits : Limits (addedRules texts)) :
    (∃ engine, EngineBuilder.load sort texts = some engine ∧
      ∀ query, ∃ verdict, engine.verdict query = some verdict) ∧
      (∀ line : Str, ['#', '#'] <+: line → splitAtByte line 2 = some (['#', '#'], line.drop 2)) ∧
      (∀ expr tail : Str, afterLast '*' expr = some tail → Sliced expr tail ∧
        ∀ anchor, afterFirst '.' tail = some anchor → Sliced tail anchor) ∧
      ∀ name suffix : Str, suffix ∈ labelSuffixes name → Sliced name suffix := by
  refine ⟨?_, fun _ => comment_sliced, ?_, fun _ _ => labelSuffixes_sliced⟩
  · obtain ⟨engine, loaded⟩ := load_total sort lists limits
    exact ⟨engine, loaded, verdict_total (load_compiled loaded)⟩
  · intro expr tail found
    exact ⟨afterLast_sliced found, fun _ first => afterFirst_sliced first⟩

/-- A list with a hosts line, and names with an empty label or no ASCII at all. -/
theorem hosts_list_panic_free :
    ∃ engine, EngineBuilder.load .insertion ["0.0.0.0 ads.com # é\n||t.net^".toList] = some engine ∧
      (∃ verdict, engine.verdict "a..ads.com".toList = some verdict) ∧
      ∃ verdict, engine.verdict "é*".toList = some verdict := by
  have limits : Limits (addedRules ["0.0.0.0 ads.com # é\n||t.net^".toList]) :=
    ⟨by decide, by decide, by decide, by decide⟩
  obtain ⟨⟨engine, loaded, total⟩, _⟩ := filter_panic_free .insertion _ (by decide) limits
  exact ⟨engine, loaded, total _, total _⟩

end Sumidero.Filter
