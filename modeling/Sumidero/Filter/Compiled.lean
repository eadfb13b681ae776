import Sumidero.Filter.Building

namespace Sumidero.Filter

open Text Data

/-! The engine once it is compiled: sorted indexes, and a text span for every rule. -/

/-! ### Moving spans -/

section Marked

variable {marked : Nat → Bool} {calls : List (Nat × Nat)} {values : List Nat} {id : Nat}

def setMarked (marked : Nat → Bool) (values : List Nat) (call : Nat × Nat) : List Nat :=
  if marked call.1 then values.set call.1 call.2 else values

theorem length_setMarked (call : Nat × Nat) :
    (setMarked marked values call).length = values.length := by
  simp only [setMarked]
  split
  · exact List.length_set
  · rfl

theorem length_foldl_setMarked :
    (calls.foldl (setMarked marked) values).length = values.length := by
  induction calls generalizing values with
  | nil => rfl
  | cons call rest ih => rw [List.foldl_cons, ih, length_setMarked]

theorem foldl_setMarked_kept (untouched : marked id = true → ∀ value, (id, value) ∉ calls) :
    (calls.foldl (setMarked marked) values)[id]? = values[id]? := by
  induction calls generalizing values with
  | nil => rfl
  | cons call rest ih =>
      rw [List.foldl_cons,
        ih fun mark value member => untouched mark value (List.mem_cons_of_mem _ member)]
      simp only [setMarked]
      split
      · next mark =>
        apply List.getElem?_set_ne
        intro same
        subst same
        exact untouched mark call.2 List.mem_cons_self
      · rfl

/-- What is marked and called for gets one of the values it is called with. -/
theorem foldl_setMarked_moved (mark : marked id = true) (bound : id < values.length)
    (called : ∃ value, (id, value) ∈ calls) :
    ∃ value, (id, value) ∈ calls ∧
      (calls.foldl (setMarked marked) values)[id]? = some value := by
  induction calls generalizing values with
  | nil =>
      obtain ⟨value, member⟩ := called
      cases member
  | cons call rest ih =>
      by_cases later : ∃ value, (id, value) ∈ rest
      · obtain ⟨value, member, moved⟩ :=
          ih (show id < (setMarked marked values call).length by rwa [length_setMarked]) later
        exact ⟨value, List.mem_cons_of_mem _ member, moved⟩
      · obtain ⟨value, member⟩ := called
        rcases List.mem_cons.mp member with here | inRest
        · subst here
          refine ⟨value, List.mem_cons_self, ?_⟩
          rw [List.foldl_cons, foldl_setMarked_kept fun _ other inside => later ⟨other, inside⟩]
          simp only [setMarked]
          rw [if_pos mark]
          exact List.getElem?_set_self bound
        · exact absurd ⟨value, inRest⟩ later

end Marked

section Finish

variable {store after : Store} {isForm : Nat → Bool} {calls : List (Nat × Nat)}

/-- The rules whose text is rebuilt from the index at hand. -/
def Store.canonical (store : Store) (isForm : Nat → Bool) (id : Nat) : Bool :=
  (store.form id).any isForm

theorem relocate_some {call : Nat × Nat}
    (relocated : Engine.relocate isForm store call = some after) :
    after = { store with spanOff := setMarked (store.canonical isForm) store.spanOff call } := by
  simp only [Engine.relocate] at relocated
  obtain ⟨form, found, relocated⟩ := Option.bind_eq_some_iff.mp relocated
  unfold setMarked Store.canonical
  rw [found, Option.any_some]
  split at relocated
  · next mark =>
    rw [if_pos mark]
    simp only [Store.setSpanOff] at relocated
    split at relocated
    · exact (Option.some.inj relocated).symm
    · cases relocated
  · next mark =>
    rw [if_neg mark]
    exact (Option.some.inj relocated).symm

theorem measure_some {call : Nat × Nat}
    (measured : Engine.measure isForm store call = some after) :
    after = { store with spanLen := setMarked (store.canonical isForm) store.spanLen call } := by
  simp only [Engine.measure] at measured
  obtain ⟨form, found, measured⟩ := Option.bind_eq_some_iff.mp measured
  unfold setMarked Store.canonical
  rw [found, Option.any_some]
  split at measured
  · next mark =>
    rw [if_pos mark]
    simp only [Store.setSpanLen] at measured
    split at measured
    · exact (Option.some.inj measured).symm
    · cases measured
  · next mark =>
    rw [if_neg mark]
    exact (Option.some.inj measured).symm

theorem relocate_run (run : calls.foldlM (Engine.relocate isForm) store = some after) :
    after = { store with
      spanOff := calls.foldl (setMarked (store.canonical isForm)) store.spanOff } := by
  induction calls generalizing store with
  | nil =>
      cases run
      rfl
  | cons call rest ih =>
      rw [List.foldlM_cons] at run
      obtain ⟨middle, first, run⟩ := Option.bind_eq_some_iff.mp run
      rw [ih run, relocate_some first]
      rfl

theorem measure_run (run : calls.foldlM (Engine.measure isForm) store = some after) :
    after = { store with
      spanLen := calls.foldl (setMarked (store.canonical isForm)) store.spanLen } := by
  induction calls generalizing store with
  | nil =>
      cases run
      rfl
  | cons call rest ih =>
      rw [List.foldlM_cons] at run
      obtain ⟨middle, first, run⟩ := Option.bind_eq_some_iff.mp run
      rw [ih run, measure_some first]
      rfl

end Finish

/-! ### The calls of a finished index -/

namespace KeyIndex

variable {index : KeyIndex} {entries : List Entry} {id : Nat} {key : List UInt8}

theorem Holds.relocated (holds : Holds index entries) {off : Nat}
    (called : (id, off) ∈ index.relocations) :
    ∃ key, (key, id) ∈ entries ∧ At index.arena off key := by
  have sameLength := holds.offs.length_eq
  simp only [KeyIndex.relocations] at called
  rw [holds.rules] at called
  obtain ⟨i, bound, same⟩ := List.getElem_of_mem called
  simp only [List.length_zip, List.length_map] at bound
  rw [List.getElem_zip, List.getElem_map] at same
  obtain ⟨rfl, rfl⟩ := Prod.mk.inj same
  have standing := holds.offs.get (by omega) (show i < entries.length by omega)
  exact ⟨_, List.getElem_mem (by omega), standing⟩

theorem Holds.relocates (holds : Holds index entries) (member : (key, id) ∈ entries) :
    ∃ off, (id, off) ∈ index.relocations := by
  have sameLength := holds.offs.length_eq
  simp only [KeyIndex.relocations]
  rw [holds.rules]
  obtain ⟨i, bound, same⟩ := List.getElem_of_mem member
  refine ⟨index.offs[i], ?_⟩
  rw [List.mem_iff_getElem]
  refine ⟨i, by simp only [List.length_zip, List.length_map]; omega, ?_⟩
  rw [List.getElem_zip, List.getElem_map, same]

theorem Holds.zip_lens (holds : Holds index entries) :
    index.rules.zip index.lens = entries.map fun entry => (entry.2, entry.1.length) := by
  rw [holds.rules, holds.lens]
  exact List.zip_map' ..

theorem Holds.measured (holds : Holds index entries) {size : Nat}
    (called : (id, size) ∈ index.rules.zip index.lens) :
    ∃ key, (key, id) ∈ entries ∧ size = key.length := by
  rw [holds.zip_lens] at called
  obtain ⟨entry, inside, same⟩ := List.mem_map.mp called
  obtain ⟨rfl, rfl⟩ := Prod.mk.inj same
  exact ⟨entry.1, inside, rfl⟩

theorem Holds.measures (holds : Holds index entries) (member : (key, id) ∈ entries) :
    ∃ size, (id, size) ∈ index.rules.zip index.lens := by
  rw [holds.zip_lens]
  exact ⟨_, List.mem_map_of_mem member⟩

end KeyIndex

/-! ### Compiling -/

/-- An index that holds the entries in key order. -/
def Sorted (index : KeyIndex) (entries : List KeyIndex.Entry) : Prop :=
  ∃ sorted, index.Holds sorted ∧ sorted.Perm entries ∧ sorted.Pairwise fun a b => a.1 ≤ b.1

/-- The span of a rule is its key in the index. -/
def Spanned (store : Store) (index : KeyIndex) (id : Nat) (key : List UInt8) : Prop :=
  ∃ off, store.spanOff[id]? = some off ∧ store.spanLen[id]? = some key.length ∧
    KeyIndex.At index.arena off key

structure Compiled (engine : Engine) (added : List Added) : Prop where
  store : engine.store.Holds added
  exact : Sorted engine.exact (exactEntries added)
  subtree : Sorted engine.subtree (subtreeEntries added)
  wildcards : engine.wildcards = collected Rule.wildcard added
  bucketed : Bucketed engine
  normal : ∀ entry ∈ added, entry.rule.pattern.Normal
  exactSpans : ∀ (id : Nat) (entry : Added) (form : Nat) (key : List UInt8),
    added[id]? = some entry → entry.rule.form = some form → Engine.isExactForm form = true →
    entry.rule.exactKey = some key → Spanned engine.store engine.exact id key
  subtreeSpans : ∀ (id : Nat) (entry : Added) (form : Nat) (key : List UInt8),
    added[id]? = some entry → entry.rule.form = some form → Engine.isSubtreeForm form = true →
    entry.rule.subtreeKey = some key → Spanned engine.store engine.subtree id key

theorem Sorted.equalRange {index : KeyIndex} {entries : List KeyIndex.Entry}
    (sorted : Sorted index entries) (needle : List UInt8) :
    ∃ ids, index.equalRange needle = some ids ∧ ∀ id, id ∈ ids ↔ (needle, id) ∈ entries := by
  obtain ⟨arranged, holds, perm, ordered⟩ := sorted
  refine ⟨_, KeyIndex.equalRange_holds holds ordered needle, fun id => ?_⟩
  rw [List.mem_map]
  constructor
  · intro given
    obtain ⟨⟨key, rule⟩, member, same⟩ := given
    obtain ⟨inside, equal⟩ := List.mem_filter.mp member
    obtain rfl : key = needle := by simpa using equal
    obtain rfl : rule = id := same
    exact perm.mem_iff.mp inside
  · intro member
    exact ⟨(needle, id), List.mem_filter.mpr ⟨perm.mem_iff.mpr member, by simp⟩, rfl⟩

section Spans

variable {store : Store} {added : List Added} {index : KeyIndex} {collect : Rule → Option (List UInt8)}
  {isForm : Nat → Bool}

/-- Following the keys of a finished index, and then their lengths, leaves the span
of every canonical rule on its key. -/
theorem spanned_of_followed (holds : store.Holds added)
    (sorted : Sorted index (collected (fun rule id => (collect rule).map (·, id)) added))
    {id : Nat} {entry : Added} {form : Nat} {key : List UInt8} (found : added[id]? = some entry)
    (formed : entry.rule.form = some form) (canonical : isForm form = true)
    (keyed : collect entry.rule = some key) {offs lens : List Nat}
    (offsLength : offs.length = added.length) (lensLength : lens.length = added.length) :
    ∃ off, (index.relocations.foldl (setMarked (store.canonical isForm)) offs)[id]? = some off ∧
      ((index.rules.zip index.lens).foldl (setMarked (store.canonical isForm)) lens)[id]? =
        some key.length ∧
      KeyIndex.At index.arena off key := by
  obtain ⟨entries, indexed, perm, _⟩ := sorted
  have bound := (List.getElem?_eq_some_iff.mp found).1
  have mark : store.canonical isForm id = true := by
    rw [Store.canonical, holds.form found, formed]
    exact canonical
  have inside : (key, id) ∈ entries :=
    perm.mem_iff.mpr (mem_collected.mpr ⟨id, entry, found, by rw [keyed]; rfl⟩)
  have unique : ∀ other, (other, id) ∈ entries → other = key := by
    intro other member
    obtain ⟨position, its, present, collects⟩ := mem_collected.mp (perm.mem_iff.mp member)
    obtain ⟨_, itsKey, same⟩ := Option.map_eq_some_iff.mp collects
    cases same
    rw [found] at present
    cases present
    rw [keyed] at itsKey
    exact (Option.some.inj itsKey).symm
  obtain ⟨off, called, moved⟩ := foldl_setMarked_moved mark (by rw [offsLength]; exact bound)
    (indexed.relocates inside)
  obtain ⟨size, sized, measured⟩ := foldl_setMarked_moved mark (by rw [lensLength]; exact bound)
    (indexed.measures inside)
  obtain ⟨other, member, standing⟩ := indexed.relocated called
  obtain ⟨another, itsMember, length⟩ := indexed.measured sized
  rw [unique other member] at standing
  rw [unique another itsMember] at length
  exact ⟨off, moved, length ▸ measured, standing⟩

theorem canonical_false (holds : store.Holds added) {id : Nat} {entry : Added} {form : Nat}
    (found : added[id]? = some entry) (formed : entry.rule.form = some form)
    (other : isForm form = false) : ¬ store.canonical isForm id = true := by
  rw [Store.canonical, holds.form found, formed, Option.any_some, other]
  exact Bool.false_ne_true

end Spans

theorem isExactForm_of_isSubtreeForm {form : Nat} (subtree : Engine.isSubtreeForm form = true) :
    Engine.isExactForm form = false := by
  rw [Engine.isSubtreeForm, beq_iff_eq] at subtree
  rw [subtree]
  rfl

/-- The spans once both finished indexes have been followed, their lengths included. -/
def Store.following (store : Store) (subtree exact : KeyIndex) : Store :=
  { store with
    spanOff := exact.relocations.foldl (setMarked (store.canonical Engine.isExactForm))
      (subtree.relocations.foldl (setMarked (store.canonical Engine.isSubtreeForm)) store.spanOff)
    spanLen := (exact.rules.zip exact.lens).foldl
      (setMarked (store.canonical Engine.isExactForm))
      ((subtree.rules.zip subtree.lens).foldl
        (setMarked (store.canonical Engine.isSubtreeForm)) store.spanLen) }

/-- Compiling finishes both indexes and follows them in the store. -/
theorem finish_eq {sort : UnstableSort} {engine after : Engine}
    (finished : engine.finish sort = some after) :
    ∃ subtree exact, engine.subtree.finish sort = some subtree ∧
      engine.exact.finish sort = some exact ∧
      after = { engine with store := engine.store.following subtree exact, subtree, exact } := by
  simp only [Engine.finish] at finished
  obtain ⟨subtree, subtreeDone, finished⟩ := Option.bind_eq_some_iff.mp finished
  obtain ⟨store₁, run₁, finished⟩ := Option.bind_eq_some_iff.mp finished
  obtain ⟨exact, exactDone, finished⟩ := Option.bind_eq_some_iff.mp finished
  obtain ⟨store₂, run₂, finished⟩ := Option.bind_eq_some_iff.mp finished
  obtain ⟨store₃, run₃, finished⟩ := Option.bind_eq_some_iff.mp finished
  obtain ⟨store₄, run₄, finished⟩ := Option.bind_eq_some_iff.mp finished
  cases finished
  refine ⟨subtree, exact, subtreeDone, exactDone, ?_⟩
  rw [measure_run run₄, measure_run run₃, relocate_run run₂, relocate_run run₁]
  rfl

theorem following_verbatim {store : Store} {added : List Added} (holds : store.Holds added)
    {id : Nat} {entry : Added} (found : added[id]? = some entry)
    (verbatim : entry.rule.form = some FORM_VERBATIM) (subtree exact : KeyIndex) :
    (store.following subtree exact).spanOff[id]? = store.spanOff[id]? ∧
      (store.following subtree exact).spanLen[id]? = store.spanLen[id]? := by
  have notExact := canonical_false holds found verbatim
    (show Engine.isExactForm FORM_VERBATIM = false from rfl)
  have notSubtree := canonical_false holds found verbatim
    (show Engine.isSubtreeForm FORM_VERBATIM = false from rfl)
  constructor
  · dsimp only [Store.following]
    rw [foldl_setMarked_kept fun mark => absurd mark notExact,
      foldl_setMarked_kept fun mark => absurd mark notSubtree]
  · dsimp only [Store.following]
    rw [foldl_setMarked_kept fun mark => absurd mark notExact,
      foldl_setMarked_kept fun mark => absurd mark notSubtree]

theorem following_holds {store : Store} {added : List Added} (holds : store.Holds added)
    (subtree exact : KeyIndex) : (store.following subtree exact).Holds added := by
  refine ⟨holds.lists, holds.lines, holds.flagsLength, holds.flags, ?_, ?_, ?_⟩
  · dsimp only [Store.following]
    rw [length_foldl_setMarked, length_foldl_setMarked, holds.spanOff]
  · dsimp only [Store.following]
    rw [length_foldl_setMarked, length_foldl_setMarked, holds.spanLen]
  · intro id entry found formed
    obtain ⟨off, size, offFound, sizeFound, shown⟩ := holds.verbatim id entry found formed
    obtain ⟨offKept, sizeKept⟩ := following_verbatim holds found formed subtree exact
    exact ⟨off, size, offKept.trans offFound, sizeKept.trans sizeFound, shown⟩

theorem finish_compiled {sort : UnstableSort} {engine after : Engine} {added : List Added}
    (building : Building engine added) (finished : engine.finish sort = some after) :
    Compiled after added := by
  obtain ⟨subtree, exact, subtreeDone, exactDone, rfl⟩ := finish_eq finished
  have stored := building.store
  have subtreeSorted : Sorted subtree (subtreeEntries added) :=
    KeyIndex.finish_holds building.subtree subtreeDone
  have exactSorted : Sorted exact (exactEntries added) :=
    KeyIndex.finish_holds building.exact exactDone
  refine ⟨following_holds stored subtree exact, exactSorted, subtreeSorted, building.wildcards,
    building.bucketed.of_same rfl rfl rfl, building.normal, ?_, ?_⟩
  · intro id entry form key found formed canonical keyed
    obtain ⟨off, moved, measured, standing⟩ := spanned_of_followed stored exactSorted found formed
      canonical keyed
      (show (subtree.relocations.foldl
        (setMarked (engine.store.canonical Engine.isSubtreeForm)) engine.store.spanOff).length = _ by
          rw [length_foldl_setMarked, stored.spanOff])
      (show ((subtree.rules.zip subtree.lens).foldl
        (setMarked (engine.store.canonical Engine.isSubtreeForm)) engine.store.spanLen).length = _ by
          rw [length_foldl_setMarked, stored.spanLen])
    exact ⟨off, moved, measured, standing⟩
  · intro id entry form key found formed canonical keyed
    obtain ⟨off, moved, measured, standing⟩ := spanned_of_followed stored subtreeSorted found formed
      canonical keyed stored.spanOff stored.spanLen
    have notExact := canonical_false stored found formed (isExactForm_of_isSubtreeForm canonical)
    refine ⟨off, ?_, ?_, standing⟩
    · dsimp only [Store.following]
      rw [← moved]
      exact foldl_setMarked_kept fun mark => absurd mark notExact
    · dsimp only [Store.following]
      rw [← measured]
      exact foldl_setMarked_kept fun mark => absurd mark notExact

end Sumidero.Filter
