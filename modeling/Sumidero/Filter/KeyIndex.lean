import Mathlib.Data.List.Forall2
import Mathlib.Data.List.Sort
import Sumidero.Data.Search
import Sumidero.Text

namespace Sumidero.Filter

open Data

/-! Byte keys over one arena: sorted and deduplicated, each with the rule it leads
to.  A failed conversion or an index out of bounds is `none`. -/

def toU8 (value : Nat) : Option Nat := if value < 2 ^ 8 then some value else none

def toU16 (value : Nat) : Option Nat := if value < 2 ^ 16 then some value else none

def toU32 (value : Nat) : Option Nat := if value < 2 ^ 32 then some value else none

/-- `bytes[off..off + len]`. -/
def sliceBytes (bytes : List UInt8) (off len : Nat) : Option (List UInt8) :=
  if off + len ≤ bytes.length then some ((bytes.drop off).take len) else none

structure KeyIndex where
  arena : List UInt8
  offs : List Nat
  lens : List Nat
  rules : List Nat
deriving Repr, DecidableEq

/-- What `sort_unstable_by` over the positions of the keys may return: any
arrangement of them with the keys in order. -/
structure UnstableSort where
  order : List (List UInt8) → List Nat
  perm : ∀ keys, (order keys).Perm (List.range keys.length)
  sorted : ∀ keys, (order keys).Pairwise fun a b => keys.getD a [] ≤ keys.getD b []

/-- The order of the keys, carried over to their positions. -/
abbrev keyOrder (keys : List (List UInt8)) (a b : Nat) : Prop := keys.getD a [] ≤ keys.getD b []

instance (keys : List (List UInt8)) : Std.Total (keyOrder keys) := ⟨fun _ _ => Std.le_total⟩

instance (keys : List (List UInt8)) : IsTrans Nat (keyOrder keys) :=
  ⟨fun _ _ _ first second => Std.le_trans first second⟩

/-- Insertion sort is one. -/
def UnstableSort.insertion : UnstableSort where
  order := fun keys => (List.range keys.length).insertionSort (keyOrder keys)
  perm := fun _ => List.perm_insertionSort _ _
  sorted := fun keys => List.pairwise_insertionSort (keyOrder keys) _

namespace KeyIndex

def empty : KeyIndex := { arena := [], offs := [], lens := [], rules := [] }

def insert (index : KeyIndex) (key : List UInt8) (rule : Nat) : Option KeyIndex := do
  let off ← toU32 index.arena.length
  let len ← toU8 key.length
  return {
    arena := index.arena ++ key
    offs := index.offs ++ [off]
    lens := index.lens ++ [len]
    rules := index.rules ++ [rule] }

def key (index : KeyIndex) (i : Nat) : Option (List UInt8) := do
  let off ← index.offs[i]?
  let len ← index.lens[i]?
  sliceBytes index.arena off len

/-- The index being rebuilt, and the entry and offset of the key written last. -/
structure Rebuilt where
  index : KeyIndex
  prev : Option (Nat × Nat)
deriving Repr, DecidableEq

def Rebuilt.empty : Rebuilt := { index := KeyIndex.empty, prev := none }

/-- Write the key of entry `i` unless the last one written is the same. -/
def place (index : KeyIndex) (rebuilt : Rebuilt) (i : Nat) (key : List UInt8) :
    Option (List UInt8 × Nat × Option (Nat × Nat)) :=
  let write := do
    let off ← toU32 rebuilt.index.arena.length
    return (rebuilt.index.arena ++ key, off, some (i, off))
  match rebuilt.prev with
  | some (p, off) => do
      let last ← index.key p
      if last = key then return (rebuilt.index.arena, off, rebuilt.prev) else write
  | none => write

def rebuildStep (index : KeyIndex) (rebuilt : Rebuilt) (i : Nat) : Option Rebuilt := do
  let key ← index.key i
  let (arena, off, prev) ← index.place rebuilt i key
  let len ← index.lens[i]?
  let rule ← index.rules[i]?
  return {
    index := {
      arena := arena
      offs := rebuilt.index.offs ++ [off]
      lens := rebuilt.index.lens ++ [len]
      rules := rebuilt.index.rules ++ [rule] }
    prev := prev }

/-- Sort by key, then rebuild the arena with each distinct key once.  The calls of
`relocate(rule, new_off)` are `relocations` of the result. -/
def finish (sort : UnstableSort) (index : KeyIndex) : Option KeyIndex := do
  let n ← toU32 index.rules.length
  let keys ← (List.range n).mapM index.key
  let rebuilt ← (sort.order keys).foldlM index.rebuildStep Rebuilt.empty
  return rebuilt.index

def relocations (index : KeyIndex) : List (Nat × Nat) := index.rules.zip index.offs

def takeEqual (index : KeyIndex) (needle : List UInt8) (i : Nat) : Option (List Nat) :=
  if i < index.rules.length then do
    let key ← index.key i
    if key = needle then
      let rule ← index.rules[i]?
      let rest ← takeEqual index needle (i + 1)
      return rule :: rest
    else return []
  else return []
termination_by index.rules.length - i

/-- Rule ids whose key equals `needle`. -/
def equalRange (index : KeyIndex) (needle : List UInt8) : Option (List Nat) := do
  let below := fun i => (index.key i).map fun key => decide (key < needle)
  let lo ← partitionPoint below 0 index.rules.length
  index.takeEqual needle lo

/-! ### What an index holds -/

/-- The key stands in the arena at the offset. -/
def At (arena : List UInt8) (off : Nat) (key : List UInt8) : Prop :=
  ∃ before after, arena = before ++ key ++ after ∧ before.length = off

theorem At.grow {arena key : List UInt8} {off : Nat} (standing : At arena off key)
    (more : List UInt8) : At (arena ++ more) off key := by
  obtain ⟨before, after, whole, size⟩ := standing
  exact ⟨before, after ++ more, by rw [whole, List.append_assoc], size⟩

theorem At.written (arena key : List UInt8) : At (arena ++ key) arena.length key :=
  ⟨arena, [], by rw [List.append_nil], rfl⟩

theorem At.slice {arena key : List UInt8} {off : Nat} (standing : At arena off key) :
    sliceBytes arena off key.length = some key := by
  obtain ⟨before, after, rfl, rfl⟩ := standing
  simp only [sliceBytes]
  rw [if_pos (by simp), List.append_assoc, List.drop_left, List.take_left]

abbrev Entry := List UInt8 × Nat

/-- The index read back entry by entry. -/
structure Holds (index : KeyIndex) (entries : List Entry) : Prop where
  rules : index.rules = entries.map Prod.snd
  lens : index.lens = entries.map fun entry => entry.1.length
  offs : List.Forall₂ (fun off entry => At index.arena off entry.1) index.offs entries

theorem holds_empty : Holds empty [] := ⟨rfl, rfl, .nil⟩

section Holds

variable {index rebuilt : KeyIndex} {entries : List Entry}

theorem Holds.push (holds : Holds index entries) {arena more : List UInt8} {off : Nat}
    {entry : Entry} (grown : arena = index.arena ++ more) (standing : At arena off entry.1) :
    Holds { arena := arena, offs := index.offs ++ [off], lens := index.lens ++ [entry.1.length],
            rules := index.rules ++ [entry.2] } (entries ++ [entry]) := by
  refine ⟨by simp [holds.rules], by simp [holds.lens], ?_⟩
  have older : List.Forall₂ (fun off (entry : Entry) => At arena off entry.1)
      index.offs entries := by
    refine holds.offs.imp fun off entry standing => ?_
    rw [grown]
    exact standing.grow more
  exact List.rel_append older (.cons standing .nil)

theorem Holds.key (holds : Holds index entries) (i : Nat) :
    index.key i = entries[i]?.map Prod.fst := by
  simp only [KeyIndex.key]
  rw [holds.lens, List.getElem?_map]
  have sameLength := holds.offs.length_eq
  cases found : entries[i]? with
  | none =>
      have outside : index.offs[i]? = none := by
        rw [List.getElem?_eq_none_iff] at found ⊢
        omega
      rw [outside]
      rfl
  | some entry =>
      obtain ⟨bound, same⟩ := List.getElem?_eq_some_iff.mp found
      have inside : i < index.offs.length := by omega
      have standing := holds.offs.get inside bound
      rw [List.getElem?_eq_getElem inside]
      simp only [List.get_eq_getElem, same] at standing
      exact standing.slice

theorem insert_holds (holds : Holds index entries) {key : List UInt8} {rule : Nat}
    (inserted : index.insert key rule = some rebuilt) : Holds rebuilt (entries ++ [(key, rule)]) := by
  simp only [KeyIndex.insert] at inserted
  obtain ⟨off, offset, inserted⟩ := Option.bind_eq_some_iff.mp inserted
  obtain ⟨len, length, inserted⟩ := Option.bind_eq_some_iff.mp inserted
  simp only [toU32] at offset
  simp only [toU8] at length
  split at offset
  · split at length
    · cases offset
      cases length
      cases inserted
      have standing : At (index.arena ++ key) index.arena.length (key, rule).1 := At.written _ _
      exact holds.push rfl standing
    · cases length
  · cases offset

/-- Where a rebuilt key was placed: at the end of the arena, or where the same key was written
last. -/
inductive Placed (index : KeyIndex) (before : Rebuilt) (i : Nat) (key : List UInt8) :
    List UInt8 × Nat × Option (Nat × Nat) → Prop
  | written (new : ∀ last ∈ before.prev, index.key last.1 ≠ some key) :
      Placed index before i key
        (before.index.arena ++ key, before.index.arena.length, some (i, before.index.arena.length))
  | repeated {p off : Nat} (last : before.prev = some (p, off)) (same : index.key p = some key) :
      Placed index before i key (before.index.arena, off, before.prev)

theorem place_placed {before : Rebuilt} {i : Nat} {key : List UInt8}
    {placed : List UInt8 × Nat × Option (Nat × Nat)}
    (ran : index.place before i key = some placed) : Placed index before i key placed := by
  have write : (∀ last ∈ before.prev, index.key last.1 ≠ some key) → (do
      let off ← toU32 before.index.arena.length
      return (before.index.arena ++ key, off, some (i, off)) :
        Option (List UInt8 × Nat × Option (Nat × Nat))) = some placed →
      Placed index before i key placed := by
    intro new wrote
    obtain ⟨off, offset, wrote⟩ := Option.bind_eq_some_iff.mp wrote
    simp only [toU32] at offset
    split at offset
    · cases offset
      cases wrote
      exact .written new
    · cases offset
  simp only [place] at ran
  split at ran
  · rename_i p off last
    obtain ⟨lastKey, found, ran⟩ := Option.bind_eq_some_iff.mp ran
    split at ran
    · rename_i same
      cases ran
      exact .repeated last (same ▸ found)
    · rename_i other
      refine write ?_ ran
      intro previous member same
      obtain rfl := Option.some.inj (last.symm.trans member)
      exact other (Option.some.inj (found.symm.trans same))
  · rename_i first
    exact write (fun previous member => absurd (first.symm.trans member) (by simp)) ran

def Rebuilt.push (before : Rebuilt) (entry : Entry)
    (placed : List UInt8 × Nat × Option (Nat × Nat)) : Rebuilt where
  index :=
    { arena := placed.1
      offs := before.index.offs ++ [placed.2.1]
      lens := before.index.lens ++ [entry.1.length]
      rules := before.index.rules ++ [entry.2] }
  prev := placed.2.2

theorem rebuildStep_eq {i : Nat} {entry : Entry} (holds : Holds index entries)
    (found : entries[i]? = some entry) (before : Rebuilt) :
    index.rebuildStep before i = (index.place before i entry.1).map (before.push entry) := by
  have key : index.key i = some entry.1 := by rw [holds.key, found]; rfl
  have len : index.lens[i]? = some entry.1.length := by
    rw [holds.lens, List.getElem?_map, found]; rfl
  have rule : index.rules[i]? = some entry.2 := by
    rw [holds.rules, List.getElem?_map, found]; rfl
  simp only [rebuildStep, key, len, rule, Option.bind_eq_bind, Option.bind_some]
  cases index.place before i entry.1 <;> rfl

/-- Rebuilding one entry appends it; the key written last stands where it was written. -/
theorem rebuildStep_holds {before after : Rebuilt} {placed : List Entry} {i : Nat} {entry : Entry}
    (holds : Holds index entries) (found : entries[i]? = some entry)
    (earlier : Holds before.index placed)
    (written : ∀ prev ∈ before.prev, ∃ key, index.key prev.1 = some key ∧
      At before.index.arena prev.2 key)
    (stepped : index.rebuildStep before i = some after) :
    Holds after.index (placed ++ [entry]) ∧
      ∀ prev ∈ after.prev, ∃ key, index.key prev.1 = some key ∧
        At after.index.arena prev.2 key := by
  rw [rebuildStep_eq holds found] at stepped
  obtain ⟨place, ran, rfl⟩ := Option.map_eq_some_iff.mp stepped
  cases place_placed ran with
  | written =>
      refine ⟨earlier.push rfl (At.written _ _), ?_⟩
      intro other member
      cases member
      exact ⟨entry.1, by rw [holds.key, found]; rfl, At.written _ _⟩
  | repeated last same =>
      obtain ⟨key, keyed, standing⟩ := written _ last
      obtain rfl := Option.some.inj (same.symm.trans keyed)
      exact ⟨earlier.push (List.append_nil _).symm standing, written⟩

theorem rebuild_holds {order : List Nat} {placed : List Entry} {before after : Rebuilt}
    (holds : Holds index entries) (inside : ∀ i ∈ order, i < entries.length)
    (earlier : Holds before.index placed)
    (written : ∀ prev ∈ before.prev, ∃ key, index.key prev.1 = some key ∧
      At before.index.arena prev.2 key)
    (run : order.foldlM index.rebuildStep before = some after) :
    Holds after.index (placed ++ order.filterMap (entries[·]?)) := by
  induction order generalizing placed before with
  | nil =>
      cases run
      rw [List.filterMap_nil, List.append_nil]
      exact earlier
  | cons i rest ih =>
      rw [List.foldlM_cons] at run
      obtain ⟨middle, stepped, run⟩ := Option.bind_eq_some_iff.mp run
      have found := List.getElem?_eq_getElem (inside i List.mem_cons_self)
      obtain ⟨later, rewritten⟩ := rebuildStep_holds holds found earlier written stepped
      have whole := ih (fun j member => inside j (List.mem_cons_of_mem _ member)) later rewritten run
      rwa [List.filterMap_cons, found, List.append_cons]

theorem mapM_range_getElem? {α : Type} (entries : List Entry) (read : Entry → α) :
    (List.range entries.length).mapM (fun i => entries[i]?.map read) = some (entries.map read) := by
  induction entries with
  | nil => rfl
  | cons entry rest ih =>
      rw [List.length_cons, List.range_succ_eq_map, List.mapM_cons, List.mapM_map]
      simp only [Function.comp_def, List.getElem?_cons_zero, List.getElem?_cons_succ, ih]
      rfl

theorem Holds.keys (holds : Holds index entries) :
    (List.range entries.length).mapM index.key = some (entries.map Prod.fst) := by
  rw [funext holds.key]
  exact mapM_range_getElem? entries Prod.fst

theorem filterMap_range_getElem? (entries : List Entry) :
    (List.range entries.length).filterMap (entries[·]?) = entries := by
  induction entries with
  | nil => rfl
  | cons entry rest ih =>
      rw [List.length_cons, List.range_succ_eq_map, List.filterMap_cons, List.filterMap_map]
      simp only [Function.comp_def, List.getElem?_cons_zero, List.getElem?_cons_succ, ih]

/-- The entries in the order the sort gives them. -/
def arranged (sort : UnstableSort) (entries : List Entry) : List Entry :=
  (sort.order (entries.map Prod.fst)).filterMap (entries[·]?)

theorem order_perm (sort : UnstableSort) (entries : List Entry) :
    (sort.order (entries.map Prod.fst)).Perm (List.range entries.length) := by
  simpa using sort.perm (entries.map Prod.fst)

theorem order_inside {sort : UnstableSort} {entries : List Entry} :
    ∀ i ∈ sort.order (entries.map Prod.fst), i < entries.length :=
  fun _ member => List.mem_range.mp ((order_perm sort entries).mem_iff.mp member)

theorem arranged_perm (sort : UnstableSort) (entries : List Entry) :
    (arranged sort entries).Perm entries := by
  have perm := (order_perm sort entries).filterMap (entries[·]?)
  rwa [filterMap_range_getElem?] at perm

theorem arranged_sorted (sort : UnstableSort) (entries : List Entry) :
    (arranged sort entries).Pairwise fun a b => a.1 ≤ b.1 := by
  rw [arranged, List.pairwise_filterMap]
  refine (sort.sorted (entries.map Prod.fst)).imp fun ordered a foundA b foundB => ?_
  simpa [List.getD_eq_getElem?_getD, foundA, foundB] using ordered

theorem finish_run {sort : UnstableSort} (holds : Holds index entries)
    (finished : index.finish sort = some rebuilt) :
    ∃ last, (sort.order (entries.map Prod.fst)).foldlM index.rebuildStep Rebuilt.empty = some last ∧
      last.index = rebuilt := by
  simp only [finish] at finished
  obtain ⟨n, small, finished⟩ := Option.bind_eq_some_iff.mp finished
  have size : n = entries.length := by
    simp only [toU32] at small
    split at small
    · cases small
      rw [holds.rules, List.length_map]
    · cases small
  simp only [size, holds.keys, Option.bind_eq_bind, Option.bind_some] at finished
  obtain ⟨last, run, same⟩ := Option.bind_eq_some_iff.mp finished
  exact ⟨last, run, Option.some.inj same⟩

theorem finish_arranged {sort : UnstableSort} (holds : Holds index entries)
    (finished : index.finish sort = some rebuilt) : Holds rebuilt (arranged sort entries) := by
  obtain ⟨last, run, rfl⟩ := finish_run holds finished
  exact rebuild_holds holds order_inside holds_empty (fun _ member => by cases member) run

theorem finish_holds {sort : UnstableSort} (holds : Holds index entries)
    (finished : index.finish sort = some rebuilt) :
    ∃ sorted, Holds rebuilt sorted ∧ sorted.Perm entries ∧
      sorted.Pairwise fun a b => a.1 ≤ b.1 :=
  ⟨arranged sort entries, finish_arranged holds finished, arranged_perm sort entries,
    arranged_sorted sort entries⟩

theorem takeEqual_holds (holds : Holds index entries) (needle : List UInt8) (i : Nat) :
    index.takeEqual needle i =
      some (((entries.drop i).takeWhile fun entry => entry.1 = needle).map Prod.snd) := by
  have size : index.rules.length = entries.length := by rw [holds.rules, List.length_map]
  fun_induction takeEqual index needle i with
  | case1 i bound ih =>
      rw [size] at bound
      have found := List.getElem?_eq_getElem bound
      rw [holds.key, holds.rules, List.getElem?_map, found, List.drop_eq_getElem_cons bound]
      simp only [Option.map_some, Option.bind_eq_bind, Option.bind_some]
      by_cases same : entries[i].1 = needle
      · rw [if_pos same, List.takeWhile_cons_of_pos (by simpa using same), ih]
        rfl
      · rw [if_neg same, List.takeWhile_cons_of_neg (by simpa using same)]
        rfl
  | case2 i bound =>
      rw [size] at bound
      rw [List.drop_eq_nil_of_le (by omega)]
      rfl

theorem equalRange_holds (holds : Holds index entries)
    (sorted : entries.Pairwise fun a b => a.1 ≤ b.1) (needle : List UInt8) :
    index.equalRange needle =
      some ((entries.filter fun entry => entry.1 = needle).map Prod.snd) := by
  have size : index.rules.length = entries.length := by rw [holds.rules, List.length_map]
  let p := fun i => decide ((entries.map Prod.fst).getD i [] < needle)
  have answers : ∀ i < entries.length,
      (index.key i).map (fun key => decide (key < needle)) = some (p i) := by
    intro i bound
    simp only [p, holds.key, List.getElem?_eq_getElem bound, List.getD_eq_getElem?_getD,
      List.getElem?_map, Option.map_some, Option.getD_some]
  have falling : ∀ i j, i ≤ j → j < entries.length → p j = true → p i = true := by
    intro i j least bound under
    simp only [p, decide_eq_true_eq, List.getD_eq_getElem?_getD, List.getElem?_map] at under ⊢
    rw [List.getElem?_eq_getElem bound] at under
    rw [List.getElem?_eq_getElem (Nat.lt_of_le_of_lt least bound)]
    rcases Nat.lt_or_eq_of_le least with less | same
    · exact Std.lt_of_le_of_lt (List.pairwise_iff_getElem.mp sorted i j _ bound less) under
    · simp only [same]
      exact under
  obtain ⟨turn, found, inside, under, beyond⟩ := partitionPoint_spec answers falling
  simp only [equalRange]
  simp only [size, found, Option.bind_eq_bind, Option.bind_some]
  rw [takeEqual_holds holds]
  have keyAt : ∀ {i} (bound : i < entries.length), p i = decide (entries[i].1 < needle) := by
    intro i bound
    simp only [p, List.getD_eq_getElem?_getD, List.getElem?_map, List.getElem?_eq_getElem bound,
      Option.map_some, Option.getD_some]
  have below : ∀ entry ∈ entries.take turn, entry.1 < needle := by
    intro entry member
    obtain ⟨i, bound, same⟩ := List.mem_take_iff_getElem.mp member
    have less := under i (by omega)
    rw [keyAt (by omega), decide_eq_true_eq] at less
    exact same ▸ less
  have above : ∀ entry ∈ entries.drop turn, ¬ entry.1 < needle := by
    intro entry member
    obtain ⟨i, bound, same⟩ := List.mem_drop_iff_getElem.mp member
    have notLess := beyond (turn + i) (by omega) (by omega)
    rw [keyAt (by omega), decide_eq_false_iff_not] at notLess
    exact same ▸ notLess
  rw [takeWhile_drop_eq_filter sorted below above]

end Holds

end KeyIndex

end Sumidero.Filter
