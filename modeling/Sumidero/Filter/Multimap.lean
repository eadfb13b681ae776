import Sumidero.Filter.Total

namespace Sumidero.Filter.KeyIndex

open Data

/-! A finished index as a multimap: it holds what was inserted, each key written once. -/

variable {index rebuilt : KeyIndex} {entries placed : List Entry} {before after : Rebuilt}

/-! ### The keys of the rebuilt arena -/

/-- The keys of the entries placed so far, in the order the arena has them; `prev` is at the
last one. -/
structure Wrote (index : KeyIndex) (before : Rebuilt) (placed : List Entry)
    (keys : List (List UInt8)) : Prop where
  arena : before.index.arena = keys.flatten
  ordered : keys.Pairwise (· < ·)
  exact : ∀ key, key ∈ keys ↔ ∃ entry ∈ placed, entry.1 = key
  last : before.prev.map (fun prev => index.key prev.1) = keys.getLast?.map some

theorem wrote_empty (index : KeyIndex) : Wrote index Rebuilt.empty [] [] where
  arena := rfl
  ordered := .nil
  exact := by simp
  last := rfl

section Wrote

variable {keys : List (List UInt8)} {key : List UInt8}

/-- A key that is not the last one written is a new one: the entries come in order. -/
theorem Wrote.below (wrote : Wrote index before placed keys)
    (least : ∀ earlier ∈ placed, earlier.1 ≤ key)
    (new : ∀ last ∈ before.prev, index.key last.1 ≠ some key) : ∀ other ∈ keys, other < key := by
  have atMost : ∀ other ∈ keys, other ≤ key := by
    intro other member
    obtain ⟨entry, inside, rfl⟩ := (wrote.exact other).mp member
    exact least entry inside
  rcases List.eq_nil_or_concat' keys with rfl | ⟨front, last, rfl⟩
  · exact fun other member => absurd member List.not_mem_nil
  · have remembered := wrote.last
    rw [List.getLast?_concat, Option.map_some, Option.map_eq_some_iff] at remembered
    obtain ⟨prev, present, keyed⟩ := remembered
    have different : last ≠ key := by
      rintro rfl
      exact new prev present keyed
    have under : last < key := Std.lt_of_le_of_ne (atMost last (by simp)) different
    intro other member
    rcases List.mem_append.mp member with earlier | final
    · have less := (List.pairwise_append.mp wrote.ordered).2.2 other earlier last (by simp)
      exact Std.lt_trans less under
    · rw [List.mem_singleton.mp final]
      exact under

theorem Wrote.step {i : Nat} {entry : Entry} (wrote : Wrote index before placed keys)
    (holds : Holds index entries) (found : entries[i]? = some entry)
    (least : ∀ earlier ∈ placed, earlier.1 ≤ entry.1)
    (stepped : index.rebuildStep before i = some after) :
    ∃ keys, Wrote index after (placed ++ [entry]) keys := by
  rw [rebuildStep_eq holds found] at stepped
  obtain ⟨place, ran, rfl⟩ := Option.map_eq_some_iff.mp stepped
  have keyed : index.key i = some entry.1 := by rw [holds.key, found]; rfl
  cases place_placed ran with
  | written new =>
      have above := wrote.below least new
      refine ⟨keys ++ [entry.1], ?_, ?_, ?_, ?_⟩
      · rw [List.flatten_append, List.flatten_singleton, ← wrote.arena]
        rfl
      · exact List.pairwise_append.mpr ⟨wrote.ordered, List.pairwise_singleton _ _,
          fun other member last same => List.mem_singleton.mp same ▸ above other member⟩
      · intro key
        simp [wrote.exact key, or_and_right, exists_or, eq_comm]
      · rw [List.getLast?_concat, Option.map_some, ← keyed]
        rfl
  | repeated last same =>
      -- The key is the last one written, so no key is added.
      have remembered := wrote.last
      rw [last, Option.map_some, same] at remembered
      obtain ⟨_, final, equal⟩ := Option.map_eq_some_iff.mp remembered.symm
      obtain rfl := Option.some.inj equal
      refine ⟨keys, wrote.arena, wrote.ordered, ?_, wrote.last⟩
      intro key
      rw [wrote.exact key]
      constructor
      · rintro ⟨earlier, member, same⟩
        exact ⟨earlier, List.mem_append_left _ member, same⟩
      · rintro ⟨other, member, rfl⟩
        rcases List.mem_append.mp member with earlier | newest
        · exact ⟨other, earlier, rfl⟩
        · rw [List.mem_singleton.mp newest]
          exact (wrote.exact entry.1).mp (List.mem_of_getLast? final)

theorem rebuild_wrote {order : List Nat} (wrote : Wrote index before placed keys)
    (holds : Holds index entries) (inside : ∀ i ∈ order, i < entries.length)
    (sorted : (placed ++ order.filterMap (entries[·]?)).Pairwise fun a b => a.1 ≤ b.1)
    (run : order.foldlM index.rebuildStep before = some after) :
    ∃ keys, Wrote index after (placed ++ order.filterMap (entries[·]?)) keys := by
  induction order generalizing placed before keys with
  | nil =>
      cases run
      rw [List.filterMap_nil, List.append_nil]
      exact ⟨keys, wrote⟩
  | cons i rest ih =>
      rw [List.foldlM_cons] at run
      obtain ⟨middle, stepped, run⟩ := Option.bind_eq_some_iff.mp run
      have bound := inside i List.mem_cons_self
      have found := List.getElem?_eq_getElem bound
      rw [List.filterMap_cons, found] at sorted ⊢
      have least : ∀ earlier ∈ placed, earlier.1 ≤ entries[i].1 := fun earlier member =>
        (List.pairwise_append.mp sorted).2.2 earlier member _ List.mem_cons_self
      obtain ⟨later, wrote⟩ := wrote.step holds found least stepped
      rw [List.append_cons] at sorted ⊢
      exact ih wrote (fun j member => inside j (List.mem_cons_of_mem _ member)) sorted run

end Wrote

/-! ### A sequence of insertions -/

def insertAll (entries : List Entry) : Option KeyIndex :=
  entries.foldlM (fun index entry => index.insert entry.1 entry.2) empty

/-- The entries by position, each key at its offset and length. -/
def readBack (index : KeyIndex) : Option (List Entry) :=
  (List.range index.rules.length).mapM fun i => do
    let key ← index.key i
    let rule ← index.rules[i]?
    return (key, rule)

theorem Holds.readBack (holds : Holds index entries) : index.readBack = some entries := by
  have size : index.rules.length = entries.length := by rw [holds.rules, List.length_map]
  have each : (fun i => do
      let key ← index.key i
      let rule ← index.rules[i]?
      return (key, rule) : Nat → Option Entry) = fun i => entries[i]?.map id := by
    funext i
    rw [holds.key, holds.rules, List.getElem?_map]
    cases entries[i]? <;> rfl
  rw [KeyIndex.readBack, size, each, mapM_range_getElem?, List.map_id]

theorem Holds.relocations (holds : Holds index entries) :
    List.Forall₂ (fun call entry => call.1 = entry.2 ∧ At index.arena call.2 entry.1)
      index.relocations entries := by
  rw [KeyIndex.relocations, holds.rules]
  have standing := holds.offs
  clear holds
  generalize index.offs = offs at standing
  induction standing with
  | nil => exact .nil
  | cons standing _ ih => exact .cons ⟨rfl, standing⟩ ih

theorem inserts_total (holds : Holds index placed)
    (short : ∀ entry ∈ entries, entry.1.length ≤ 255)
    (room : index.arena.length + keyBytes entries < 2 ^ 32) :
    ∃ after, entries.foldlM (fun index entry => index.insert entry.1 entry.2) index = some after ∧
      Holds after (placed ++ entries) := by
  induction entries generalizing index placed with
  | nil => exact ⟨index, rfl, by rwa [List.append_nil]⟩
  | cons entry rest ih =>
      have parts : keyBytes (entry :: rest) = entry.1.length + keyBytes rest := rfl
      rw [parts] at room
      have fits := short entry List.mem_cons_self
      obtain ⟨next, inserted, bytes⟩ := insert_total entry.2
        (show index.arena.length < 2 ^ 32 by omega) (show entry.1.length < 2 ^ 8 by omega)
      obtain ⟨after, run, held⟩ := ih (insert_holds holds inserted)
        (fun other member => short other (List.mem_cons_of_mem _ member)) (by omega)
      refine ⟨after, ?_, ?_⟩
      · rw [List.foldlM_cons, inserted]
        exact run
      · rwa [← List.append_cons] at held

/-- An index that answers for exactly these entries. -/
structure Multimap (index : KeyIndex) (entries : List Entry) : Prop where
  /-- What is read back, in order, with the offset each rule was relocated to. -/
  read : ∃ sorted, index.readBack = some sorted ∧ sorted.Perm entries ∧
    (sorted.Pairwise fun a b => a.1 ≤ b.1) ∧
    List.Forall₂ (fun call entry => call.1 = entry.2 ∧ At index.arena call.2 entry.1)
      index.relocations sorted
  /-- The arena is made of the keys inserted, each once. -/
  distinct : ∃ keys : List (List UInt8), index.arena = keys.flatten ∧ keys.Pairwise (· < ·) ∧
    ∀ key, key ∈ keys ↔ ∃ entry ∈ entries, entry.1 = key
  found : ∀ needle, ∃ rules, index.equalRange needle = some rules ∧
    rules.Perm ((entries.filter fun entry => entry.1 = needle).map Prod.snd)

theorem finish_multimap {sort : UnstableSort} (holds : Holds index entries)
    (finished : index.finish sort = some rebuilt) : Multimap rebuilt entries := by
  have held := finish_arranged holds finished
  have perm := arranged_perm sort entries
  have sorted := arranged_sorted sort entries
  obtain ⟨last, run, rfl⟩ := finish_run holds finished
  obtain ⟨keys, wrote⟩ := rebuild_wrote (wrote_empty index) holds order_inside sorted run
  rw [List.nil_append] at wrote
  refine ⟨⟨_, held.readBack, perm, sorted, held.relocations⟩, ⟨keys, wrote.arena, wrote.ordered, ?_⟩,
    ?_⟩
  · intro key
    rw [wrote.exact key]
    exact exists_congr fun entry => and_congr_left fun _ => perm.mem_iff
  · intro needle
    exact ⟨_, equalRange_holds held sorted needle, (perm.filter _).map _⟩

/-- Fewer than 2³² keys of under 4 GiB in all are found again, each with its rules, by a
search that ends at the boundary whatever it searches for. -/
theorem insertAll_multimap (sort : UnstableSort) (entries : List Entry)
    (short : ∀ entry ∈ entries, entry.1.length ≤ 255) (room : keyBytes entries < 2 ^ 32)
    (few : entries.length < 2 ^ 32) :
    (∃ inserted finished, insertAll entries = some inserted ∧
      inserted.finish sort = some finished ∧ Multimap finished entries) ∧
      ∀ (size : Nat) (below : Nat → Bool),
        (∀ i j, i ≤ j → j < size → below j = true → below i = true) →
        ∃ turn, partitionPoint (fun i => some (below i)) 0 size = some turn ∧ turn ≤ size ∧
          (∀ i < turn, below i = true) ∧ ∀ i, turn ≤ i → i < size → below i = false := by
  constructor
  · obtain ⟨inserted, run, holds⟩ := inserts_total holds_empty short
      (show KeyIndex.empty.arena.length + keyBytes entries < 2 ^ 32 by simpa [empty] using room)
    obtain ⟨finished, done⟩ := finish_total sort holds few room
    exact ⟨inserted, finished, run, done, finish_multimap holds done⟩
  · intro size below falling
    exact partitionPoint_spec (fun _ _ => rfl) falling

/-- Three rules under two keys, the longer one inserted first. -/
theorem insertAll_multimap_three :
    ∃ inserted finished, insertAll [([97, 98], 0), ([97], 1), ([97, 98], 2)] = some inserted ∧
      inserted.finish .insertion = some finished ∧
      Multimap finished [([97, 98], 0), ([97], 1), ([97, 98], 2)] :=
  (insertAll_multimap .insertion _ (by decide) (by decide) (by decide)).1

theorem finish_none (sort : UnstableSort) (many : 2 ^ 32 ≤ index.rules.length) :
    index.finish sort = none := by
  simp only [finish, toU32, if_neg (Nat.not_lt.mpr many), Option.bind_eq_bind, Option.bind_none]

/-- Empty keys take up no bytes, however many there are. -/
theorem empty_keys (n : Nat) :
    (∀ entry ∈ List.replicate n (([] : List UInt8), 0), entry.1.length ≤ 255) ∧
      keyBytes (List.replicate n ([], 0)) = 0 ∧
      ∃ inserted, insertAll (List.replicate n ([], 0)) = some inserted ∧
        inserted.rules.length = n := by
  have short : ∀ entry ∈ List.replicate n (([] : List UInt8), 0), entry.1.length ≤ 255 := by
    intro entry member
    rw [List.eq_of_mem_replicate member]
    exact Nat.zero_le _
  have bytes : keyBytes (List.replicate n ([], 0)) = 0 := by
    rw [keyBytes, List.map_replicate, List.sum_replicate_nat]
    exact Nat.mul_zero n
  obtain ⟨inserted, run, holds⟩ := inserts_total holds_empty short
    (by rw [bytes]; decide)
  refine ⟨short, bytes, inserted, run, ?_⟩
  rw [holds.rules, List.length_map, List.nil_append, List.length_replicate]

/-- 2³² of them cannot be numbered. -/
theorem empty_keys_unfinished :
    (∀ entry ∈ List.replicate (2 ^ 32) (([] : List UInt8), 0), entry.1.length ≤ 255) ∧
      keyBytes (List.replicate (2 ^ 32) ([], 0)) < 2 ^ 32 ∧
      ∃ inserted, insertAll (List.replicate (2 ^ 32) ([], 0)) = some inserted ∧
        ∀ sort, inserted.finish sort = none := by
  obtain ⟨short, bytes, inserted, run, many⟩ := empty_keys (2 ^ 32)
  exact ⟨short, Nat.lt_of_le_of_lt (Nat.le_of_eq bytes) (by decide), inserted, run,
    fun sort => finish_none sort (Nat.le_of_eq many.symm)⟩

end Sumidero.Filter.KeyIndex
