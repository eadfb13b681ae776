import Sumidero.Cache.Represents
import Sumidero.Data.Recency

namespace Sumidero.Cache

open Sumidero.Data

/-! What each operation of the slot array does to the list it stands for. -/

section Facts

variable {inner after : Inner} {cells : List (Nat × Item)} {free : List Nat}

theorem Stored.nodup (stored : Stored inner cells free) : (cells.map Prod.fst ++ free).Nodup :=
  stored.slots.nodup_iff.mpr List.nodup_range

theorem Stored.lt_length (stored : Stored inner cells free) {i : Nat}
    (member : i ∈ cells.map Prod.fst ++ free) : i < inner.slots.length :=
  List.mem_range.mp (stored.slots.mem_iff.mp member)

/-- No slot has the index that means "no link". -/
theorem Stored.ne_none (stored : Stored inner cells free) :
    NONE ∉ cells.map Prod.fst ++ free := by
  intro member
  have bound := stored.lt_length member
  have room := stored.room
  have capacity := inner.limits.capacity_le
  omega

theorem Stored.keys (stored : Stored inner cells free) :
    (cells.map fun cell => cell.2.key).Nodup := by
  have keys := (stored.map.map Sigma.fst).nodup_iff.mp inner.map.nodupKeys
  rw [List.map_map] at keys
  exact keys

theorem Stored.map_length (stored : Stored inner cells free) :
    inner.map.entries.length = cells.length := by
  simpa using stored.map.length_eq

theorem Stored.lookup (stored : Stored inner cells free) {cell : Nat × Item}
    (member : cell ∈ cells) : inner.map.lookup cell.2.key = some cell.1 := by
  exact AList.mem_lookup_iff.mpr (stored.map.mem_iff.mpr (List.mem_map_of_mem (f := indexed) member))

theorem Stored.lookup_some (stored : Stored inner cells free) {key : CacheKey} {i : Nat}
    (found : inner.map.lookup key = some i) : ∃ cell ∈ cells, cell.2.key = key ∧ cell.1 = i := by
  have member := stored.map.mem_iff.mp (AList.mem_lookup_iff.mp found)
  obtain ⟨cell, inCells, same⟩ := List.mem_map.mp member
  cases same
  exact ⟨cell, inCells, rfl, rfl⟩

theorem Stored.perm {other : List (Nat × Item)} (stored : Stored inner cells free)
    (perm : cells.Perm other) : Stored inner other free where
  items := fun cell member => stored.items cell (perm.mem_iff.mpr member)
  map := stored.map.trans (perm.map _)
  bytes := stored.bytes.trans (perm.map _).sum_nat
  stacked := stored.stacked
  freeHead := stored.freeHead
  slots := ((perm.map _).symm.append_right _).trans stored.slots
  room := stored.room

theorem links_of_slot {j : Nat} (same : after.slots[j]? = inner.slots[j]?) :
    after.links j = inner.links j := by
  simp only [Inner.links]
  rw [same]

theorem item?_of_slot {j : Nat} (same : after.slots[j]? = inner.slots[j]?) :
    after.item? j = inner.item? j := by
  unfold Inner.item?
  rw [same]

theorem nextFree_of_slot {j : Nat} (same : after.slots[j]? = inner.slots[j]?) :
    after.nextFree j = inner.nextFree j := by
  simp only [Inner.nextFree]
  rw [same]

end Facts

section Operations

variable {inner : Inner} {front back : List (Nat × Item)} {cell : Nat × Item} {free : List Nat}

theorem Stored.erase_entries (stored : Stored inner (front ++ cell :: back) free) :
    (inner.map.erase cell.2.key).entries.Perm ((front ++ back).map indexed) := by
  have entries := stored.map
  have keys := stored.keys
  rw [List.map_append, List.map_cons] at entries keys
  have absent : cell.2.key ∉ (front.map indexed).keys := by
    intro member
    rw [List.keys, List.map_map] at member
    exact (List.nodup_append.mp keys).2.2 _ member _ List.mem_cons_self rfl
  refine (List.Perm.kerase inner.map.nodupKeys entries).trans ?_
  have removed : List.kerase cell.2.key (indexed cell :: back.map indexed) = back.map indexed :=
    List.kerase_cons_eq rfl
  rw [List.kerase_append_right absent, removed, List.map_append]

theorem Represents.order_nodup {cells : List (Nat × Item)} (rep : Represents inner cells free) :
    (cells.map Prod.fst).Nodup :=
  (List.nodup_append.mp rep.nodup).1

theorem Represents.order_proper {cells : List (Nat × Item)} (rep : Represents inner cells free) :
    NONE ∉ cells.map Prod.fst :=
  fun member => rep.ne_none (List.mem_append_left _ member)

theorem remove_spec (rep : Represents inner (front ++ cell :: back) free) :
    ∃ after, inner.remove cell.1 = some after ∧
      Represents after (front ++ back) (cell.1 :: free) ∧ after.limits = inner.limits := by
  have threaded := rep.toThreaded
  have nodup := rep.order_nodup
  have proper := rep.order_proper
  rw [List.map_append, List.map_cons] at threaded nodup proper
  obtain ⟨middle, ran, same, around, _⟩ := unlink_spec threaded nodup proper
  have stored := same.stored rep.toStored
  obtain ⟨node, found, item⟩ := item?_eq_some
    (stored.items cell (List.mem_append_right _ List.mem_cons_self))
  have bound : cell.1 < middle.slots.length := (List.getElem?_eq_some_iff.mp found).1
  have unused : cell.1 ∉ (front ++ back).map Prod.fst ++ free := by
    have all := stored.nodup
    rw [List.map_append, List.map_cons, List.append_assoc, List.cons_append] at all
    rw [List.map_append, List.append_assoc]
    exact (List.nodup_cons.mp (List.nodup_middle.mp all)).1
  refine ⟨{ middle with
      bytesTotal := middle.bytesTotal - cell.2.bytes
      map := middle.map.erase cell.2.key
      slots := middle.slots.set cell.1 (.free middle.freeHead)
      freeHead := cell.1 }, ?_, ⟨⟨?_, ?_, ?_⟩, ⟨?_, ?_, ?_, ?_, ?_, ?_, ?_⟩⟩, same.limits⟩
  · have key : node.key = cell.2.key := by rw [← item]; rfl
    have bytes : node.bytes = cell.2.bytes := by rw [← item]; rfl
    simp [Inner.remove, ran, found, key, bytes]
  · rw [List.map_append]
    refine around.chained.congr fun i member => links_of_slot (List.getElem?_set_ne ?_)
    rw [← List.map_append] at member
    exact (ne_of_mem_of_not_mem (List.mem_append_left _ member) unused).symm
  · rw [List.map_append]
    exact around.head
  · rw [List.map_append]
    exact around.tail
  · intro other member
    have different : cell.1 ≠ other.1 :=
      (ne_of_mem_of_not_mem (List.mem_append_left _ (List.mem_map_of_mem member)) unused).symm
    refine (item?_of_slot (List.getElem?_set_ne different)).trans (stored.items other ?_)
    exact List.mem_append.mpr ((List.mem_append.mp member).imp_right (List.mem_cons_of_mem _))
  · exact stored.erase_entries
  · have bytes := stored.bytes
    simp only [List.map_append, List.map_cons, List.sum_append, List.sum_cons] at bytes ⊢
    omega
  · refine ⟨?_, stored.stacked.congr fun i member => nextFree_of_slot (List.getElem?_set_ne ?_)⟩
    · simp only [Inner.nextFree, List.getElem?_set_self bound, stored.freeHead]
    · exact (ne_of_mem_of_not_mem (List.mem_append_right _ member) unused).symm
  · rfl
  · rw [List.length_set]
    refine List.Perm.trans ?_ stored.slots
    simp only [List.map_append, List.map_cons, List.append_assoc, List.cons_append]
    exact List.Perm.append_left _ List.perm_middle
  · rw [List.length_set]
    exact stored.room

theorem moveToHead_spec (rep : Represents inner (front ++ cell :: back) free) :
    ∃ after, inner.moveToHead cell.1 = some after ∧
      Represents after (cell :: (front ++ back)) free ∧ after.limits = inner.limits := by
  have threaded := rep.toThreaded
  have nodup := rep.order_nodup
  have proper := rep.order_proper
  rw [List.map_append, List.map_cons] at threaded nodup proper
  simp only [Inner.moveToHead]
  by_cases first : inner.head = cell.1
  · have alone : front = [] := by
      cases front with
      | nil => rfl
      | cons other rest =>
          rw [threaded.head] at first
          exact absurd first ((List.nodup_append.mp nodup).2.2 _ List.mem_cons_self _
            List.mem_cons_self)
    subst alone
    exact ⟨inner, by simp [first], rep, rfl⟩
  · obtain ⟨middle, unlinked, one, around, linked⟩ := unlink_spec threaded nodup proper
    obtain ⟨absent, apart⟩ := List.nodup_cons.mp (List.nodup_middle.mp nodup)
    have properAround : NONE ∉ front.map Prod.fst ++ back.map Prod.fst := fun member =>
      proper (List.perm_middle.mem_iff.mpr (List.mem_cons_of_mem _ member))
    obtain ⟨after, pushed, two, pushedThreaded⟩ :=
      pushHead_spec around apart properAround absent linked
    refine ⟨after, by simp [first, unlinked, pushed], ⟨?_, ?_⟩, (one.trans two).limits⟩
    · rw [List.map_cons, List.map_append]
      exact pushedThreaded
    · exact (one.trans two).stored (rep.toStored.perm List.perm_middle)

theorem evictTail_spec (rep : Represents inner (front ++ [cell]) free) :
    ∃ after, inner.evictTail = some after ∧ Represents after front (cell.1 :: free) ∧
      after.limits = inner.limits := by
  have tail : inner.tail = cell.1 := by
    rw [rep.tail, List.map_append]
    exact List.getLastD_concat ..
  have proper : cell.1 ≠ NONE := ne_of_mem_of_not_mem (by simp) rep.order_proper
  obtain ⟨after, removed, rest, limits⟩ := remove_spec rep
  refine ⟨after, ?_, by simpa using rest, limits⟩
  rw [Inner.evictTail, tail, if_neg proper]
  exact removed

/-- The loop drops least recent items down to the budget, and never runs out of rounds. -/
theorem evictLoop_spec (fuel : Nat) {cells : List (Nat × Item)} (rep : Represents inner cells free)
    (enough : cells.length ≤ fuel) :
    ∃ after free', Inner.evictLoop fuel inner = some after ∧
      Represents after (trim (fun cell => cell.2.bytes) inner.limits.maxBytes cells) free' ∧
      after.limits = inner.limits := by
  induction fuel generalizing inner cells free with
  | zero =>
      obtain rfl : cells = [] := List.eq_nil_of_length_eq_zero (Nat.le_zero.mp enough)
      rw [trim_fits (by simp)]
      exact ⟨inner, free, by simp [Inner.evictLoop, rep.map_length], rep, rfl⟩
  | succ fuel ih =>
      simp only [Inner.evictLoop]
      rw [rep.map_length, rep.bytes]
      split
      · rename_i beyond
        rcases List.eq_nil_or_concat cells with rfl | ⟨front, last, rfl⟩
        · simp at beyond
        · rw [List.concat_eq_append] at *
          obtain ⟨next, evicted, rest, limits⟩ := evictTail_spec rep
          have fewer : front.length ≤ fuel := by simpa using enough
          obtain ⟨after, free', ran, trimmed, same⟩ := ih rest fewer
          refine ⟨after, free', ?_, ?_, same.trans limits⟩
          · rw [evicted]
            exact ran
          · rw [trim_over beyond, ← limits]
            exact trimmed
      · rename_i fits
        rw [trim_fits fits]
        exact ⟨inner, free, rfl, rep, rfl⟩

theorem evictToByteBudget_spec {cells : List (Nat × Item)} (rep : Represents inner cells free) :
    ∃ after free', inner.evictToByteBudget = some after ∧
      Represents after (trim (fun cell => cell.2.bytes) inner.limits.maxBytes cells) free' ∧
      after.limits = inner.limits :=
  evictLoop_spec _ rep (Nat.le_of_eq rep.map_length.symm)

theorem Represents.length_le {cells : List (Nat × Item)} (rep : Represents inner cells free) :
    cells.length ≤ inner.limits.capacity := by
  have slots := rep.slots.length_eq
  simp only [List.length_append, List.length_map, List.length_range] at slots
  have room := rep.room
  omega

theorem makeRoom_spec {cells : List (Nat × Item)} (rep : Represents inner cells free) :
    ∃ after free',
      (if inner.limits.capacity ≤ inner.map.entries.length then inner.evictTail else some inner) =
        some after ∧
      Represents after (if inner.limits.capacity ≤ cells.length then cells.dropLast else cells) free' ∧
      (if inner.limits.capacity ≤ cells.length then cells.dropLast else cells).length <
        after.limits.capacity ∧
      after.limits = inner.limits := by
  have positive := inner.limits.capacity_pos
  have bound := rep.length_le
  rw [rep.map_length]
  by_cases full : inner.limits.capacity ≤ cells.length
  · rcases List.eq_nil_or_concat cells with rfl | ⟨front, last, rfl⟩
    · exact absurd full (Nat.not_le.mpr positive)
    · rw [List.concat_eq_append] at *
      obtain ⟨after, evicted, rest, limits⟩ := evictTail_spec rep
      rw [if_pos full, if_pos full, List.dropLast_concat]
      refine ⟨after, last.1 :: free, evicted, rest, ?_, limits⟩
      rw [List.length_append, List.length_singleton] at bound
      rw [limits]
      exact bound
  · rw [if_neg full, if_neg full]
    exact ⟨inner, free, rfl, rep, Nat.lt_of_not_le full, rfl⟩

/-- A slot off both lists, holding a new node. -/
structure Allocated (inner after : Inner) (cells : List (Nat × Item)) (idx : Nat) (node : Node)
    (free : List Nat) : Prop extends Threaded after (cells.map Prod.fst) where
  fresh : idx ∉ cells.map Prod.fst
  found : after.slots[idx]? = some (.occupied node)
  items : ∀ cell ∈ cells, after.item? cell.1 = some cell.2
  stacked : Stacked NONE after.nextFree free
  freeHead : after.freeHead = free.headD NONE
  slots : (idx :: cells.map Prod.fst ++ free).Perm (List.range after.slots.length)
  room : after.slots.length ≤ after.limits.capacity
  map : after.map = inner.map
  bytesTotal : after.bytesTotal = inner.bytesTotal
  limits : after.limits = inner.limits

theorem allocSlot_grow {cells : List (Nat × Item)} (rep : Represents inner cells [])
    (room : cells.length < inner.limits.capacity) (node : Node) :
    ∃ after idx, inner.allocSlot node = some (after, idx) ∧ Allocated inner after cells idx node [] := by
  have slots := rep.slots
  rw [List.append_nil] at slots
  have length : inner.slots.length = cells.length := by
    simpa using slots.length_eq.symm
  have below : ∀ i ∈ cells.map Prod.fst, i < inner.slots.length :=
    fun i member => rep.lt_length (List.mem_append_left _ member)
  have kept : ∀ i ∈ cells.map Prod.fst,
      (inner.slots ++ [.occupied node])[i]? = inner.slots[i]? :=
    fun i member => List.getElem?_append_left (below i member)
  refine ⟨{ inner with slots := inner.slots ++ [.occupied node] }, inner.slots.length, ?_,
    ⟨?_, rep.head, rep.tail⟩, ?_, ?_, ?_, trivial, rep.freeHead, ?_, ?_, rfl, rfl, rfl⟩
  · rw [Inner.allocSlot, rep.freeHead]
    rfl
  · exact rep.chained.congr fun i member => links_of_slot (kept i member)
  · exact fun member => Nat.lt_irrefl _ (below _ member)
  · simp
  · intro cell member
    exact (item?_of_slot (kept _ (List.mem_map_of_mem member))).trans (rep.items cell member)
  · rw [List.append_nil, List.length_append, List.length_singleton, List.range_succ]
    exact (List.perm_append_singleton _ _).symm.trans (slots.append_right _)
  · rw [List.length_append, List.length_singleton, length]
    exact room

theorem allocSlot_reuse {cells : List (Nat × Item)} {idx : Nat}
    (rep : Represents inner cells (idx :: free)) (node : Node) :
    ∃ after, inner.allocSlot node = some (after, idx) ∧
      Allocated inner after cells idx node free := by
  obtain ⟨next, rest⟩ := rep.stacked
  have slot := nextFree_eq_some next
  have bound : idx < inner.slots.length := (List.getElem?_eq_some_iff.mp slot).1
  have proper : idx ≠ NONE :=
    ne_of_mem_of_not_mem (List.mem_append_right _ List.mem_cons_self) rep.ne_none
  have unused := (List.nodup_cons.mp (List.nodup_middle.mp rep.nodup)).1
  have kept : ∀ i ∈ cells.map Prod.fst ++ free,
      (inner.slots.set idx (.occupied node))[i]? = inner.slots[i]? :=
    fun i member => List.getElem?_set_ne (ne_of_mem_of_not_mem member unused).symm
  refine ⟨{ inner with
      slots := inner.slots.set idx (.occupied node)
      freeHead := free.headD NONE }, ?_, ⟨?_, rep.head, rep.tail⟩, ?_, ?_, ?_, ?_, rfl, ?_, ?_,
    rfl, rfl, rfl⟩
  · have head : inner.freeHead = idx := rep.freeHead
    simp [Inner.allocSlot, head, proper, slot]
  · exact rep.chained.congr fun i member => links_of_slot (kept i (List.mem_append_left _ member))
  · exact fun member => unused (List.mem_append_left _ member)
  · exact List.getElem?_set_self bound
  · intro cell member
    exact (item?_of_slot (kept _ (List.mem_append_left _ (List.mem_map_of_mem member)))).trans
      (rep.items cell member)
  · exact rest.congr fun i member => nextFree_of_slot (kept i (List.mem_append_right _ member))
  · rw [List.length_set]
    exact List.perm_middle.symm.trans rep.slots
  · rw [List.length_set]
    exact rep.room

theorem allocSlot_spec {cells : List (Nat × Item)} (rep : Represents inner cells free)
    (room : cells.length < inner.limits.capacity) (node : Node) :
    ∃ after idx free', inner.allocSlot node = some (after, idx) ∧
      Allocated inner after cells idx node free' := by
  cases free with
  | nil =>
      obtain ⟨after, idx, ran, allocated⟩ := allocSlot_grow rep room node
      exact ⟨after, idx, [], ran, allocated⟩
  | cons idx rest =>
      obtain ⟨after, ran, allocated⟩ := allocSlot_reuse rep node
      exact ⟨after, idx, rest, ran, allocated⟩

theorem enter_spec {middle : Inner} {cells : List (Nat × Item)} {idx : Nat} {node : Node}
    {free' : List Nat} (rep : Represents inner cells free)
    (allocated : Allocated inner middle cells idx node free')
    (absent : ∀ cell ∈ cells, cell.2.key ≠ node.key) :
    ∃ after, { middle with map := middle.map.insert node.key idx : Inner }.pushHead idx = some after ∧
      Represents { after with bytesTotal := after.bytesTotal + node.bytes }
        ((idx, node.item) :: cells) free' ∧ after.limits = inner.limits := by
  let ready : Inner := { middle with map := middle.map.insert node.key idx }
  have threaded : Threaded ready (cells.map Prod.fst) :=
    ⟨allocated.chained, allocated.head, allocated.tail⟩
  have linked : ready.links idx = some (node.prev, node.next) := by
    simp only [Inner.links, ready, allocated.found]
  obtain ⟨after, ran, same, pushed⟩ :=
    pushHead_spec threaded rep.order_nodup rep.order_proper allocated.fresh linked
  have unknown : node.key ∉ middle.map := by
    rw [allocated.map]
    intro member
    obtain ⟨i, found⟩ := Option.isSome_iff_exists.mp (AList.lookup_isSome.mpr member)
    obtain ⟨cell, inCells, sameKey, _⟩ := rep.lookup_some found
    exact absent cell inCells sameKey
  have stored : Stored { ready with bytesTotal := ready.bytesTotal + node.bytes }
      ((idx, node.item) :: cells) free' := by
    refine ⟨?_, ?_, ?_, allocated.stacked, allocated.freeHead, ?_, allocated.room⟩
    · intro cell member
      rcases List.mem_cons.mp member with rfl | earlier
      · simp only [Inner.item?, ready, allocated.found]
      · exact allocated.items cell earlier
    · rw [show ready.map.entries = ⟨node.key, idx⟩ :: middle.map.entries from
        AList.entries_insert_of_notMem unknown, allocated.map]
      exact List.Perm.cons _ rep.map
    · have bytes := rep.bytes
      rw [← allocated.bytesTotal] at bytes
      rw [List.map_cons, List.sum_cons, ← bytes, Nat.add_comm]
      rfl
    · rw [List.map_cons]
      exact allocated.slots
  have counted : SameStore { ready with bytesTotal := ready.bytesTotal + node.bytes }
      { after with bytesTotal := after.bytesTotal + node.bytes } :=
    ⟨same.items, same.nextFree, same.length, same.map,
      congrArg (· + node.bytes) same.bytesTotal, same.freeHead, same.limits⟩
  refine ⟨after, ran, ⟨⟨?_, pushed.head, pushed.tail⟩, counted.stored stored⟩,
    same.limits.trans allocated.limits⟩
  rw [List.map_cons]
  exact pushed.chained

theorem replace_spec {node : Node} (rep : Represents inner (front ++ cell :: back) free)
    (found : inner.slots[cell.1]? = some (.occupied node)) (entry : Entry) (bytes : Nat) :
    Represents
      { inner with
        slots := inner.slots.set cell.1 (.occupied { node with entry, bytes })
        bytesTotal := inner.bytesTotal - node.bytes + bytes }
      (front ++ (cell.1, { key := cell.2.key, entry, bytes }) :: back) free := by
  have bound : cell.1 < inner.slots.length := (List.getElem?_eq_some_iff.mp found).1
  have item : node.item = cell.2 := by
    have stored := rep.items cell (List.mem_append_right _ List.mem_cons_self)
    simp only [Inner.item?, found] at stored
    exact Option.some.inj stored
  have nodup := rep.order_nodup
  rw [List.map_append, List.map_cons] at nodup
  have unused := (List.nodup_cons.mp (List.nodup_middle.mp nodup)).1
  have order : (front ++ (cell.1, ({ key := cell.2.key, entry, bytes } : Item)) :: back).map Prod.fst =
      (front ++ cell :: back).map Prod.fst := by
    simp only [List.map_append, List.map_cons]
  have kept : ∀ {i}, i ≠ cell.1 →
      (inner.slots.set cell.1 (.occupied { node with entry, bytes }))[i]? = inner.slots[i]? :=
    fun different => List.getElem?_set_ne different.symm
  refine ⟨⟨?_, ?_, ?_⟩, ⟨?_, ?_, ?_, ?_, rep.freeHead, ?_, ?_⟩⟩
  · rw [order]
    refine rep.chained.congr fun i _ => ?_
    by_cases same : i = cell.1
    · subst same
      simp only [Inner.links, List.getElem?_set_self bound, found]
    · exact links_of_slot (kept same)
  · rw [order]
    exact rep.head
  · rw [order]
    exact rep.tail
  · intro other member
    rcases List.mem_append.mp member with inFront | inRest
    · have different : other.1 ≠ cell.1 := ne_of_mem_of_not_mem
        (List.mem_append_left _ (List.mem_map_of_mem inFront)) unused
      exact (item?_of_slot (kept different)).trans
        (rep.items other (List.mem_append_left _ inFront))
    · rcases List.mem_cons.mp inRest with rfl | inBack
      · simp only [Inner.item?, List.getElem?_set_self bound, ← item, Node.item]
      · have different : other.1 ≠ cell.1 := ne_of_mem_of_not_mem
          (List.mem_append_right _ (List.mem_map_of_mem inBack)) unused
        exact (item?_of_slot (kept different)).trans
          (rep.items other (List.mem_append_right _ (List.mem_cons_of_mem _ inBack)))
  · have map := rep.map
    simp only [List.map_append, List.map_cons] at map ⊢
    exact map
  · have total := rep.bytes
    have own : node.bytes = cell.2.bytes := by rw [← item]; rfl
    simp only [List.map_append, List.map_cons, List.sum_append, List.sum_cons] at total ⊢
    omega
  · refine rep.stacked.congr fun i member => nextFree_of_slot (kept ?_)
    intro same
    have apart := (List.nodup_append.mp rep.nodup).2.2
    exact apart cell.1 (by simp) i member same.symm
  · rw [order, List.length_set]
    exact rep.slots
  · rw [List.length_set]
    exact rep.room

end Operations

end Sumidero.Cache
