import Sumidero.Cache.Slots
import Sumidero.Data.Linked

namespace Sumidero.Cache

open Sumidero.Data

/-! What the slot array stands for: a list of items, most recent first, each in a
slot of its own, with the remaining slots on the free list. -/

structure Item where
  key : CacheKey
  entry : Entry
  bytes : Nat
deriving Repr, DecidableEq

def Node.item (node : Node) : Item :=
  { key := node.key, entry := node.entry, bytes := node.bytes }

/-- The map's entry for a slot and the item in it. -/
def indexed (cell : Nat × Item) : Sigma fun _ : CacheKey => Nat := ⟨cell.2.key, cell.1⟩

@[simp] theorem Node.item_entry (node : Node) : node.item.entry = node.entry := rfl

namespace Inner

def links (inner : Inner) (i : Nat) : Option (Nat × Nat) :=
  match inner.slots[i]? with
  | some (.occupied node) => some (node.prev, node.next)
  | _ => none

def item? (inner : Inner) (i : Nat) : Option Item :=
  match inner.slots[i]? with
  | some (.occupied node) => some node.item
  | _ => none

def nextFree (inner : Inner) (i : Nat) : Option Nat :=
  match inner.slots[i]? with
  | some (.free next) => some next
  | _ => none

end Inner

/-- The recency list, linked in both directions, between `head` and `tail`. -/
structure Threaded (inner : Inner) (order : List Nat) : Prop where
  chained : Chained inner.links NONE order NONE
  head : inner.head = order.headD NONE
  tail : inner.tail = order.getLastD NONE

/-- The items in their slots, the map and the byte count over them, the free list
beside them, and no slot on neither list. -/
structure Stored (inner : Inner) (cells : List (Nat × Item)) (free : List Nat) : Prop where
  items : ∀ cell ∈ cells, inner.item? cell.1 = some cell.2
  map : inner.map.entries.Perm (cells.map indexed)
  bytes : inner.bytesTotal = (cells.map fun cell => cell.2.bytes).sum
  stacked : Stacked NONE inner.nextFree free
  freeHead : inner.freeHead = free.headD NONE
  slots : (cells.map Prod.fst ++ free).Perm (List.range inner.slots.length)
  room : inner.slots.length ≤ inner.limits.capacity

structure Represents (inner : Inner) (cells : List (Nat × Item)) (free : List Nat) : Prop
    extends Threaded inner (cells.map Prod.fst), Stored inner cells free

section Slots

variable {inner : Inner} {i : Nat} {node : Node}

theorem links_eq_some {pair : Nat × Nat} (linked : inner.links i = some pair) :
    ∃ node, inner.slots[i]? = some (.occupied node) ∧ (node.prev, node.next) = pair := by
  simp only [Inner.links] at linked
  split at linked
  · rename_i node found
    exact ⟨node, found, Option.some.inj linked⟩
  · contradiction

theorem item?_eq_some {item : Item} (stored : inner.item? i = some item) :
    ∃ node, inner.slots[i]? = some (.occupied node) ∧ node.item = item := by
  unfold Inner.item? at stored
  split at stored
  · rename_i node found
    exact ⟨node, found, Option.some.inj stored⟩
  · contradiction

theorem nextFree_eq_some {next : Nat} (linked : inner.nextFree i = some next) :
    inner.slots[i]? = some (.free next) := by
  simp only [Inner.nextFree] at linked
  split at linked
  · rename_i other found
    rw [found, Option.some.inj linked]
  · contradiction

/-- Only links differ. -/
structure SameStore (inner after : Inner) : Prop where
  items : after.item? = inner.item?
  nextFree : after.nextFree = inner.nextFree
  length : after.slots.length = inner.slots.length
  map : after.map = inner.map
  bytesTotal : after.bytesTotal = inner.bytesTotal
  freeHead : after.freeHead = inner.freeHead
  limits : after.limits = inner.limits

theorem SameStore.refl (inner : Inner) : SameStore inner inner := ⟨rfl, rfl, rfl, rfl, rfl, rfl, rfl⟩

theorem SameStore.trans {first second third : Inner} (one : SameStore first second)
    (two : SameStore second third) : SameStore first third :=
  ⟨two.items.trans one.items, two.nextFree.trans one.nextFree, two.length.trans one.length,
    two.map.trans one.map, two.bytesTotal.trans one.bytesTotal, two.freeHead.trans one.freeHead,
    two.limits.trans one.limits⟩

theorem SameStore.stored {after : Inner} (same : SameStore inner after)
    {cells : List (Nat × Item)} {free : List Nat} (stored : Stored inner cells free) :
    Stored after cells free := by
  refine ⟨?_, ?_, ?_, ?_, ?_, ?_, ?_⟩
  · rw [same.items]; exact stored.items
  · rw [same.map]; exact stored.map
  · rw [same.bytesTotal]; exact stored.bytes
  · rw [same.nextFree]; exact stored.stacked
  · rw [same.freeHead]; exact stored.freeHead
  · rw [same.length]; exact stored.slots
  · rw [same.length, same.limits]; exact stored.room

theorem modify_spec (found : inner.slots[i]? = some (.occupied node)) (update : Node → Node)
    (kept : (update node).item = node.item) :
    ∃ after, inner.modify i update = some after ∧ SameStore inner after ∧
      after.links = Function.update inner.links i (some ((update node).prev, (update node).next)) ∧
      after.head = inner.head ∧ after.tail = inner.tail := by
  have bound : i < inner.slots.length := (List.getElem?_eq_some_iff.mp found).1
  refine ⟨{ inner with slots := inner.slots.set i (.occupied (update node)) },
    by simp [Inner.modify, found], ⟨?_, ?_, by simp, rfl, rfl, rfl, rfl⟩, ?_, rfl, rfl⟩
  · funext j
    by_cases same : j = i
    · subst same
      simp [Inner.item?, found, List.getElem?_set_self bound, kept]
    · simp [Inner.item?, List.getElem?_set_ne (Ne.symm same)]
  · funext j
    by_cases same : j = i
    · subst same
      simp [Inner.nextFree, found, List.getElem?_set_self bound]
    · simp [Inner.nextFree, List.getElem?_set_ne (Ne.symm same)]
  · funext j
    by_cases same : j = i
    · subst same
      simp [Inner.links, List.getElem?_set_self bound]
    · simp [Inner.links, List.getElem?_set_ne (Ne.symm same), Function.update_of_ne same]

theorem modify_next {p : Nat} {pair : Nat × Nat} (linked : inner.links p = some pair)
    (ahead : Nat) :
    ∃ after, inner.modify p (fun node => { node with next := ahead }) = some after ∧
      SameStore inner after ∧ after.links = setNext inner.links p ahead ∧
      after.head = inner.head ∧ after.tail = inner.tail := by
  obtain ⟨node, found, rfl⟩ := links_eq_some linked
  have spec := modify_spec found (fun node => { node with next := ahead }) rfl
  simpa only [setNext, linked, Option.map_some] using spec

theorem modify_prev {n : Nat} {pair : Nat × Nat} (linked : inner.links n = some pair)
    (back : Nat) :
    ∃ after, inner.modify n (fun node => { node with prev := back }) = some after ∧
      SameStore inner after ∧ after.links = setPrev inner.links n back ∧
      after.head = inner.head ∧ after.tail = inner.tail := by
  obtain ⟨node, found, rfl⟩ := links_eq_some linked
  have spec := modify_spec found (fun node => { node with prev := back }) rfl
  simpa only [setPrev, linked, Option.map_some] using spec

theorem modify_both {j : Nat} {pair : Nat × Nat} (linked : inner.links j = some pair)
    (back ahead : Nat) :
    ∃ after, inner.modify j (fun node => { node with prev := back, next := ahead }) = some after ∧
      SameStore inner after ∧ after.links = Function.update inner.links j (some (back, ahead)) ∧
      after.head = inner.head ∧ after.tail = inner.tail := by
  obtain ⟨node, found, rfl⟩ := links_eq_some linked
  exact modify_spec found (fun node => { node with prev := back, next := ahead }) rfl

end Slots

section Threading

variable {inner : Inner}

/-- The first half of `unlink`: the previous node, or `head`, skips to `next`. -/
theorem unlink_prev (prev next : Nat)
    (linked : prev ≠ NONE → ∃ pair, inner.links prev = some pair) :
    ∃ after,
      (if prev = NONE then some { inner with head := next }
        else inner.modify prev fun p => { p with next := next }) = some after ∧
      SameStore inner after ∧
      after.links = (if prev = NONE then inner.links else setNext inner.links prev next) ∧
      after.head = (if prev = NONE then next else inner.head) ∧ after.tail = inner.tail := by
  by_cases first : prev = NONE
  · exact ⟨{ inner with head := next }, by simp [first], ⟨rfl, rfl, rfl, rfl, rfl, rfl, rfl⟩,
      by simp only [first, if_true]; rfl, by simp [first], rfl⟩
  · obtain ⟨pair, found⟩ := linked first
    simpa only [first, if_false] using modify_next found next

/-- The second half: the next node, or `tail`, skips back to `prev`. -/
theorem unlink_next (prev next : Nat)
    (linked : next ≠ NONE → ∃ pair, inner.links next = some pair) :
    ∃ after,
      (if next = NONE then some { inner with tail := prev }
        else inner.modify next fun n => { n with prev := prev }) = some after ∧
      SameStore inner after ∧
      after.links = (if next = NONE then inner.links else setPrev inner.links next prev) ∧
      after.head = inner.head ∧ after.tail = (if next = NONE then prev else inner.tail) := by
  by_cases last : next = NONE
  · exact ⟨{ inner with tail := prev }, by simp [last], ⟨rfl, rfl, rfl, rfl, rfl, rfl, rfl⟩,
      by simp only [last, if_true]; rfl, rfl, by simp [last]⟩
  · obtain ⟨pair, found⟩ := linked last
    simpa only [last, if_false] using modify_prev found prev

theorem unlink_spec {front tail : List Nat} {i : Nat}
    (threaded : Threaded inner (front ++ i :: tail)) (nodup : (front ++ i :: tail).Nodup)
    (proper : NONE ∉ front ++ i :: tail) :
    ∃ after, inner.unlink i = some after ∧ SameStore inner after ∧ Threaded after (front ++ tail) ∧
      after.links i = some (NONE, NONE) := by
  have chained := threaded.chained
  obtain ⟨_, here, _⟩ := (chained_append front (i :: tail)).mp chained
  obtain ⟨node, found, same⟩ := links_eq_some here
  obtain ⟨prev, next⟩ := Prod.mk.inj same
  have linked : ∀ {j}, j ∈ front ++ i :: tail → ∃ pair, inner.links j = some pair := chained.linked
  obtain ⟨first, firstRan, firstSame, firstLinks, firstHead, firstTail⟩ :=
    unlink_prev (front.getLastD NONE) (tail.headD NONE)
      fun different => linked (List.mem_append_left _ (getLastD_mem different))
  have firstLinked : ∀ {j}, j ∈ front ++ i :: tail → ∃ pair, first.links j = some pair := by
    intro j member
    obtain ⟨pair, old⟩ := linked member
    rw [firstLinks]
    split
    · exact ⟨pair, old⟩
    · exact setNext_linked old _ _
  obtain ⟨second, secondRan, secondSame, secondLinks, secondHead, secondTail⟩ :=
    unlink_next (front.getLastD NONE) (tail.headD NONE)
      fun different => firstLinked (List.mem_append_right _
        (List.mem_cons_of_mem _ (headD_mem different)))
  have secondLinked : ∃ pair, second.links i = some pair := by
    obtain ⟨pair, old⟩ := firstLinked (List.mem_append_right _ List.mem_cons_self)
    rw [secondLinks]
    split
    · exact ⟨pair, old⟩
    · exact setPrev_linked old _ _
  obtain ⟨pair, old⟩ := secondLinked
  obtain ⟨third, thirdRan, thirdSame, thirdLinks, thirdHead, thirdTail⟩ := modify_both old NONE NONE
  have relinked : third.links =
      unlinkAt NONE inner.links i (front.getLastD NONE) (tail.headD NONE) := by
    rw [thirdLinks, secondLinks, firstLinks]
    rfl
  refine ⟨third, ?_, (firstSame.trans secondSame).trans thirdSame, ⟨?_, ?_, ?_⟩, ?_⟩
  · simp only [Inner.unlink]
    rw [found, Option.bind_eq_bind, Option.bind_some]
    simp only [prev, next, firstRan, secondRan, thirdRan, Option.bind_eq_bind, Option.bind_some]
  · rw [relinked]
    exact chained.unlink nodup proper
  · rw [thirdHead, secondHead, firstHead, threaded.head]
    exact headD_unlink (fun member => proper (List.mem_append_left _ member)) i tail
  · rw [thirdTail, secondTail, firstTail, threaded.tail]
    refine getLastD_unlink (fun member => proper ?_) front i
    exact List.mem_append_right _ (List.mem_cons_of_mem _ member)
  · rw [thirdLinks]
    exact Function.update_self ..

theorem pushHead_spec {order : List Nat} {i : Nat} {pair : Nat × Nat}
    (threaded : Threaded inner order) (nodup : order.Nodup) (proper : NONE ∉ order)
    (fresh : i ∉ order) (linked : inner.links i = some pair) :
    ∃ after, inner.pushHead i = some after ∧ SameStore inner after ∧ Threaded after (i :: order) := by
  obtain ⟨first, firstRan, firstSame, firstLinks, firstHead, firstTail⟩ :=
    modify_both linked NONE inner.head
  have pushed : ∃ second,
      (if first.head = NONE then some first
        else first.modify first.head fun oldHead => { oldHead with prev := i }) = some second ∧
      SameStore first second ∧ second.links = pushAt NONE inner.links i (order.headD NONE) ∧
      second.tail = first.tail := by
    simp only [pushAt]
    rw [firstHead, threaded.head]
    by_cases empty : order.headD NONE = NONE
    · exact ⟨first, by simp only [empty, if_true], .refl first,
        by simp only [empty, if_true, firstLinks, threaded.head], rfl⟩
    · obtain ⟨head, found⟩ := threaded.chained.linked (headD_mem empty)
      have different : order.headD NONE ≠ i := ne_of_mem_of_not_mem (headD_mem empty) fresh
      have kept : first.links (order.headD NONE) = some head := by
        rw [firstLinks, Function.update_of_ne different]
        exact found
      obtain ⟨second, ran, same, links, _, tail⟩ := modify_prev kept i
      refine ⟨second, ?_, same, ?_, tail⟩
      · simpa only [empty, if_false] using ran
      · simpa only [empty, if_false, firstLinks, threaded.head] using links
  obtain ⟨second, secondRan, secondSame, secondLinks, secondTail⟩ := pushed
  refine ⟨{ second with head := i, tail := if second.tail = NONE then i else second.tail }, ?_,
    (firstSame.trans secondSame).trans ⟨rfl, rfl, rfl, rfl, rfl, rfl, rfl⟩, ?_, rfl, ?_⟩
  · simp only [Inner.pushHead, firstRan, secondRan, Option.bind_eq_bind, Option.bind_some]
    rfl
  · have links := threaded.chained.push nodup proper fresh
    rw [← secondLinks] at links
    exact links
  · rw [secondTail, firstTail, threaded.tail]
    cases order with
    | nil => simp
    | cons j rest =>
        rw [if_neg (getLastD_ne proper)]
        rfl

end Threading

end Sumidero.Cache
