import Mathlib.Data.List.Nodup
import Mathlib.Logic.Function.Basic

namespace Sumidero.Data

universe u

/-! Lists threaded through a store by index: a doubly linked list with a sentinel
at both ends, and a singly linked one ending in the sentinel.  `links i` is the
previous and the next index of a node, `next i` the next index of a free cell. -/

variable {Index : Type u}

/-- The nodes of the list, in order, each linked to its neighbours: the first one
back to `back`, the last one ahead to `ahead`. -/
def Chained (links : Index → Option (Index × Index)) : Index → List Index → Index → Prop
  | _, [], _ => True
  | back, i :: rest, ahead => links i = some (back, rest.headD ahead) ∧ Chained links i rest ahead

/-- The cells of the list, in order, each linked to the one after it. -/
def Stacked (nil : Index) (next : Index → Option Index) : List Index → Prop
  | [] => True
  | i :: rest => next i = some (rest.headD nil) ∧ Stacked nil next rest

section Frames

variable {links other : Index → Option (Index × Index)} {back ahead : Index} {list : List Index}

theorem Chained.congr (chained : Chained links back list ahead)
    (same : ∀ i ∈ list, other i = links i) : Chained other back list ahead := by
  induction list generalizing back with
  | nil => trivial
  | cons i rest ih =>
      refine ⟨(same i List.mem_cons_self).trans chained.1, ih chained.2 ?_⟩
      exact fun j member => same j (List.mem_cons_of_mem _ member)

theorem chained_append (front tail : List Index) :
    Chained links back (front ++ tail) ahead ↔
      Chained links back front (tail.headD ahead) ∧
        Chained links (front.getLastD back) tail ahead := by
  induction front generalizing back with
  | nil => simp [Chained]
  | cons i rest ih =>
      have head : (rest ++ tail).headD ahead = rest.headD (tail.headD ahead) := by
        cases rest <;> rfl
      simp only [List.cons_append, Chained, ih, head, and_assoc]
      cases rest <;> rfl

theorem Chained.linked (chained : Chained links back list ahead) {i : Index} (member : i ∈ list) :
    ∃ pair, links i = some pair := by
  induction list generalizing back with
  | nil => contradiction
  | cons j rest ih =>
      rcases List.mem_cons.mp member with rfl | later
      · exact ⟨_, chained.1⟩
      · exact ih chained.2 later

theorem headD_mem {nil : Index} (proper : list.headD nil ≠ nil) : list.headD nil ∈ list := by
  cases list with
  | nil => exact absurd rfl proper
  | cons i rest => exact List.mem_cons_self

theorem getLastD_mem {nil : Index} (proper : list.getLastD nil ≠ nil) :
    list.getLastD nil ∈ list := by
  rcases List.eq_nil_or_concat list with rfl | ⟨front, last, rfl⟩
  · exact absurd rfl proper
  · simp

theorem getLastD_ne {nil j : Index} {rest : List Index} (proper : nil ∉ j :: rest) :
    (j :: rest).getLastD nil ≠ nil := by
  rw [List.getLastD_cons]
  exact ne_of_mem_of_not_mem List.getLastD_mem_cons proper

/-- Where a list starts without one of its nodes, from that node's neighbours. -/
theorem headD_unlink [DecidableEq Index] {nil : Index} {front : List Index} (proper : nil ∉ front)
    (i : Index) (tail : List Index) :
    (if front.getLastD nil = nil then tail.headD nil else (front ++ i :: tail).headD nil) =
      (front ++ tail).headD nil := by
  cases front with
  | nil => simp
  | cons j rest =>
      rw [if_neg (getLastD_ne proper)]
      rfl

theorem getLastD_unlink [DecidableEq Index] {nil : Index} {tail : List Index}
    (proper : nil ∉ tail) (front : List Index) (i : Index) :
    (if tail.headD nil = nil then front.getLastD nil else (front ++ i :: tail).getLastD nil) =
      (front ++ tail).getLastD nil := by
  cases tail with
  | nil => simp
  | cons j rest =>
      have head : j ≠ nil := fun same => proper (same ▸ List.mem_cons_self)
      rw [List.headD_cons, if_neg head]
      simp [List.getLastD_eq_getLast?]

theorem Stacked.congr {nil : Index} {next others : Index → Option Index} {list : List Index}
    (stacked : Stacked nil next list) (same : ∀ i ∈ list, others i = next i) :
    Stacked nil others list := by
  induction list with
  | nil => trivial
  | cons i rest ih =>
      refine ⟨(same i List.mem_cons_self).trans stacked.1, ih stacked.2 ?_⟩
      exact fun j member => same j (List.mem_cons_of_mem _ member)

end Frames

section Relinking

variable [DecidableEq Index]

def setPrev (links : Index → Option (Index × Index)) (i back : Index) :
    Index → Option (Index × Index) :=
  Function.update links i ((links i).map fun pair => (back, pair.2))

def setNext (links : Index → Option (Index × Index)) (i ahead : Index) :
    Index → Option (Index × Index) :=
  Function.update links i ((links i).map fun pair => (pair.1, ahead))

variable {links : Index → Option (Index × Index)} {back ahead : Index} {list : List Index}

theorem setPrev_of_ne {i j : Index} (different : j ≠ i) (back : Index) :
    setPrev links i back j = links j :=
  Function.update_of_ne different _ _

theorem setNext_of_ne {i j : Index} (different : j ≠ i) (ahead : Index) :
    setNext links i ahead j = links j :=
  Function.update_of_ne different _ _

theorem setPrev_linked {j : Index} {pair : Index × Index} (linked : links j = some pair)
    (i back : Index) : ∃ pair, setPrev links i back j = some pair := by
  by_cases same : j = i
  · subst same
    exact ⟨(back, pair.2), by simp [setPrev, linked]⟩
  · exact ⟨pair, (setPrev_of_ne same back).trans linked⟩

theorem setNext_linked {j : Index} {pair : Index × Index} (linked : links j = some pair)
    (i ahead : Index) : ∃ pair, setNext links i ahead j = some pair := by
  by_cases same : j = i
  · subst same
    exact ⟨(pair.1, ahead), by simp [setNext, linked]⟩
  · exact ⟨pair, (setNext_of_ne same ahead).trans linked⟩

theorem Chained.update (chained : Chained links back list ahead) {i : Index} (absent : i ∉ list)
    (pair : Option (Index × Index)) : Chained (Function.update links i pair) back list ahead :=
  chained.congr fun _ member => Function.update_of_ne (ne_of_mem_of_not_mem member absent) _ _

/-- Relinking the last node moves the end of the list only. -/
theorem Chained.setNext_last {front : List Index} {i : Index} {old : Index}
    (chained : Chained links back (front ++ [i]) old) (absent : i ∉ front) (new : Index) :
    Chained (setNext links i new) back (front ++ [i]) new := by
  obtain ⟨before, ⟨here, _⟩⟩ := (chained_append front [i]).mp chained
  refine (chained_append front [i]).mpr ⟨before.update absent _, ?_, trivial⟩
  simp [setNext, here]

theorem Chained.setPrev_first {rest : List Index} {i : Index} {old : Index}
    (chained : Chained links old (i :: rest) ahead) (absent : i ∉ rest) (new : Index) :
    Chained (setPrev links i new) new (i :: rest) ahead := by
  refine ⟨?_, chained.2.update absent _⟩
  simp [setPrev, chained.1]

/-- Take a node linked to `back` and `ahead` out of the list around it. -/
def unlinkAt (nil : Index) (links : Index → Option (Index × Index)) (i back ahead : Index) :
    Index → Option (Index × Index) :=
  let links := if back = nil then links else setNext links back ahead
  let links := if ahead = nil then links else setPrev links ahead back
  Function.update links i (some (nil, nil))

/-- Put a node in front of the list that starts at `head`. -/
def pushAt (nil : Index) (links : Index → Option (Index × Index)) (i head : Index) :
    Index → Option (Index × Index) :=
  let links := Function.update links i (some (nil, head))
  if head = nil then links else setPrev links head i

theorem bridge_front {nil : Index} {front : List Index} {old : Index}
    (chained : Chained links nil front old) (nodup : front.Nodup) (proper : nil ∉ front)
    (new : Index) :
    Chained (if front.getLastD nil = nil then links else setNext links (front.getLastD nil) new)
      nil front new := by
  rcases List.eq_nil_or_concat front with rfl | ⟨before, last, rfl⟩
  · trivial
  · rw [List.concat_eq_append] at *
    have absent : last ∉ before := fun member =>
      (List.nodup_append.mp nodup).2.2 last member last List.mem_cons_self rfl
    have different : last ≠ nil := fun same => proper (by simp [same])
    rw [List.getLastD_concat]
    simpa [different] using chained.setNext_last absent new

theorem bridge_tail {nil : Index} {tail : List Index} {old : Index}
    (chained : Chained links old tail nil) (nodup : tail.Nodup) (proper : nil ∉ tail)
    (new : Index) :
    Chained (if tail.headD nil = nil then links else setPrev links (tail.headD nil) new)
      new tail nil := by
  cases tail with
  | nil => trivial
  | cons i rest =>
      have different : i ≠ nil := fun same => proper (by simp [same])
      simpa [different] using chained.setPrev_first (List.nodup_cons.mp nodup).1 new

theorem Chained.unlink {nil i : Index} {front tail : List Index}
    (chained : Chained links nil (front ++ i :: tail) nil)
    (nodup : (front ++ i :: tail).Nodup) (proper : nil ∉ front ++ i :: tail) :
    Chained (unlinkAt nil links i (front.getLastD nil) (tail.headD nil)) nil (front ++ tail) nil := by
  obtain ⟨before, here, after⟩ := (chained_append front (i :: tail)).mp chained
  obtain ⟨frontNodup, tailNodup, apart⟩ := List.nodup_append.mp nodup
  obtain ⟨absent, tailNodup⟩ := List.nodup_cons.mp tailNodup
  have properFront : nil ∉ front := fun member => proper (List.mem_append_left _ member)
  have properTail : nil ∉ tail := fun member =>
    proper (List.mem_append_right _ (List.mem_cons_of_mem _ member))
  have absentFront : i ∉ front := fun member => apart i member i List.mem_cons_self rfl
  have bridged := bridge_front before frontNodup properFront (tail.headD nil)
  have kept : Chained (if front.getLastD nil = nil then links
      else setNext links (front.getLastD nil) (tail.headD nil)) i tail nil := by
    split
    · exact after
    · rename_i different
      exact after.update (fun member => apart _ (getLastD_mem different) _
        (List.mem_cons_of_mem _ member) rfl) _
  refine ((chained_append front tail).mpr ⟨?_, ?_⟩).update ?_ _
  · split
    · exact bridged
    · rename_i different
      exact bridged.update (fun member => apart _ member _
        (List.mem_cons_of_mem _ (headD_mem different)) rfl) _
  · exact bridge_tail kept tailNodup properTail (front.getLastD nil)
  · intro member
    rcases List.mem_append.mp member with inFront | inTail
    · exact absentFront inFront
    · exact absent inTail

theorem Chained.push {nil i : Index} {list : List Index} (chained : Chained links nil list nil)
    (nodup : list.Nodup) (proper : nil ∉ list) (fresh : i ∉ list) :
    Chained (pushAt nil links i (list.headD nil)) nil (i :: list) nil := by
  have bridged := bridge_tail (chained.update fresh (some (nil, list.headD nil))) nodup proper i
  refine ⟨?_, bridged⟩
  simp only [pushAt]
  cases list with
  | nil => simp
  | cons j rest =>
      have different : i ≠ j := fun same => fresh (by simp [same])
      have head : j ≠ nil := fun same => proper (by simp [same])
      simp [head, setPrev_of_ne different]

end Relinking

end Sumidero.Data
