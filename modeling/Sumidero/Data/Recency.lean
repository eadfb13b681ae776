import Mathlib.Algebra.BigOperators.Group.List.Basic
import Mathlib.Algebra.Ring.Nat
import Mathlib.Data.List.Nodup
import Mathlib.Data.List.Induction

namespace Sumidero.Data

universe u v

/-! Lists kept most recent first: finding an item by its key, and dropping the
least recent ones until the rest weighs no more than a budget. -/

variable {α : Type u} {β : Type v}

/-- Drop the last item while the rest is over budget and it is not the only one. -/
def trim (weight : α → Nat) (budget : Nat) (items : List α) : List α :=
  if budget < (items.map weight).sum ∧ 1 < items.length then trim weight budget items.dropLast
  else items
termination_by items.length
decreasing_by
  rw [List.length_dropLast]
  omega

theorem trim_fits {weight : α → Nat} {budget : Nat} {items : List α}
    (fits : ¬ (budget < (items.map weight).sum ∧ 1 < items.length)) :
    trim weight budget items = items := by
  rw [trim, if_neg fits]

theorem trim_over {weight : α → Nat} {budget : Nat} {front : List α} {last : α}
    (beyond : budget < ((front ++ [last]).map weight).sum ∧ 1 < (front ++ [last]).length) :
    trim weight budget (front ++ [last]) = trim weight budget front := by
  rw [trim, if_pos beyond, List.dropLast_concat]

theorem trim_cons (weight : α → Nat) (budget : Nat) (first : α) (rest : List α) :
    ∃ kept, trim weight budget (first :: rest) = first :: kept := by
  induction rest using List.reverseRecOn with
  | nil => exact ⟨[], trim_fits (by simp)⟩
  | append_singleton front last ih =>
      rw [← List.cons_append]
      by_cases beyond : budget < (((first :: front) ++ [last]).map weight).sum ∧
          1 < ((first :: front) ++ [last]).length
      · rw [trim_over beyond]
        exact ih
      · exact ⟨front ++ [last], trim_fits beyond⟩

theorem trim_subset (weight : α → Nat) (budget : Nat) (items : List α) :
    ∀ item ∈ trim weight budget items, item ∈ items := by
  induction items using List.reverseRecOn with
  | nil => simp [trim_fits]
  | append_singleton front last ih =>
      intro item member
      by_cases beyond : budget < ((front ++ [last]).map weight).sum ∧ 1 < (front ++ [last]).length
      · rw [trim_over beyond] at member
        exact List.mem_append_left _ (ih item member)
      · rwa [trim_fits beyond] at member

theorem trim_map (weight : β → Nat) (budget : Nat) (f : α → β) (items : List α) :
    (trim (fun item => weight (f item)) budget items).map f =
      trim weight budget (items.map f) := by
  induction items using List.reverseRecOn with
  | nil => rw [trim_fits (by simp), List.map_nil, trim_fits (by simp)]
  | append_singleton front last ih =>
      have sameSum : ((front ++ [last]).map fun item => weight (f item)) =
          ((front ++ [last]).map f).map weight := by rw [List.map_map]; rfl
      by_cases beyond : budget < ((front ++ [last]).map fun item => weight (f item)).sum ∧
          1 < (front ++ [last]).length
      · rw [trim_over beyond, ih, List.map_append, List.map_singleton]
        rw [sameSum, List.map_append, List.map_singleton] at beyond
        exact (trim_over (by simpa using beyond)).symm
      · rw [trim_fits beyond]
        rw [sameSum, ← List.length_map f] at beyond
        exact (trim_fits beyond).symm

section Keys

variable {Key : Type v} [DecidableEq Key] (keyOf : α → Key)

/-- With distinct keys, the item found under its key is the one that splits the
list there, and what is left are the parts around it. -/
theorem find?_eraseP_split {front back : List α} {item : α}
    (distinct : ((front ++ item :: back).map keyOf).Nodup) :
    (front ++ item :: back).find? (fun other => keyOf other = keyOf item) = some item ∧
      (front ++ item :: back).eraseP (fun other => keyOf other = keyOf item) = front ++ back := by
  rw [List.map_append, List.map_cons] at distinct
  have absent : ∀ other ∈ front, ¬ keyOf other = keyOf item := by
    intro other member same
    exact (List.nodup_append.mp distinct).2.2 _ (List.mem_map_of_mem member) _
      List.mem_cons_self same
  constructor
  · rw [List.find?_append, List.find?_eq_none.mpr (by simpa using absent)]
    simp
  · rw [List.eraseP_append_right _ (by simpa using absent)]
    simp

end Keys

end Sumidero.Data
