import Mathlib.Data.List.Dedup
import Mathlib.Data.List.Sort

namespace Sumidero.Data

/-! The first items of a list in some order, and how often each item occurs in it. -/

universe u

variable {α : Type u} {before : α → α → Prop} {items picked : List α} {limit : Nat}

/-- The first `limit` of the items as `before` orders them: what was left out comes later. -/
structure Leading (before : α → α → Prop) (limit : Nat) (items picked : List α) : Prop where
  ordered : picked.Pairwise before
  length : picked.length = min limit items.length
  rest : ∃ others, (picked ++ others).Perm items ∧
    ∀ item ∈ picked, ∀ other ∈ others, before item other

theorem leading_take [DecidableRel before] [Std.Total before] [IsTrans α before] (limit : Nat)
    (items : List α) : Leading before limit items ((items.insertionSort before).take limit) := by
  have sorted : (items.insertionSort before).Pairwise before :=
    List.pairwise_insertionSort before items
  refine ⟨sorted.sublist (List.take_sublist _ _), ?_, (items.insertionSort before).drop limit, ?_, ?_⟩
  · rw [List.length_take, List.length_insertionSort]
  · rw [List.take_append_drop]
    exact List.perm_insertionSort before items
  · rw [← List.take_append_drop limit (items.insertionSort before)] at sorted
    exact (List.pairwise_append.mp sorted).2.2

theorem Leading.mem (leading : Leading before limit items picked) {item : α}
    (member : item ∈ picked) : item ∈ items := by
  obtain ⟨others, same, _⟩ := leading.rest
  exact same.mem_iff.mp (List.mem_append_left others member)

theorem Leading.perm {others : List α} (leading : Leading before limit items picked)
    (same : items.Perm others) : Leading before limit others picked := by
  obtain ⟨ordered, length, rest, split, later⟩ := leading
  exact ⟨ordered, by rw [length, same.length_eq], rest, split.trans same, later⟩

section Tally

variable [DecidableEq α]

/-- Each item once, with the number of times it occurs. -/
def tally (items : List α) : List (α × Nat) :=
  items.dedup.map fun item => (item, items.count item)

end Tally

end Sumidero.Data
