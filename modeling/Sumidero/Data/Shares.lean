import Mathlib.Data.List.Basic

namespace Sumidero.Data

/-! A counter that many tasks share: what it shows is the sum of what each of them has put in. -/

universe u

variable {α : Type u} {share : α → Nat} {items : List α} {index : Nat} {before after : α}

def total (share : α → Nat) : List α → Nat
  | [] => 0
  | item :: rest => share item + total share rest

@[simp] theorem total_nil : total share [] = 0 := rfl

theorem total_cons (item : α) : total share (item :: items) = share item + total share items := rfl

theorem total_append (more : List α) :
    total share (items ++ more) = total share items + total share more := by
  induction items with
  | nil => rw [List.nil_append, total_nil, Nat.zero_add]
  | cons item rest ih => rw [List.cons_append, total_cons, total_cons, ih, Nat.add_assoc]

theorem total_snoc (item : α) : total share (items ++ [item]) = total share items + share item :=
  total_append [item]

/-- One task moves on: the total changes by what its share changes. -/
theorem total_set (found : items[index]? = some before) :
    total share (items.set index after) + share before = total share items + share after := by
  induction items generalizing index with
  | nil => cases found
  | cons item rest ih =>
      cases index with
      | zero =>
          cases found
          rw [List.set_cons_zero, total_cons, total_cons]
          omega
      | succ index =>
          have later := ih found
          rw [List.set_cons_succ, total_cons, total_cons]
          omega

theorem share_le_total {item : α} (member : item ∈ items) : share item ≤ total share items := by
  induction items with
  | nil => cases member
  | cons first rest ih =>
      rw [total_cons]
      rcases List.mem_cons.mp member with rfl | later
      · omega
      · have within := ih later
        omega

/-- The total as the share of one task and the rest. -/
theorem total_split (found : items[index]? = some before) (after : α) :
    ∃ rest, total share items = rest + share before ∧
      total share (items.set index after) = rest + share after := by
  have moved : total share (items.set index after) + share before =
      total share items + share after := total_set found
  have within : share before ≤ total share items := share_le_total (List.mem_of_getElem? found)
  exact ⟨total share items - share before, by omega, by omega⟩

theorem total_set_same (found : items[index]? = some before) (same : share after = share before) :
    total share (items.set index after) = total share items := by
  have moved : total share (items.set index after) + share before =
      total share items + share after := total_set found
  omega

theorem total_set_succ (found : items[index]? = some before)
    (more : share after = share before + 1) :
    total share (items.set index after) = total share items + 1 := by
  have moved : total share (items.set index after) + share before =
      total share items + share after := total_set found
  omega

/-- Shares of at most one are counted. -/
theorem total_eq_countP {holds : α → Bool}
    (counts : ∀ item ∈ items, share item = if holds item then 1 else 0) :
    total share items = items.countP holds := by
  induction items with
  | nil => rfl
  | cons item rest ih =>
      have first := counts item List.mem_cons_self
      have others := ih fun other member => counts other (List.mem_cons_of_mem _ member)
      rw [total_cons, List.countP_cons, first, others]
      omega

theorem countP_set (holds : α → Bool) (found : items[index]? = some before) :
    (items.set index after).countP holds + (holds before).toNat =
      items.countP holds + (holds after).toNat := by
  have counted : ∀ items : List α,
      items.countP holds = total (fun item => (holds item).toNat) items :=
    fun items => (total_eq_countP fun item _ => by cases holds item <;> rfl).symm
  rw [counted, counted]
  exact total_set found

theorem countP_set_same {holds : α → Bool} (found : items[index]? = some before)
    (same : holds after = holds before) :
    (items.set index after).countP holds = items.countP holds := by
  have moved : (items.set index after).countP holds + _ = _ + _ := countP_set holds found
  rw [same] at moved
  omega

section Records

universe v

variable {Value : Type v} {record : α → Option Value}

theorem records_set_same (found : items[index]? = some before)
    (same : record after = record before) :
    (items.set index after).filterMap record = items.filterMap record := by
  induction items generalizing index with
  | nil => cases found
  | cons item rest ih =>
      cases index with
      | zero =>
          cases found
          rw [List.set_cons_zero, List.filterMap_cons, List.filterMap_cons, same]
      | succ index => rw [List.set_cons_succ, List.filterMap_cons, List.filterMap_cons, ih found]

theorem map_set_same {kept : α → Value} (found : items[index]? = some before)
    (same : kept after = kept before) : (items.set index after).map kept = items.map kept := by
  obtain ⟨inside, rfl⟩ := List.getElem?_eq_some_iff.mp found
  have mapped : index < (items.map kept).length := by rwa [List.length_map]
  have there : (items.map kept)[index] = kept items[index] := List.getElem_map kept
  rw [List.map_set, same, ← there, List.set_getElem_self]

/-- A task that had no record makes one: it is one more, in some place. -/
theorem records_set_new {value : Value} (found : items[index]? = some before)
    (none : record before = none) (made : record after = some value) :
    ((items.set index after).filterMap record).Perm (items.filterMap record ++ [value]) := by
  induction items generalizing index with
  | nil => cases found
  | cons item rest ih =>
      cases index with
      | zero =>
          cases found
          rw [List.set_cons_zero, List.filterMap_cons_some made, List.filterMap_cons_none none]
          exact (List.perm_append_singleton _ _).symm
      | succ index =>
          rw [List.set_cons_succ]
          cases first : record item with
          | none =>
              rw [List.filterMap_cons_none first, List.filterMap_cons_none first]
              exact ih found
          | some other =>
              rw [List.filterMap_cons_some first, List.filterMap_cons_some first]
              exact (ih found).cons other

end Records

end Sumidero.Data
