import Mathlib.Data.List.Forall2

namespace Sumidero.Data

/-! Sequences of checks.  One succeeds exactly when every check in it does. -/

universe u

variable {ε : Type} {α : Type u}

/-- A check that fails with `error` unless `holds`. -/
def ensure (holds : Bool) (error : ε) : Except ε Unit := if holds then .ok () else .error error

theorem ensure_ok {holds : Bool} {error : ε} : ensure holds error = .ok () ↔ holds = true := by
  simp only [ensure]
  split <;> simp [*]

theorem then_ok {first rest : Except ε Unit} :
    (do first; rest) = .ok () ↔ first = .ok () ∧ rest = .ok () := by
  cases first with
  | error reason => simp [bind, Except.bind]
  | ok done => simp [bind, Except.bind]

theorem ok_bind {β : Type u} (value : α) (next : α → Except ε β) :
    (Except.ok value >>= next) = next value := rfl

/-- The check on each item in turn; the first that fails is the one reported. -/
def checkAll (check : α → Except ε Unit) : List α → Except ε Unit
  | [] => .ok ()
  | item :: rest => do
      check item
      checkAll check rest

theorem checkAll_ok {check : α → Except ε Unit} {items : List α} :
    checkAll check items = .ok () ↔ ∀ item ∈ items, check item = .ok () := by
  induction items with
  | nil => simp [checkAll]
  | cons item rest ih => rw [checkAll, then_ok, ih, List.forall_mem_cons]

/-- A conversion of each item in turn succeeds when every one does. -/
theorem mapM_ok {β : Type u} {convert : α → Except ε β} {items : List α} {results : List β} :
    items.mapM convert = .ok results ↔
      List.Forall₂ (fun item result => convert item = .ok result) items results := by
  induction items generalizing results with
  | nil =>
      rw [List.mapM_nil]
      cases results with
      | nil => exact ⟨fun _ => .nil, fun _ => rfl⟩
      | cons result others => simp [pure, Except.pure]
  | cons item rest ih =>
      rw [List.mapM_cons]
      cases first : convert item with
      | error reason =>
          cases results <;> simp [bind, Except.bind, first]
      | ok value =>
          rw [ok_bind]
          cases later : rest.mapM convert with
          | error reason =>
              rw [later] at ih
              cases results <;> simp [bind, Except.bind, ← ih]
          | ok values =>
              rw [later] at ih
              cases results <;> simp [pure, Except.pure, ok_bind, first, ← ih]

end Sumidero.Data
