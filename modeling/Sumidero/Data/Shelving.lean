import Mathlib.Data.List.Basic

namespace Sumidero.Data

/-! A log that grows at its end and from which sweeps take what is older than their cutoff.
What was added after a sweep is not concerned by it. -/

universe u

/-- Everything ever added, each item with the number of sweeps before it, and the cutoffs. -/
structure Shelving (α : Type u) where
  items : List (α × Nat)
  cutoffs : List Int
  known : ∀ item ∈ items, item.2 ≤ cutoffs.length

namespace Shelving

variable {α : Type u}

/-- Found with some items on it, never swept. -/
def stocked (found : List α) : Shelving α where
  items := found.map fun item => (item, 0)
  cutoffs := []
  known := by
    intro item member
    obtain ⟨_, _, rfl⟩ := List.mem_map.mp member
    exact Nat.le_refl 0

def add (shelf : Shelving α) (more : List α) : Shelving α where
  items := shelf.items ++ more.map fun item => (item, shelf.cutoffs.length)
  cutoffs := shelf.cutoffs
  known := by
    intro item member
    rcases List.mem_append.mp member with old | new
    · exact shelf.known item old
    · obtain ⟨_, _, rfl⟩ := List.mem_map.mp new
      exact Nat.le_refl _

def sweep (shelf : Shelving α) (cutoff : Int) : Shelving α where
  items := shelf.items
  cutoffs := shelf.cutoffs ++ [cutoff]
  known := by
    intro item member
    have before := shelf.known item member
    rw [List.length_append]
    omega

/-- Everything ever added, in order. -/
def all (shelf : Shelving α) : List α := shelf.items.map Prod.fst

/-- No sweep since the item was added had a later cutoff than its time. -/
def Spared (ts : α → Int) (cutoffs : List Int) (item : α × Nat) : Prop :=
  ∀ cutoff ∈ cutoffs.drop item.2, cutoff ≤ ts item.1

instance (ts : α → Int) (cutoffs : List Int) (item : α × Nat) :
    Decidable (Spared ts cutoffs item) :=
  inferInstanceAs (Decidable (∀ _ ∈ _, _))

/-- What is still there. -/
def kept (ts : α → Int) (shelf : Shelving α) : List α :=
  (shelf.items.filter fun item => Spared ts shelf.cutoffs item).map Prod.fst

variable {ts : α → Int} {shelf : Shelving α}

theorem spared_last {item : α} : Spared ts shelf.cutoffs (item, shelf.cutoffs.length) := by
  simp only [Spared, List.drop_length, List.not_mem_nil, false_implies, implies_true]

theorem kept_stocked (found : List α) : (stocked found).kept ts = found := by
  have spared : (stocked found).items.filter
      (fun item => Spared ts (stocked found).cutoffs item) = (stocked found).items := by
    apply List.filter_eq_self.mpr
    intro item _
    simp [Spared, stocked]
  rw [kept, spared, stocked, List.map_map]
  exact List.map_id found

theorem all_stocked (found : List α) : (stocked found).all = found := by
  rw [all, stocked, List.map_map]
  exact List.map_id found

theorem all_add (more : List α) : (shelf.add more).all = shelf.all ++ more := by
  rw [all, add, List.map_append, List.map_map]
  exact congrArg (shelf.all ++ ·) (List.map_id more)

theorem all_sweep (cutoff : Int) : (shelf.sweep cutoff).all = shelf.all := rfl

/-- What is added is there. -/
theorem kept_add (more : List α) : (shelf.add more).kept ts = shelf.kept ts ++ more := by
  have fresh : (more.map fun item => (item, shelf.cutoffs.length)).filter
      (fun item => Spared ts shelf.cutoffs item) =
      more.map fun item => (item, shelf.cutoffs.length) := by
    apply List.filter_eq_self.mpr
    intro item member
    obtain ⟨_, _, rfl⟩ := List.mem_map.mp member
    exact decide_eq_true spared_last
  have split : (shelf.add more).kept ts =
      ((shelf.items ++ more.map fun item => (item, shelf.cutoffs.length)).filter
        fun item => Spared ts shelf.cutoffs item).map Prod.fst := rfl
  rw [split, List.filter_append, List.map_append, fresh, List.map_map]
  exact congrArg (shelf.kept ts ++ ·) (List.map_id more)

theorem spared_sweep {item : α × Nat} (known : item ∈ shelf.items) (cutoff : Int) :
    Spared ts (shelf.sweep cutoff).cutoffs item ↔
      Spared ts shelf.cutoffs item ∧ cutoff ≤ ts item.1 := by
  have dropped : (shelf.sweep cutoff).cutoffs.drop item.2 =
      shelf.cutoffs.drop item.2 ++ [cutoff] :=
    List.drop_append_of_le_length (shelf.known item known)
  simp only [Spared, dropped, List.forall_mem_append, List.forall_mem_singleton]

/-- A sweep takes what is older than its cutoff, and nothing else. -/
theorem kept_sweep (cutoff : Int) :
    (shelf.sweep cutoff).kept ts = (shelf.kept ts).filter fun item => cutoff ≤ ts item := by
  rw [kept, kept, List.filter_map, List.filter_filter]
  congr 1
  apply List.filter_congr
  intro item member
  have known : item ∈ shelf.items := member
  rw [decide_eq_decide.mpr (spared_sweep known cutoff), Bool.decide_and, Bool.and_comm]
  rfl

theorem kept_sublist : (shelf.kept ts).Sublist shelf.all := by
  exact List.Sublist.map Prod.fst List.filter_sublist

/-- Nothing that no sweep could reach is missing. -/
theorem kept_window {since : Int} (reached : ∀ cutoff ∈ shelf.cutoffs, cutoff ≤ since) :
    (shelf.kept ts).filter (fun item => since ≤ ts item) =
      shelf.all.filter fun item => since ≤ ts item := by
  simp only [kept, all]
  rw [List.filter_map, List.filter_map, List.filter_filter]
  congr 1
  apply List.filter_congr
  intro item _
  simp only [Function.comp_apply]
  by_cases recent : since ≤ ts item.1
  · have spared : Spared ts shelf.cutoffs item := fun cutoff member =>
      Int.le_trans (reached cutoff (List.mem_of_mem_drop member)) recent
    simp only [recent, spared, decide_true, Bool.and_true]
  · simp only [recent, decide_false, Bool.false_and]

/-- What is older than a cutoff and still there was added after that sweep. -/
theorem added_after {item : α} {place : Nat} {cutoff : Int} (member : item ∈ shelf.kept ts)
    (swept : shelf.cutoffs[place]? = some cutoff) (old : ts item < cutoff) :
    ∃ added, (item, added) ∈ shelf.items ∧ place < added := by
  obtain ⟨⟨same, added⟩, among, rfl⟩ := List.mem_map.mp member
  obtain ⟨inside, spared⟩ := List.mem_filter.mp among
  refine ⟨added, inside, ?_⟩
  apply Nat.lt_of_not_le
  intro earlier
  have reached : cutoff ∈ shelf.cutoffs.drop added := by
    apply List.mem_of_getElem? (i := place - added)
    rw [List.getElem?_drop, Nat.add_sub_cancel' earlier]
    exact swept
  have young := of_decide_eq_true spared cutoff reached
  dsimp only at young old
  omega

end Shelving

end Sumidero.Data
