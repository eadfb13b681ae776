import Mathlib.Data.List.Basic
import Mathlib.Data.List.TakeWhile

namespace Sumidero.Data

universe u v

/-! Binary search over an index range whose probe may fail, and the run of equal
keys it finds in a sorted sequence. -/

/-- Halve `lo..hi` until nothing is left between what is `below` and what is not. -/
def partitionPoint (below : Nat → Option Bool) (lo hi : Nat) : Option Nat :=
  if lo < hi then
    match below (lo + (hi - lo) / 2) with
    | none => none
    | some true => partitionPoint below (lo + (hi - lo) / 2 + 1) hi
    | some false => partitionPoint below lo (lo + (hi - lo) / 2)
  else some lo
termination_by hi - lo
decreasing_by all_goals omega

section Probe

variable {below : Nat → Option Bool} {p : Nat → Bool} {size : Nat}

/-- Where every probe answers and the answers only ever turn from true to false,
the search ends at that turn. -/
theorem partitionPoint_between (answers : ∀ i < size, below i = some (p i))
    (falling : ∀ i j, i ≤ j → j < size → p j = true → p i = true) (lo hi : Nat)
    (ordered : lo ≤ hi) (inside : hi ≤ size) (before : ∀ i < lo, p i = true)
    (after : ∀ i, hi ≤ i → i < size → p i = false) :
    ∃ turn, partitionPoint below lo hi = some turn ∧ turn ≤ size ∧
      (∀ i < turn, p i = true) ∧ ∀ i, turn ≤ i → i < size → p i = false := by
  induction lo, hi using partitionPoint.induct below with
  | case1 lo hi wide failed =>
      rw [answers _ (by omega)] at failed
      cases failed
  | case2 lo hi wide probed ih =>
      rw [answers _ (by omega)] at probed
      have under : p (lo + (hi - lo) / 2) = true := Option.some.inj probed
      obtain ⟨turn, found, rest⟩ := ih (by omega) inside
        (fun i less => falling i _ (by omega) (by omega) under) after
      refine ⟨turn, ?_, rest⟩
      rw [partitionPoint, if_pos wide, answers _ (by omega), under]
      exact found
  | case3 lo hi wide probed ih =>
      rw [answers _ (by omega)] at probed
      have beyond : p (lo + (hi - lo) / 2) = false := Option.some.inj probed
      have above : ∀ i, lo + (hi - lo) / 2 ≤ i → i < size → p i = false := by
        intro i least bound
        cases value : p i with
        | false => rfl
        | true => rw [falling _ i least bound value] at beyond; cases beyond
      obtain ⟨turn, found, rest⟩ := ih (by omega) (by omega) before above
      refine ⟨turn, ?_, rest⟩
      rw [partitionPoint, if_pos wide, answers _ (by omega), beyond]
      exact found
  | case4 lo hi narrow =>
      have same : lo = hi := by omega
      subst same
      exact ⟨lo, by rw [partitionPoint, if_neg narrow], inside, before, after⟩

theorem partitionPoint_spec (answers : ∀ i < size, below i = some (p i))
    (falling : ∀ i j, i ≤ j → j < size → p j = true → p i = true) :
    ∃ turn, partitionPoint below 0 size = some turn ∧ turn ≤ size ∧
      (∀ i < turn, p i = true) ∧ ∀ i, turn ≤ i → i < size → p i = false :=
  partitionPoint_between answers falling 0 size (Nat.zero_le _) (Nat.le_refl _)
    (fun _ less => absurd less (Nat.not_lt_zero _))
    (fun _ least bound => absurd bound (Nat.not_lt.mpr least))

end Probe

section Sorted

variable {Key : Type u} {α : Type v} [DecidableEq Key] [LE Key] [LT Key]
  [Std.IsLinearOrder Key] [Std.LawfulOrderLT Key] {keyOf : α → Key} {needle : Key}

/-- In a sorted sequence cut at the first key not under the needle, the entries
at the needle are the run right after the cut. -/
theorem takeWhile_drop_eq_filter {entries : List α} {cut : Nat}
    (sorted : entries.Pairwise fun a b => keyOf a ≤ keyOf b)
    (under : ∀ entry ∈ entries.take cut, keyOf entry < needle)
    (beyond : ∀ entry ∈ entries.drop cut, ¬ keyOf entry < needle) :
    (entries.drop cut).takeWhile (fun entry => keyOf entry = needle) =
      entries.filter fun entry => keyOf entry = needle := by
  have front : (entries.take cut).filter (fun entry => keyOf entry = needle) = [] := by
    rw [List.filter_eq_nil_iff]
    intro entry member
    have less := under entry member
    simp only [decide_eq_true_eq]
    intro same
    rw [same] at less
    exact Std.lt_irrefl less
  have back : (entries.drop cut).takeWhile (fun entry => keyOf entry = needle) =
      (entries.drop cut).filter fun entry => keyOf entry = needle := by
    have tail : (entries.drop cut).Pairwise fun a b => keyOf a ≤ keyOf b :=
      sorted.sublist (List.drop_sublist _ _)
    revert beyond tail
    generalize entries.drop cut = rest
    induction rest with
    | nil => simp
    | cons entry rest ih =>
        intro beyond tail
        rw [List.pairwise_cons] at tail
        by_cases same : keyOf entry = needle
        · rw [List.takeWhile_cons_of_pos (by simpa using same),
            List.filter_cons_of_pos (by simpa using same)]
          rw [ih (fun other member => beyond other (List.mem_cons_of_mem _ member)) tail.2]
        · rw [List.takeWhile_cons_of_neg (by simpa using same),
            List.filter_cons_of_neg (by simpa using same)]
          refine (List.filter_eq_nil_iff.mpr ?_).symm
          intro other member
          simp only [decide_eq_true_eq]
          intro equal
          have least : keyOf entry ≤ needle := equal ▸ tail.1 other member
          have most : needle ≤ keyOf entry := Std.not_lt.mp (beyond entry List.mem_cons_self)
          exact same (Std.le_antisymm least most)
  rw [back]
  conv => rhs; rw [← List.take_append_drop cut entries, List.filter_append, front, List.nil_append]

end Sorted

/-! ### Looking up a key in a table -/

section Table

variable {Key : Type u} [LE Key]

theorem sorted_getElem? [Std.IsLinearOrder Key] {table : List Key}
    (sorted : table.Pairwise (· ≤ ·)) {i j : Nat} (ordered : i ≤ j) {first second : Key}
    (here : table[i]? = some first) (there : table[j]? = some second) : first ≤ second := by
  obtain ⟨_, rfl⟩ := List.getElem?_eq_some_iff.mp here
  obtain ⟨bound, rfl⟩ := List.getElem?_eq_some_iff.mp there
  rcases Nat.lt_or_eq_of_le ordered with less | rfl
  · exact List.pairwise_iff_getElem.mp sorted i j _ bound less
  · exact Std.le_refl _

variable [LT Key] [DecidableLT Key]

/-- The half that is left, by the entry in the middle. -/
def upperHalf (table : List Key) (key : Key) (base half : Nat) : Nat :=
  if (table[base + half]?).any (key < ·) then base else base + half

/-- Halve `base..base + size` until one entry is left. -/
def lastAtMost (table : List Key) (key : Key) (base size : Nat) : Nat :=
  if 1 < size then
    lastAtMost table key (upperHalf table key base (size / 2)) (size - size / 2)
  else base
termination_by size
decreasing_by omega

/-- The place of a key in a sorted table. -/
def binarySearch [DecidableEq Key] (table : List Key) (key : Key) : Option Nat :=
  if table.isEmpty then none
  else
    let found := lastAtMost table key 0 table.length
    if table[found]? = some key then some found else none

variable [Std.IsLinearOrder Key] [Std.LawfulOrderLT Key] {table : List Key} {key : Key}

/-- The search ends at an entry with nothing but larger ones behind it, and not above the key
itself unless it is the first. -/
theorem lastAtMost_spec (sorted : table.Pairwise (· ≤ ·)) (base size : Nat) (some_size : 0 < size)
    (inside : base + size ≤ table.length)
    (least : base = 0 ∨ ∀ entry ∈ table[base]?, entry ≤ key)
    (most : ∀ i, base + size ≤ i → ∀ entry ∈ table[i]?, key < entry) :
    (∃ entry, table[lastAtMost table key base size]? = some entry ∧
      (lastAtMost table key base size = 0 ∨ entry ≤ key)) ∧
      ∀ i, lastAtMost table key base size < i → ∀ entry ∈ table[i]?, key < entry := by
  induction base, size using lastAtMost.induct table key with
  | case1 base size wide ih =>
      rw [lastAtMost, if_pos wide]
      have middle : base + size / 2 < table.length := by omega
      have present : table[base + size / 2]? = some table[base + size / 2] :=
        List.getElem?_eq_getElem middle
      by_cases above : key < table[base + size / 2]
      · have lower : upperHalf table key base (size / 2) = base := by
          simp [upperHalf, present, above]
        rw [lower] at ih ⊢
        apply ih (by omega) (by omega) least
        intro i far entry member
        have upward := sorted_getElem? sorted (show base + size / 2 ≤ i by omega) present member
        exact Std.lt_of_lt_of_le above upward
      · have upper : upperHalf table key base (size / 2) = base + size / 2 := by
          simp [upperHalf, present, above]
        rw [upper] at ih ⊢
        apply ih (by omega) (by omega)
        · right
          intro entry member
          rw [present] at member
          cases member
          exact Std.not_lt.mp above
        · intro i far
          exact most i (by omega)
  | case2 base size narrow =>
      rw [lastAtMost, if_neg narrow]
      have present : table[base]? = some table[base] := List.getElem?_eq_getElem (by omega)
      refine ⟨⟨table[base], present, least.imp_right fun below => below _ present⟩, ?_⟩
      intro i after
      exact most i (by omega)

/-- In a sorted table the search finds exactly the keys that are there. -/
theorem binarySearch_isSome [DecidableEq Key] (sorted : table.Pairwise (· ≤ ·)) :
    (binarySearch table key).isSome = true ↔ key ∈ table := by
  cases table with
  | nil => simp [binarySearch]
  | cons head rest =>
      have spec := @lastAtMost_spec _ _ _ _ _ _ (head :: rest) key sorted 0 (head :: rest).length
        (by simp) (by simp) (.inl rfl) (by
          intro i far entry member
          rw [List.getElem?_eq_none (by omega)] at member
          cases member)
      generalize stop : lastAtMost (head :: rest) key 0 (head :: rest).length = found at spec
      simp only [binarySearch, List.isEmpty_cons, Bool.false_eq_true, if_false, stop]
      constructor
      · intro some_place
        split at some_place
        · next present => exact List.mem_of_getElem? present
        · cases some_place
      · intro member
        obtain ⟨i, bound, same⟩ := List.getElem_of_mem member
        have here : (head :: rest)[i]? = some key := same ▸ List.getElem?_eq_getElem bound
        have before : i ≤ found := by
          by_contra after
          exact Std.lt_irrefl (spec.2 i (by omega) key here)
        have present : (head :: rest)[found]? = some key := by
          obtain ⟨entry, stopped, small⟩ := spec.1
          rcases small with first | below
          · have zero : i = found := by omega
            rw [← zero]
            exact here
          · rw [stopped, Std.le_antisymm (sorted_getElem? sorted before here stopped) below]
        rw [if_pos present]
        rfl

end Table

end Sumidero.Data
