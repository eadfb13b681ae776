import Mathlib.Data.List.Basic
import Mathlib.Data.List.Infix

namespace Sumidero.Data

universe u

/-! Glob patterns: the star stands for any sequence, everything else for itself. -/

variable {α : Type u} {star : α}

inductive Globs (star : α) : List α → List α → Prop
  | nil : Globs star [] []
  | literal {a : α} {pat text : List α} (tail : Globs star pat text) :
      Globs star (a :: pat) (a :: text)
  | skip {pat text : List α} (tail : Globs star pat text) : Globs star (star :: pat) text
  | take {a : α} {pat text : List α} (tail : Globs star (star :: pat) text) :
      Globs star (star :: pat) (a :: text)

namespace Globs

variable {pat text front back : List α}

theorem any (text : List α) : Globs star [star] text := by
  induction text with
  | nil => exact .skip .nil
  | cons a rest ih => exact .take ih

theorem append (first : Globs star pat text) (second : Globs star front back) :
    Globs star (pat ++ front) (text ++ back) := by
  induction first with
  | nil => exact second
  | literal _ ih => exact .literal ih
  | skip _ ih => exact .skip ih
  | take _ ih => exact .take ih

theorem split (matched : Globs star (pat ++ back) text) :
    ∃ first second, text = first ++ second ∧ Globs star pat first ∧ Globs star back second := by
  generalize whole : pat ++ back = joined at matched
  induction matched generalizing pat with
  | nil =>
      obtain ⟨rfl, rfl⟩ := List.append_eq_nil_iff.mp whole
      exact ⟨[], [], rfl, .nil, .nil⟩
  | @literal a rest tail inner ih =>
      cases pat with
      | nil =>
          rw [List.nil_append] at whole
          exact ⟨[], _, rfl, .nil, whole ▸ .literal inner⟩
      | cons b pat =>
          obtain ⟨rfl, same⟩ := List.cons.inj whole
          obtain ⟨first, second, rfl, front, tail⟩ := ih same
          exact ⟨b :: first, second, rfl, .literal front, tail⟩
  | @skip rest tail inner ih =>
      cases pat with
      | nil =>
          rw [List.nil_append] at whole
          exact ⟨[], _, rfl, .nil, whole ▸ .skip inner⟩
      | cons b pat =>
          obtain ⟨rfl, same⟩ := List.cons.inj whole
          obtain ⟨first, second, rfl, front, tail⟩ := ih same
          exact ⟨first, second, rfl, .skip front, tail⟩
  | @take a rest tail inner ih =>
      cases pat with
      | nil =>
          rw [List.nil_append] at whole
          exact ⟨[], _, rfl, .nil, whole ▸ .take inner⟩
      | cons b pat =>
          obtain ⟨first, second, rfl, front, tail⟩ := ih whole
          obtain ⟨rfl, _⟩ := List.cons.inj whole
          exact ⟨a :: first, second, rfl, .take front, tail⟩

theorem plain (matched : Globs star pat text) (starless : star ∉ pat) : text = pat := by
  induction matched with
  | nil => rfl
  | literal _ ih => rw [ih fun inside => starless (List.mem_cons_of_mem _ inside)]
  | skip => exact absurd List.mem_cons_self starless
  | take => exact absurd List.mem_cons_self starless

/-- A text that matches ends in what the pattern has after its last star. -/
theorem suffix (matched : Globs star (front ++ star :: back) text) (starless : star ∉ back) :
    back <:+ text := by
  rw [List.append_cons] at matched
  obtain ⟨first, second, rfl, _, tail⟩ := matched.split
  rw [tail.plain starless]
  exact List.suffix_append _ _

end Globs

/-! A matcher that tries the literal reading first gives the star no choice at a star of
the text: there it stands for that one element. -/

/-- The matches in which a star that begins at a star of the text stands for just it. -/
inductive GlobsLiteral (star : α) : List α → List α → Prop
  | nil : GlobsLiteral star [] []
  | literal {a : α} {pat text : List α} (tail : GlobsLiteral star pat text) :
      GlobsLiteral star (a :: pat) (a :: text)
  | last {pat : List α} (tail : GlobsLiteral star pat []) : GlobsLiteral star (star :: pat) []
  | skip {a : α} {pat text skipped rest : List α} (different : a ≠ star)
      (parts : a :: text = skipped ++ rest) (tail : GlobsLiteral star pat rest) :
      GlobsLiteral star (star :: pat) (a :: text)

namespace GlobsLiteral

variable {pat text front back : List α}

theorem globs (matched : GlobsLiteral star pat text) : Globs star pat text := by
  induction matched with
  | nil => exact .nil
  | literal _ ih => exact .literal ih
  | last _ ih => exact .skip ih
  | @skip a pat text skipped rest _ parts _ ih =>
      rw [parts]
      exact (Globs.any skipped).append ih

theorem nil_iff : GlobsLiteral star pat [] ↔ ∀ a ∈ pat, a = star := by
  induction pat with
  | nil => simp [GlobsLiteral.nil]
  | cons a rest ih =>
      rw [List.forall_mem_cons]
      constructor
      · intro matched
        cases matched with
        | last tail => exact ⟨rfl, ih.mp tail⟩
      · intro stars
        rw [stars.1]
        exact .last (ih.mpr stars.2)

/-- At an element the pattern names the literal reading is the only one. -/
theorem literal_iff {a : α} :
    GlobsLiteral star (a :: pat) (a :: text) ↔ GlobsLiteral star pat text := by
  constructor
  · intro matched
    cases matched with
    | literal tail => exact tail
    | skip different => exact absurd rfl different
  · exact .literal

/-- At anything but a star of the text a star is free. -/
theorem star_iff (different : text.head? ≠ some star) :
    GlobsLiteral star (star :: pat) text ↔ ∃ k, GlobsLiteral star pat (text.drop k) := by
  constructor
  · intro matched
    cases matched with
    | literal => exact absurd rfl different
    | last tail => exact ⟨0, tail⟩
    | @skip a _ text skipped rest _ parts tail =>
        refine ⟨skipped.length, ?_⟩
        rwa [parts, List.drop_left]
  · intro later
    obtain ⟨k, tail⟩ := later
    cases text with
    | nil => exact .last (by simpa using tail)
    | cons a text =>
        have other : a ≠ star := fun same => different (by rw [same, List.head?_cons])
        exact .skip other (List.take_append_drop k _).symm tail

/-- What follows a star in the pattern matches somewhere further on. -/
theorem after_star (matched : GlobsLiteral star (star :: pat) text) :
    ∃ k, GlobsLiteral star pat (text.drop k) := by
  by_cases begins : text.head? = some star
  · obtain ⟨rest, whole⟩ := List.head?_eq_some_iff.mp begins
    rw [whole, literal_iff] at matched
    refine ⟨1, ?_⟩
    rwa [whole]
  · exact (star_iff begins).mp matched

theorem mismatch {a b : α} (different : b ≠ a) (plain : b ≠ star) :
    ¬ GlobsLiteral star (b :: pat) (a :: text) := by
  intro matched
  cases matched with
  | literal => exact different rfl
  | skip => exact plain rfl

theorem of_globs (matched : Globs star pat text) (starless : star ∉ text) :
    GlobsLiteral star pat text := by
  have free : ∀ {text : List α}, star ∉ text → text.head? ≠ some star :=
    fun {text} outside begins => outside (List.mem_of_mem_head? begins)
  induction matched with
  | nil => exact .nil
  | literal _ ih => exact .literal (ih fun inside => starless (List.mem_cons_of_mem _ inside))
  | skip _ ih => exact (star_iff (free starless)).mpr ⟨0, ih starless⟩
  | take _ ih =>
      have outside := fun inside => starless (List.mem_cons_of_mem _ inside)
      obtain ⟨k, tail⟩ := (star_iff (free outside)).mp (ih outside)
      exact (star_iff (free starless)).mpr ⟨k + 1, tail⟩

variable [DecidableEq α]

theorem split (matched : GlobsLiteral star (front ++ pat) text) :
    ∃ first second, text = first ++ second ∧
      front.countP (· ≠ star) ≤ first.countP (· ≠ star) ∧ GlobsLiteral star pat second := by
  induction front generalizing text with
  | nil => exact ⟨[], text, rfl, Nat.le_refl _, matched⟩
  | cons a front ih =>
      rw [List.cons_append] at matched
      cases matched with
      | literal tail =>
          obtain ⟨first, second, whole, fewer, after⟩ := ih tail
          refine ⟨a :: first, second, by rw [whole, List.cons_append], ?_, after⟩
          simp only [List.countP_cons]
          omega
      | last tail =>
          obtain ⟨first, second, whole, fewer, after⟩ := ih tail
          exact ⟨first, second, whole, by simpa using fewer, after⟩
      | @skip b _ _ skipped rest _ parts tail =>
          obtain ⟨first, second, whole, fewer, after⟩ := ih tail
          refine ⟨skipped ++ first, second, by rw [parts, whole, List.append_assoc], ?_, after⟩
          simp only [List.countP_cons, List.countP_append]
          simp only [ne_eq, not_true_eq_false, decide_false, Bool.false_eq_true, if_false]
          simp only [ne_eq] at fewer
          omega

/-- Why one fallback is enough: a literal stretch that begins at a named element cannot
be found again before its own end, so what follows it is still ahead. -/
theorem ahead {k : Nat} (begins : front.head? ≠ some star)
    (matched : GlobsLiteral star (front ++ pat) ((front ++ text).drop (k + 1))) :
    ∃ j, GlobsLiteral star pat (text.drop j) := by
  obtain ⟨first, second, whole, fewer, after⟩ := matched.split
  rw [List.drop_append] at whole
  rcases List.append_eq_append_iff.mp whole with ⟨inner, first_eq, text_eq⟩ | ⟨inner, front_eq, second_eq⟩
  · refine ⟨k + 1 - front.length + inner.length, ?_⟩
    rw [← List.drop_drop, text_eq, List.drop_left]
    exact after
  · cases front with
    | nil =>
        simp only [List.drop_nil, List.nil_eq, List.append_eq_nil_iff] at front_eq
        rw [second_eq, front_eq.2, List.nil_append] at after
        exact ⟨_, after⟩
    | cons a front =>
        have named : a ≠ star := fun same => begins (by rw [same, List.head?_cons])
        rw [List.drop_succ_cons] at front_eq
        have shorter : first.countP (· ≠ star) ≤ front.countP (· ≠ star) :=
          ((List.prefix_append first inner).sublist.trans
            (front_eq ▸ List.drop_sublist k front)).countP_le
        rw [List.countP_cons_of_pos (by simpa using named)] at fewer
        omega

end GlobsLiteral

end Sumidero.Data
