import Mathlib.Data.List.Basic
import Mathlib.Data.List.Infix

namespace Sumidero.Data

universe u

/-! A sequence read as fields between separators, and the same fields written the
other way round. -/

section Intercalate

variable {α : Type u} {sep : α}

theorem intercalate_append {front back : List (List α)} (frontFields : front ≠ [])
    (backFields : back ≠ []) :
    [sep].intercalate (front ++ back) =
      [sep].intercalate front ++ sep :: [sep].intercalate back := by
  induction front with
  | nil => exact absurd rfl frontFields
  | cons field rest ih =>
      cases rest with
      | nil => rw [List.singleton_append, List.intercalate_cons_of_ne_nil backFields,
          List.intercalate_singleton, List.append_assoc, List.singleton_append]
      | cons next rest =>
          rw [List.cons_append, List.intercalate_cons_of_ne_nil (by simp),
            List.intercalate_cons_of_ne_nil (List.cons_ne_nil _ _), ih (by simp)]
          simp only [List.append_assoc]

end Intercalate

section Words

variable {α : Type u} {p : α → Bool}

theorem splitOnP_cases (p : α → Bool) (whole : List α) :
    whole.splitOnP p = [whole] ∨
      ∃ first sep rest, whole = first ++ sep :: rest ∧ p sep = true ∧
        (∀ a ∈ first, p a = false) ∧ whole.splitOnP p = first :: rest.splitOnP p := by
  cases found : whole.find? p with
  | none =>
      left
      apply List.splitOnP_eq_singleton
      simpa using found
  | some sep =>
      right
      obtain ⟨holds, first, rest, parts, before⟩ := List.find?_eq_some_iff_append.mp found
      have plain : ∀ a ∈ first, p a = false := by simpa using before
      refine ⟨first, sep, rest, parts, holds, plain, ?_⟩
      rw [parts]
      exact List.splitOnP_append_cons_of_forall_mem plain sep holds rest

theorem infix_of_mem_splitOnP {whole word : List α} (member : word ∈ whole.splitOnP p) :
    word <:+: whole := by
  rcases splitOnP_cases p whole with single | ⟨first, sep, rest, parts, _, _, words⟩
  · rw [single, List.mem_singleton] at member
    rw [member]
  · rw [words] at member
    rw [parts]
    rcases List.mem_cons.mp member with same | later
    · rw [same]
      exact (List.prefix_append _ _).isInfix
    · have shorter : rest.length < whole.length := by
        rw [parts, List.length_append, List.length_cons]
        omega
      have inner := infix_of_mem_splitOnP later
      exact (inner.trans (List.suffix_cons _ _).isInfix).trans (List.suffix_append _ _).isInfix
termination_by whole.length

theorem after_separator {whole word : List α} (member : word ∈ (whole.splitOnP p).tail) :
    ∃ first sep rest, whole = first ++ sep :: rest ∧ p sep = true ∧ word <:+: rest := by
  rcases splitOnP_cases p whole with single | ⟨first, sep, rest, parts, holds, _, words⟩
  · rw [single] at member
    cases member
  · rw [words] at member
    exact ⟨first, sep, rest, parts, holds, infix_of_mem_splitOnP member⟩

theorem head_splitOnP_prefix (p : α → Bool) (whole : List α) :
    (whole.splitOnP p).head?.getD whole <+: whole := by
  rcases splitOnP_cases p whole with single | ⟨first, sep, rest, parts, _, _, words⟩
  · rw [single]
    exact List.prefix_refl _
  · rw [words, parts]
    exact List.prefix_append _ _

end Words

section Fields

variable {α : Type u} [DecidableEq α] {sep : α} {whole key : List α}

theorem splitOn_injective (same : whole.splitOn sep = key.splitOn sep) : whole = key := by
  rw [← @List.intercalate_splitOn _ whole _ _ sep, same, List.intercalate_splitOn]

theorem not_mem_of_mem_splitOn : ∀ field ∈ whole.splitOn sep, sep ∉ field := by
  induction whole with
  | nil =>
      intro field member
      rw [List.splitOn_nil, List.mem_singleton] at member
      simp [member]
  | cons x rest ih =>
      intro field member
      rw [List.splitOn_cons_eq_if_modifyHead] at member
      split at member
      · rcases List.mem_cons.mp member with rfl | later
        · exact List.not_mem_nil
        · exact ih field later
      · next different =>
        cases fields : rest.splitOn sep with
        | nil => exact absurd fields (List.splitOn_ne_nil _ _)
        | cons head tail =>
            rw [fields, List.modifyHead_cons] at member
            rw [fields] at ih
            rcases List.mem_cons.mp member with rfl | later
            · intro inside
              rcases List.mem_cons.mp inside with same | inside
              · exact different (by simpa using same.symm)
              · exact ih head List.mem_cons_self inside
            · exact ih field (List.mem_cons_of_mem _ later)

/-- A key's last fields are a sequence's last fields exactly when the sequence is
the key, or ends in it after a separator. -/
theorem splitOn_suffix_iff :
    key.splitOn sep <:+ whole.splitOn sep ↔ whole = key ∨ (sep :: key) <:+ whole := by
  constructor
  · intro given
    obtain ⟨front, fields⟩ := given
    by_cases none : front = []
    · subst none
      exact .inl (splitOn_injective fields.symm)
    · refine .inr ⟨[sep].intercalate front, ?_⟩
      rw [← @List.intercalate_splitOn _ whole _ _ sep, ← fields,
        intercalate_append none (List.splitOn_ne_nil _ _), List.intercalate_splitOn]
  · intro given
    rcases given with rfl | ⟨front, rfl⟩
    · exact List.suffix_refl _
    · rw [List.splitOn_append_cons_self]
      exact List.suffix_append _ _

theorem splitOn_prefix_iff :
    key.splitOn sep <+: whole.splitOn sep ↔ whole = key ∨ (key ++ [sep]) <+: whole := by
  constructor
  · intro given
    obtain ⟨back, fields⟩ := given
    by_cases none : back = []
    · subst none
      exact .inl (splitOn_injective (by simpa using fields.symm))
    · refine .inr ⟨[sep].intercalate back, ?_⟩
      rw [← @List.intercalate_splitOn _ whole _ _ sep, ← fields,
        intercalate_append (List.splitOn_ne_nil _ _) none, List.intercalate_splitOn]
      simp
  · intro given
    rcases given with rfl | ⟨back, rfl⟩
    · exact List.prefix_refl _
    · rw [List.append_assoc, List.singleton_append, List.splitOn_append_cons_self]
      exact List.prefix_append _ _

end Fields

section Reversed

variable {α : Type u} [DecidableEq α] {sep : α} {whole key : List α}

/-- The fields in reverse order. -/
def reverseFields (sep : α) (whole : List α) : List α :=
  [sep].intercalate (whole.splitOn sep).reverse

theorem splitOn_reverseFields :
    (reverseFields sep whole).splitOn sep = (whole.splitOn sep).reverse := by
  apply List.splitOn_intercalate
  · intro field member
    exact not_mem_of_mem_splitOn field (List.mem_reverse.mp member)
  · simp

@[simp] theorem reverseFields_reverseFields :
    reverseFields sep (reverseFields sep whole) = whole := by
  rw [reverseFields, splitOn_reverseFields, List.reverse_reverse, List.intercalate_splitOn]

/-- A reversed key is the reversed sequence, or one of its prefixes up to a
separator, exactly when the sequence is the key or ends in it after a separator. -/
theorem reverseFields_prefix_iff :
    (reverseFields sep whole = reverseFields sep key ∨
        (reverseFields sep key ++ [sep]) <+: reverseFields sep whole) ↔
      (whole = key ∨ (sep :: key) <:+ whole) := by
  rw [← splitOn_prefix_iff, splitOn_reverseFields, splitOn_reverseFields, List.reverse_prefix,
    splitOn_suffix_iff]

theorem length_reverseFields : (reverseFields sep whole).length = whole.length := by
  have total : ∀ fields : List (List α),
      ([sep].intercalate fields).length = (fields.map List.length).sum + (fields.length - 1) := by
    intro fields
    induction fields with
    | nil => rfl
    | cons field rest ih =>
        cases rest with
        | nil => simp
        | cons next rest =>
            rw [List.intercalate_cons_of_ne_nil (List.cons_ne_nil _ _)]
            simp only [List.length_append, ih, List.map_cons, List.sum_cons, List.length_cons,
              List.length_nil]
            omega
  have reversed := total (whole.splitOn sep).reverse
  have plain := total (whole.splitOn sep)
  rw [List.intercalate_splitOn] at plain
  rw [reverseFields, reversed, plain, List.map_reverse, List.sum_reverse, List.length_reverse]

end Reversed

end Sumidero.Data
