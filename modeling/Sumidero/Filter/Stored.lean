import Sumidero.Data.Fields
import Sumidero.Filter.Engine

namespace Sumidero.Filter

open Text

/-! What the rule store holds once rules have been added: list, line and flags of
each, and the spans of the texts kept verbatim. -/

/-- A rule with the list it was added to; its position is its id. -/
structure Added where
  list : Nat
  rule : Rule
deriving Repr, DecidableEq

/-- How the text of a rule is kept. -/
def Rule.form (rule : Rule) : Option Nat :=
  match rule.pattern with
  | .Subtree domain => some (subtreeForm rule.body domain)
  | .Exact domain => exactForm rule.isExcept rule.body domain
  | .Wildcard _ _ => some FORM_VERBATIM

/-- The span is one of whole characters of the verbatim arena. -/
def Shown (verbatim : Str) (off size : Nat) : Prop :=
  ∃ before shown after, verbatim = before ++ shown ++ after ∧ len before = off ∧ len shown = size

theorem Shown.grow {verbatim : Str} {off size : Nat} (shown : Shown verbatim off size)
    (more : Str) : Shown (verbatim ++ more) off size := by
  obtain ⟨before, inner, after, whole, start, length⟩ := shown
  exact ⟨before, inner, after ++ more, by rw [whole]; simp only [List.append_assoc], start, length⟩

theorem Shown.slice {verbatim : Str} {off size : Nat} (shown : Shown verbatim off size) :
    ∃ text, Text.slice verbatim off (off + size) = some text := by
  obtain ⟨before, inner, after, rfl, rfl, rfl⟩ := shown
  exact ⟨inner, slice_append before inner after⟩

theorem getElem?_concat_cases {α : Type} {items : List α} {last found : α} {i : Nat}
    (present : (items ++ [last])[i]? = some found) :
    (i < items.length ∧ items[i]? = some found) ∨ (i = items.length ∧ last = found) := by
  rcases Nat.lt_trichotomy i items.length with less | same | more
  · rw [List.getElem?_append_left less] at present
    exact .inl ⟨less, present⟩
  · rw [same, List.getElem?_concat_length] at present
    exact .inr ⟨same, Option.some.inj present⟩
  · rw [List.getElem?_eq_none (by simp; omega)] at present
    cases present

namespace Store

structure Holds (store : Store) (added : List Added) : Prop where
  lists : store.lists = added.map Added.list
  lines : store.lines = added.map fun entry => entry.rule.line
  flagsLength : store.flags.length = added.length
  flags : ∀ (id : Nat) (entry : Added), added[id]? = some entry →
    ∃ form, entry.rule.form = some form ∧
      store.flags[id]? = some (packFlags entry.rule.isExcept form)
  spanOff : store.spanOff.length = added.length
  spanLen : store.spanLen.length = added.length
  verbatim : ∀ (id : Nat) (entry : Added), added[id]? = some entry →
    entry.rule.form = some FORM_VERBATIM →
    ∃ off size, store.spanOff[id]? = some off ∧ store.spanLen[id]? = some size ∧
      Shown store.verbatim off size

theorem holds_empty : Holds Store.empty [] where
  lists := rfl
  lines := rfl
  flagsLength := rfl
  flags := fun _ _ found => by cases found
  spanOff := rfl
  spanLen := rfl
  verbatim := fun _ _ found => by cases found

section Flags

variable {store : Store} {added : List Added}

theorem flags_except (except : Bool) (form : Nat) :
    (packFlags except form &&& FLAG_EXCEPT != 0) = except := by
  have even : (form <<< FORM_SHIFT) % 2 = 0 := by
    rw [FORM_SHIFT, Nat.shiftLeft_eq]
    omega
  rw [packFlags, FLAG_EXCEPT, Nat.and_one_is_mod, Nat.or_mod_two_pow (n := 1), Nat.pow_one, even]
  cases except <;> rfl

theorem flags_form (except : Bool) (form : Nat) :
    packFlags except form >>> FORM_SHIFT = form := by
  rw [packFlags, FORM_SHIFT, Nat.shiftRight_or_distrib, Nat.shiftLeft_shiftRight]
  cases except <;> simp [FLAG_EXCEPT]

theorem Holds.isExcept (holds : Holds store added) {id : Nat} {entry : Added}
    (found : added[id]? = some entry) : store.isExcept id = some entry.rule.isExcept := by
  obtain ⟨form, _, flags⟩ := holds.flags id entry found
  rw [Store.isExcept, flags, Option.map_some, flags_except]

theorem Holds.form (holds : Holds store added) {id : Nat} {entry : Added}
    (found : added[id]? = some entry) : store.form id = entry.rule.form := by
  obtain ⟨form, formed, flags⟩ := holds.flags id entry found
  rw [Store.form, flags, Option.map_some, flags_form, formed]

end Flags

section Push

variable {store pushed after : Store} {added : List Added} {list id form : Nat} {rule : Rule}

theorem pushVerbatim_eq {text : Str} (pushed_text : store.pushVerbatim id text = some after) :
    id < store.spanOff.length ∧ id < store.spanLen.length ∧
      after = { store with
        verbatim := store.verbatim ++ text
        spanOff := store.spanOff.set id (len store.verbatim)
        spanLen := store.spanLen.set id (shownLen text) } := by
  simp only [pushVerbatim] at pushed_text
  obtain ⟨off, offset, pushed_text⟩ := Option.bind_eq_some_iff.mp pushed_text
  simp only [toU32] at offset
  split at offset
  · cases offset
    unfold setSpan setSpanOff at pushed_text
    dsimp only at pushed_text
    split at pushed_text
    · next offInside =>
      simp only [Option.bind_eq_bind, Option.bind_some] at pushed_text
      obtain ⟨size, small, pushed_text⟩ := Option.bind_eq_some_iff.mp pushed_text
      simp only [toU8] at small
      split at small
      · cases small
        unfold setSpanLen at pushed_text
        dsimp only at pushed_text
        split at pushed_text
        · next lenInside =>
          cases pushed_text
          exact ⟨offInside, lenInside, rfl⟩
        · cases pushed_text
      · cases small
    · cases pushed_text
  · cases offset

theorem shown_shownLen (verbatim text : Str) :
    Shown (verbatim ++ text) (len verbatim) (shownLen text) := by
  simp only [shownLen]
  cases found : (List.range (min (len text) 255 + 1)).reverse.find? (isCharBoundary text) with
  | none => exact ⟨verbatim, [], text, by simp, rfl, rfl⟩
  | some size =>
      have boundary := List.find?_some found
      obtain ⟨⟨shown, rest⟩, split⟩ := Option.isSome_iff_exists.mp boundary
      obtain ⟨whole, length⟩ := splitAtByte_eq split
      exact ⟨verbatim, shown, rest, by rw [whole, List.append_assoc], rfl, length⟩

theorem push_eq {except : Bool} {line : Nat}
    (pushed_rule : store.push list line except form = some (pushed, id)) :
    id = store.lines.length ∧ pushed = { store with
      lists := store.lists ++ [list]
      lines := store.lines ++ [line]
      flags := store.flags ++ [packFlags except form]
      spanOff := store.spanOff ++ [0]
      spanLen := store.spanLen ++ [0] } := by
  simp only [Store.push] at pushed_rule
  obtain ⟨fresh, small, pushed_rule⟩ := Option.bind_eq_some_iff.mp pushed_rule
  simp only [toU32] at small
  split at small
  · cases small
    cases pushed_rule
    exact ⟨rfl, rfl⟩
  · cases small

theorem Holds.push (holds : Holds store added) (formed : rule.form = some form)
    (push : store.push list rule.line rule.isExcept form = some (pushed, id))
    (kept : (if form = FORM_VERBATIM then pushed.pushVerbatim id rule.text else some pushed) =
      some after) :
    Holds after (added ++ [{ list := list, rule := rule }]) ∧ id = added.length := by
  obtain ⟨fresh, rfl⟩ := push_eq push
  have linesLength : store.lines.length = added.length := by rw [holds.lines, List.length_map]
  rw [linesLength] at fresh
  subst fresh
  refine ⟨?_, rfl⟩
  have flags : ∀ (id : Nat) (entry : Added),
      (added ++ [{ list := list, rule := rule }])[id]? = some entry →
      ∃ form', entry.rule.form = some form' ∧
        (store.flags ++ [packFlags rule.isExcept form])[id]? =
          some (packFlags entry.rule.isExcept form') := by
    intro id entry found
    rcases getElem?_concat_cases found with ⟨older, found⟩ | ⟨rfl, rfl⟩
    · rw [List.getElem?_append_left (by rw [holds.flagsLength]; exact older)]
      exact holds.flags id entry found
    · refine ⟨form, formed, ?_⟩
      rw [← holds.flagsLength, List.getElem?_concat_length]
  by_cases stored : form = FORM_VERBATIM
  · rw [if_pos stored] at kept
    obtain ⟨_, _, rfl⟩ := pushVerbatim_eq kept
    refine ⟨by simp [holds.lists], by simp [holds.lines], by simp [holds.flagsLength], flags,
      by simp [holds.spanOff], by simp [holds.spanLen], ?_⟩
    intro id entry found verbatim
    rcases getElem?_concat_cases found with ⟨older, found⟩ | ⟨rfl, rfl⟩
    · obtain ⟨off, size, offFound, sizeFound, shown⟩ := holds.verbatim id entry found verbatim
      refine ⟨off, size, ?_, ?_, shown.grow _⟩
      · dsimp only
        rw [List.getElem?_set_ne (by omega), List.getElem?_append_left (by rw [holds.spanOff]; exact older)]
        exact offFound
      · dsimp only
        rw [List.getElem?_set_ne (by omega), List.getElem?_append_left (by rw [holds.spanLen]; exact older)]
        exact sizeFound
    · refine ⟨_, _, ?_, ?_, shown_shownLen store.verbatim rule.text⟩
      · exact List.getElem?_set_self (by simp [holds.spanOff])
      · exact List.getElem?_set_self (by simp [holds.spanLen])
  · rw [if_neg stored] at kept
    cases kept
    refine ⟨by simp [holds.lists], by simp [holds.lines], by simp [holds.flagsLength], flags,
      by simp [holds.spanOff], by simp [holds.spanLen], ?_⟩
    intro id entry found verbatim
    rcases getElem?_concat_cases found with ⟨older, found⟩ | ⟨rfl, rfl⟩
    · obtain ⟨off, size, offFound, sizeFound, shown⟩ := holds.verbatim id entry found verbatim
      refine ⟨off, size, ?_, ?_, shown⟩
      · dsimp only
        rw [List.getElem?_append_left (by rw [holds.spanOff]; exact older)]
        exact offFound
      · dsimp only
        rw [List.getElem?_append_left (by rw [holds.spanLen]; exact older)]
        exact sizeFound
    · rw [formed] at verbatim
      exact absurd (Option.some.inj verbatim) stored

end Push

end Store

end Sumidero.Filter
