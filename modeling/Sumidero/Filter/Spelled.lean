import Sumidero.Filter.Grammar
import Sumidero.Filter.Searched

namespace Sumidero.Filter

open Text Data Engine

/-! Which lines the forms of a rule tell apart: those rebuilt from their domain are spelled
canonically, and the rebuilt text is the line itself. -/

/-! ### Forms -/

section Forms

variable {body domain : Str} {except : Bool} {form : Nat}

theorem subtreeForm_body (canonical : subtreeForm body domain = FORM_SUBTREE) :
    body = ['|', '|'] ++ domain ++ ['^'] := by
  simp only [subtreeForm] at canonical
  split at canonical
  · next spelled =>
    obtain ⟨rest, front, back⟩ := Option.bind_eq_some_iff.mp spelled
    rw [← stripPrefix_eq_some.mp front, ← stripSuffix_eq_some.mp back, List.append_assoc]
  · contradiction

/-- A character whose first byte is a space is one. -/
theorem first_byte_space {c : Char} {rest : Str} (space : (asBytes (c :: rest))[0]? = some 32) :
    c = ' ' := by
  have some_byte : 0 < (String.utf8EncodeChar c).length := by
    rw [String.length_utf8EncodeChar]
    exact c.utf8Size_pos
  rw [asBytes_cons, List.getElem?_append_left some_byte] at space
  have code := ascii_mem_utf8EncodeChar (by decide) (List.mem_of_getElem? space)
  exact Char.ext (UInt32.toNat_inj.mp code)

theorem isHostsZero_body (zero : isHostsZero body domain = some true) :
    body = "0.0.0.0 ".toList ++ domain := by
  simp only [isHostsZero] at zero
  split at zero
  · contradiction
  · next rest front =>
    split at zero
    · obtain ⟨⟨separator, tail⟩, split, zero⟩ := Option.bind_eq_some_iff.mp zero
      obtain ⟨whole, one⟩ := splitAtByte_eq split
      dsimp only at zero
      split at zero
      · next same =>
        obtain ⟨byte, seventh, zero⟩ := Option.bind_eq_some_iff.mp zero
        have body_eq := (stripPrefix_eq_some.mp front).symm
        rw [whole, same] at body_eq
        cases separator with
        | nil => contradiction
        | cons c others =>
            have none : others = [] := by
              cases others with
              | nil => rfl
              | cons next more =>
                  have positive := c.utf8Size_pos
                  have also := next.utf8Size_pos
                  simp only [len_cons] at one
                  omega
            subst none
            rw [body_eq, asBytes_append, List.getElem?_append_right (by decide)] at seventh
            have space : byte = 32 := by simpa using zero
            rw [space] at seventh
            rw [body_eq, first_byte_space seventh]
            rfl
      · contradiction
    · contradiction

/-- The three spellings of an exact rule that are not stored. -/
theorem exactForm_spelled (formed : exactForm except body domain = some form)
    (canonical : isExactForm form = true) :
    form = FORM_EXACT ∧ body = domain ∨ form = FORM_EXACT_CARET ∧ body = domain ++ ['^'] ∨
      form = FORM_HOSTS_ZERO ∧ except = false ∧ body = "0.0.0.0 ".toList ++ domain := by
  simp only [exactForm] at formed
  split at formed
  · next same =>
    cases formed
    exact .inl ⟨rfl, same⟩
  · split at formed
    · next caret =>
      cases formed
      exact .inr (.inl ⟨rfl, (stripSuffix_eq_some.mp caret).symm⟩)
    · split at formed
      · cases formed
        contradiction
      · next block =>
        obtain ⟨hosts, zero, formed⟩ := Option.bind_eq_some_iff.mp formed
        cases hosts with
        | false =>
            cases formed
            contradiction
        | true =>
            cases formed
            exact .inr (.inr ⟨rfl, Bool.eq_false_iff.mpr block, isHostsZero_body zero⟩)

/-- What an exact rule's text is rebuilt to is its body with its mark. -/
theorem exactForm_text (formed : exactForm except body domain = some form)
    (canonical : isExactForm form = true) :
    exactText except form domain = exceptMark except ++ body := by
  rcases exactForm_spelled formed canonical with
    ⟨rfl, rfl⟩ | ⟨rfl, rfl⟩ | ⟨rfl, rfl, rfl⟩
  · rfl
  · rw [← List.append_assoc]
    rfl
  · rfl

end Forms

/-- The spellings that are rebuilt from their domain instead of being stored. -/
inductive Canonical : Bool → Pattern → Str → Prop
  | subtree (except : Bool) (domain : Str) :
      Canonical except (.Subtree domain) (exceptMark except ++ (['|', '|'] ++ domain ++ ['^']))
  | exact (except : Bool) (domain : Str) :
      Canonical except (.Exact domain) (exceptMark except ++ domain)
  | caret (except : Bool) (domain : Str) :
      Canonical except (.Exact domain) (exceptMark except ++ (domain ++ ['^']))
  | hosts (domain : Str) :
      Canonical false (.Exact domain) (exceptMark false ++ ("0.0.0.0 ".toList ++ domain))

theorem subtreeForm_canonical (domain : Str) :
    subtreeForm (['|', '|'] ++ domain ++ ['^']) domain = FORM_SUBTREE := by
  simp only [subtreeForm]
  rw [List.append_assoc, stripPrefix_append, Option.bind_some, stripSuffix_append, if_pos rfl]

theorem exactForm_exact (except : Bool) (domain : Str) :
    exactForm except domain domain = some FORM_EXACT := by
  unfold exactForm
  rw [if_pos rfl]
  rfl

theorem exactForm_caret (except : Bool) (domain : Str) :
    exactForm except (domain ++ ['^']) domain = some FORM_EXACT_CARET := by
  simp only [exactForm]
  rw [if_neg (by simp), if_pos (stripSuffix_append domain ['^'])]
  rfl

theorem exactForm_hosts (domain : Str) :
    exactForm false ("0.0.0.0 ".toList ++ domain) domain = some FORM_HOSTS_ZERO := by
  have longer : "0.0.0.0 ".toList ++ domain ≠ domain := by
    intro same
    have length := congrArg List.length same
    rw [List.length_append] at length
    exact absurd length (by simp)
  have no_caret : stripSuffix ("0.0.0.0 ".toList ++ domain) ['^'] ≠ some domain := by
    intro caret
    have length := congrArg List.length (stripSuffix_eq_some.mp caret)
    rw [List.length_append, List.length_append] at length
    have eight : "0.0.0.0 ".toList.length = 8 := by decide
    have one : ['^'].length = 1 := rfl
    omega
  have zero : isHostsZero ("0.0.0.0 ".toList ++ domain) domain = some true := by
    have front : stripPrefix ("0.0.0.0 ".toList ++ domain) "0.0.0.0".toList = some (' ' :: domain) :=
      stripPrefix_append "0.0.0.0".toList (' ' :: domain)
    have space : len (' ' :: domain) = len domain + 1 := by
      rw [len_cons]
      exact Nat.add_comm 1 _
    have split : splitAtByte (' ' :: domain) 1 = some ([' '], domain) :=
      splitAtByte_append [' '] domain
    have seventh : (asBytes ("0.0.0.0 ".toList ++ domain))[7]? = some 32 := by
      rw [asBytes_append, List.getElem?_append_left (by decide)]
      decide
    simp only [isHostsZero]
    rw [front]
    dsimp only
    rw [if_pos space, split]
    simp only [Option.bind_eq_bind, Option.bind_some, if_true, seventh]
    rfl
  simp only [exactForm]
  rw [if_neg longer, if_neg no_caret, zero]
  rfl

/-- The forms tell exactly the canonical spellings apart. -/
theorem form_canonical_iff {rule : Rule}
    (marked : rule.text = exceptMark rule.isExcept ++ rule.body) (formed : rule.form.isSome) :
    rule.form ≠ some FORM_VERBATIM ↔ Canonical rule.isExcept rule.pattern rule.text := by
  rw [marked]
  unfold Rule.form at formed ⊢
  generalize rule.isExcept = except at formed ⊢
  generalize rule.body = body at formed ⊢
  generalize rule.pattern = pattern at formed ⊢
  constructor
  · intro stored
    cases pattern with
    | Subtree domain =>
        have canonical := subtreeForm_stored fun same => stored (congrArg some same)
        rw [subtreeForm_body canonical]
        exact .subtree except domain
    | Exact domain =>
        obtain ⟨form, formed⟩ := Option.isSome_iff_exists.mp formed
        dsimp only at formed stored
        have canonical := (exactForm_cases formed).resolve_right
          fun same => stored (formed.trans (congrArg some same))
        rcases exactForm_spelled formed canonical with ⟨_, rfl⟩ | ⟨_, rfl⟩ | ⟨_, rfl, rfl⟩
        · exact .exact except body
        · exact .caret except domain
        · exact .hosts domain
    | Wildcard expr includeSubdomains => exact absurd rfl stored
  · intro canonical
    generalize text : exceptMark except ++ body = spelled at canonical
    cases canonical with
    | subtree _ domain =>
        obtain rfl := List.append_cancel_left text
        simp only [subtreeForm_canonical]
        decide
    | exact _ domain =>
        obtain rfl := List.append_cancel_left text
        simp only [exactForm_exact]
        decide
    | caret _ domain =>
        obtain rfl := List.append_cancel_left text
        simp only [exactForm_caret]
        decide
    | hosts domain =>
        obtain rfl := List.append_cancel_left text
        simp only [exactForm_hosts]
        decide

/-! ### Lines -/

/-- A rule read from this line. -/
structure Read (raw : Str) (index : Nat) (rule : Rule) : Prop where
  text : rule.text = trim raw
  line : rule.line = lineNumber index
  marked : rule.text = exceptMark rule.isExcept ++ rule.body

theorem ruleBody_marked {line : Str} (except : (ruleBody line).action = .Except) :
    ∃ rest, stripPrefix line ['@', '@'] = some rest := by
  simp only [ruleBody] at except
  cases front : stripPrefix line ['@', '@'] with
  | some rest => exact ⟨rest, rfl⟩
  | none =>
      rw [front] at except
      contradiction

theorem parseRaw_reads (raw : Str) (index : Nat) : (parseRaw raw index).All (Read raw index) := by
  apply parseRaw_own
  apply parseLine_all
  · intro name _ domain _
    exact ⟨rfl, rfl, rfl⟩
  · intro pattern _
    refine ⟨rfl, rfl, ?_⟩
    unfold Rule.body Rule.isExcept
    dsimp only
    cases action : (ruleBody (trim raw)).action with
    | Block => rfl
    | Except =>
        obtain ⟨rest, front⟩ := ruleBody_marked action
        rw [front]
        exact (stripPrefix_eq_some.mp front).symm

end Sumidero.Filter
