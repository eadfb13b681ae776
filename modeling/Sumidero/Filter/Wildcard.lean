import Sumidero.Data.Glob
import Sumidero.Text

namespace Sumidero.Filter

open Text Data

/-! Wildcard expressions: the two-pointer matcher, and the complete labels after the
last star that every matching name ends in. -/

/-- `*` -/
def STAR : UInt8 := 42

/-- The loop of the matcher over the positions in pattern and text, and the star it
falls back to with the position its match has reached.  `none` is a mismatch with
no star to fall back to. -/
def globLoop (pat text : List UInt8) (p t : Nat) (star : Option (Nat × Nat))
    (behind : ∀ fallback ∈ star, fallback.2 ≤ t) : Option Nat :=
  if more : t < text.length then
    if pat[p]? = some text[t] then
      globLoop pat text (p + 1) (t + 1) star
        fun fallback member => Nat.le_succ_of_le (behind fallback member)
    else if inside : pat[p]? = some STAR then
      globLoop pat text (p + 1) t (some (p, t)) (by simp)
    else
      match found : star with
      | some (sp, st) => globLoop pat text (sp + 1) (st + 1) (some (sp, st + 1)) (by simp)
      | none => none
  else some p
termination_by
  (match star with | some (_, st) => text.length - st | none => text.length + 1,
    text.length - t, pat.length - p)
decreasing_by
  · exact Prod.Lex.right _ (Prod.Lex.left _ _ (by omega))
  · have inPat : p < pat.length := (List.getElem?_eq_some_iff.mp inside).1
    cases star with
    | none => exact Prod.Lex.left _ _ (by dsimp only; omega)
    | some fallback =>
        have early := behind fallback rfl
        rcases Nat.lt_or_eq_of_le early with less | same
        · exact Prod.Lex.left _ _ (by dsimp only; omega)
        · dsimp only
          rw [same]
          exact Prod.Lex.right _ (Prod.Lex.right _ (by omega))
  · have early := behind _ rfl
    dsimp only at early
    exact Prod.Lex.left _ _ (by omega)

/-- Classic two-pointer glob matcher; `*` matches any byte sequence. -/
def globMatch (pat text : List UInt8) : Bool :=
  match globLoop pat text 0 0 none (by simp) with
  | some p => ((pat.drop p).dropWhile (· == STAR)).isEmpty
  | none => false

/-- The name's suffixes at label boundaries, the name itself aside. -/
def labelSuffixes : Str → List Str
  | [] => []
  | c :: rest => if c = '.' then rest :: labelSuffixes rest else labelSuffixes rest

/-- Does `expr` match `name`?  With `includeSubdomains`, also try every suffix at a
label boundary. -/
def wildcardMatches (expr name : Str) (includeSubdomains : Bool) : Bool :=
  globMatch (asBytes expr) (asBytes name) ||
    (includeSubdomains &&
      (labelSuffixes name).any fun rest => globMatch (asBytes expr) (asBytes rest))

/-- The complete labels after a wildcard's last `*`. -/
def wildcardAnchor (expr : Str) : Option Str := do
  let tail ← afterLast '*' expr
  let anchor ← afterFirst '.' tail
  if anchor.isEmpty then none else some anchor

/-! ### What the matcher decides -/

section Exact

variable {pat text : List UInt8}

/-- The positions of a fallback: between its star and the loop's own position pattern and
text agree byte for byte, and that stretch does not begin with a star. -/
def Resumes (pat text : List UInt8) (p t : Nat) (fallback : Nat × Nat) : Prop :=
  ∃ stretch, pat.drop (fallback.1 + 1) = stretch ++ pat.drop p ∧
    text.drop fallback.2 = stretch ++ text.drop t ∧ stretch.head? ≠ some STAR ∧
    (stretch = [] → pat[p]? = some STAR → text[t]? ≠ some STAR)

/-- The text from `t` on is matched by the pattern from `p` on, or by what follows the
fallback's star from some later position on. -/
def Matchable (pat text : List UInt8) (p t : Nat) (star : Option (Nat × Nat)) : Prop :=
  GlobsLiteral STAR (pat.drop p) (text.drop t) ∨
    ∃ fallback ∈ star, ∃ k,
      GlobsLiteral STAR (pat.drop (fallback.1 + 1)) (text.drop (fallback.2 + (k + 1)))

theorem Resumes.literal {p t : Nat} {fallback : Nat × Nat} (more : t < text.length)
    (same : pat[p]? = some text[t]) (resumes : Resumes pat text p t fallback) :
    Resumes pat text (p + 1) (t + 1) fallback := by
  obtain ⟨stretch, inPat, inText, begins, first⟩ := resumes
  obtain ⟨inside, byte⟩ := List.getElem?_eq_some_iff.mp same
  refine ⟨stretch ++ [text[t]], ?_, ?_, ?_, by simp⟩
  · rw [inPat, List.drop_eq_getElem_cons inside, byte]
    simp
  · rw [inText, List.drop_eq_getElem_cons more]
    simp
  · cases stretch with
    | nil =>
        intro star
        simp only [List.nil_append, List.head?_cons, Option.some.injEq] at star
        exact first rfl (by rw [same, star]) (by rw [List.getElem?_eq_getElem more, star])
    | cons a stretch => simpa using begins

/-- What a fallback could still match, the pattern matches further on from where it is. -/
theorem Resumes.ahead {p t k : Nat} {fallback : Nat × Nat}
    (resumes : Resumes pat text p t fallback)
    (matched : GlobsLiteral STAR (pat.drop (fallback.1 + 1))
      (text.drop (fallback.2 + (k + 1)))) :
    ∃ j, GlobsLiteral STAR (pat.drop p) (text.drop (t + j)) := by
  obtain ⟨stretch, inPat, inText, begins, _⟩ := resumes
  rw [inPat, ← List.drop_drop, inText] at matched
  obtain ⟨j, after⟩ := GlobsLiteral.ahead begins matched
  exact ⟨j, by rwa [List.drop_drop] at after⟩

theorem not_matched {p t : Nat} (more : t < text.length) (different : ¬ pat[p]? = some text[t])
    (outside : ¬ pat[p]? = some STAR) : ¬ GlobsLiteral STAR (pat.drop p) (text.drop t) := by
  rw [List.drop_eq_getElem_cons more]
  cases rest : pat.drop p with
  | nil =>
      intro matched
      cases matched
  | cons b after =>
      have here : pat[p]? = some b := by rw [← List.head?_drop, rest, List.head?_cons]
      apply GlobsLiteral.mismatch
      · intro same
        exact different (by rw [here, same])
      · intro star
        exact outside (by rw [here, star])

/-- The loop ends where only stars are left exactly when the text can be matched. -/
theorem globLoop_exact {p t : Nat} {star : Option (Nat × Nat)}
    {behind : ∀ fallback ∈ star, fallback.2 ≤ t}
    (resumes : ∀ fallback ∈ star, Resumes pat text p t fallback) :
    (∃ q, globLoop pat text p t star behind = some q ∧ ∀ a ∈ pat.drop q, a = STAR) ↔
      Matchable pat text p t star := by
  fun_induction globLoop pat text p t star behind with
  | case1 p t star behind more same ih =>
      rw [ih fun fallback member => (resumes fallback member).literal more same]
      obtain ⟨inside, byte⟩ := List.getElem?_eq_some_iff.mp same
      simp only [Matchable]
      rw [List.drop_eq_getElem_cons inside, List.drop_eq_getElem_cons more, byte,
        GlobsLiteral.literal_iff]
  | case2 p t star behind more different inside ih =>
      obtain ⟨inPat, byte⟩ := List.getElem?_eq_some_iff.mp inside
      have other : text[t] ≠ STAR := fun same => different (by rw [inside, same])
      rw [ih (by
        intro fallback member
        cases member
        exact ⟨[], rfl, rfl, by simp, fun _ _ here =>
          other (by simpa [List.getElem?_eq_getElem more] using here)⟩)]
      constructor
      · intro matchable
        left
        rw [List.drop_eq_getElem_cons inPat, byte, GlobsLiteral.star_iff (by
          rw [List.head?_drop, List.getElem?_eq_getElem more]
          simpa using other)]
        rcases matchable with here | later
        · exact ⟨0, here⟩
        · obtain ⟨fallback, member, k, later⟩ := later
          cases member
          exact ⟨k + 1, by rwa [List.drop_drop]⟩
      · intro matchable
        have found : ∃ j, GlobsLiteral STAR (pat.drop p) (text.drop (t + j)) := by
          rcases matchable with here | later
          · exact ⟨0, here⟩
          · obtain ⟨fallback, member, k, later⟩ := later
            exact (resumes fallback member).ahead later
        obtain ⟨j, found⟩ := found
        rw [List.drop_eq_getElem_cons inPat, byte] at found
        obtain ⟨k, tail⟩ := found.after_star
        rw [List.drop_drop] at tail
        cases sum : j + k with
        | zero => exact .inl (by rwa [Nat.add_assoc, sum] at tail)
        | succ m =>
            refine .inr ⟨(p, t), rfl, m, ?_⟩
            rwa [Nat.add_assoc, sum] at tail
  | case3 p t more different outside sp st _ behind ih =>
      obtain ⟨stretch, inPat, inText, begins, first⟩ := resumes (sp, st) rfl
      rw [ih (by
        intro fallback member
        cases member
        refine ⟨[], rfl, rfl, by simp, fun _ star => ?_⟩
        rw [← List.head?_drop] at star
        dsimp only at inPat
        rw [inPat] at star
        cases stretch with
        | nil => exact absurd (by simpa using star) outside
        | cons a stretch => exact absurd star begins)]
      have stuck := not_matched more different outside
      simp only [Matchable, Option.mem_def, Option.some.injEq, exists_eq_left', stuck, false_or]
      constructor
      · intro matchable
        rcases matchable with here | later
        · exact ⟨0, here⟩
        · obtain ⟨k, later⟩ := later
          exact ⟨k + 1, by rwa [Nat.add_assoc, Nat.add_comm 1] at later⟩
      · intro matchable
        obtain ⟨k, later⟩ := matchable
        cases k with
        | zero => exact .inl later
        | succ k => exact .inr ⟨k, by rwa [Nat.add_assoc, Nat.add_comm 1]⟩
  | case4 p t more different outside _ behind =>
      have stuck := not_matched more different outside
      simp [Matchable, stuck]
  | case5 p t star behind beyond =>
      have done : ∀ j, text.drop (t + j) = [] := fun j => List.drop_eq_nil_of_le (by omega)
      constructor
      · intro ended
        obtain ⟨q, same, stars⟩ := ended
        cases same
        refine .inl ?_
        rw [show text.drop t = [] from done 0]
        exact GlobsLiteral.nil_iff.mpr stars
      · intro matchable
        refine ⟨p, rfl, GlobsLiteral.nil_iff.mp ?_⟩
        rcases matchable with here | later
        · rwa [show text.drop t = [] from done 0] at here
        · obtain ⟨fallback, member, k, later⟩ := later
          obtain ⟨j, after⟩ := (resumes fallback member).ahead later
          rwa [done j] at after

theorem globMatch_eq_globsLiteral (pat text : List UInt8) :
    globMatch pat text = true ↔ GlobsLiteral STAR pat text := by
  have exact := @globLoop_exact pat text 0 0 none (by simp) (by simp)
  simp only [Matchable, List.drop_zero, Option.mem_def, reduceCtorEq, false_and, exists_false,
    or_false] at exact
  rw [← exact]
  simp only [globMatch]
  cases globLoop pat text 0 0 none (by simp) with
  | none => simp
  | some p => simp

theorem globMatch_sound {pat text : List UInt8} (accepted : globMatch pat text = true) :
    Globs STAR pat text :=
  ((globMatch_eq_globsLiteral pat text).mp accepted).globs

/-- The matcher decides the meaning of the pattern on a text exactly where this holds: a
text the pattern matches at all, it also matches with every star that begins at a star of
the text standing for just that byte. -/
theorem globMatch_decides (pat text : List UInt8) :
    (globMatch pat text = true ↔ Globs STAR pat text) ↔
      (Globs STAR pat text → GlobsLiteral STAR pat text) := by
  rw [globMatch_eq_globsLiteral]
  constructor
  · intro decides
    exact decides.mpr
  · intro literally
    exact ⟨GlobsLiteral.globs, literally⟩

/-- `*a` is not found to match `*ba`. -/
theorem star_in_text_missed :
    ¬ (globMatch [STAR, 97] [STAR, 98, 97] = true ↔ Globs STAR [STAR, 97] [STAR, 98, 97]) := by
  have matched : Globs STAR [STAR, 97] [STAR, 98, 97] := .take (.take (.skip (.literal .nil)))
  have missed : globMatch [STAR, 97] [STAR, 98, 97] = false := by
    simp [globMatch, globLoop, STAR]
  simp [missed, matched]

theorem globMatch_of_starless {pat text : List UInt8} (starless : STAR ∉ text) :
    globMatch pat text = true ↔ Globs STAR pat text := by
  rw [globMatch_eq_globsLiteral]
  exact ⟨GlobsLiteral.globs, fun matched => GlobsLiteral.of_globs matched starless⟩

end Exact

/-! ### Anchors -/

theorem afterFirst_eq {sep : Char} {text rest : Str} (found : afterFirst sep text = some rest) :
    ∃ front, text = front ++ sep :: rest := by
  induction text with
  | nil => cases found
  | cons c text ih =>
      simp only [afterFirst] at found
      by_cases same : c = sep
      · rw [if_pos same] at found
        cases found
        exact ⟨[], by rw [same]; rfl⟩
      · rw [if_neg same] at found
        obtain ⟨front, whole⟩ := ih found
        exact ⟨c :: front, by rw [whole]; rfl⟩

theorem afterLast_eq {sep : Char} {text rest : Str} (found : afterLast sep text = some rest) :
    ∃ front, text = front ++ sep :: rest ∧ sep ∉ rest := by
  simp only [afterLast] at found
  split at found
  · next inside =>
    have plain := Data.not_mem_of_mem_splitOn rest (List.mem_of_getLast? found)
    obtain ⟨front, fields⟩ := List.getLast?_eq_some_iff.mp found
    have some_front : front ≠ [] := by
      intro none
      rw [none, List.nil_append] at fields
      have whole := @List.intercalate_splitOn _ text _ _ sep
      rw [fields, List.intercalate_singleton] at whole
      exact plain (whole ▸ inside)
    refine ⟨[sep].intercalate front, ?_, plain⟩
    rw [← @List.intercalate_splitOn _ text _ _ sep, fields,
      Data.intercalate_append some_front (List.cons_ne_nil _ _), List.intercalate_singleton]
  · cases found

theorem mem_labelSuffixes {name suffix : Str} :
    suffix ∈ labelSuffixes name ↔ ('.' :: suffix) <:+ name := by
  induction name with
  | nil => simp [labelSuffixes]
  | cons c rest ih =>
      simp only [labelSuffixes]
      rw [List.suffix_cons_iff]
      by_cases same : c = '.'
      · rw [if_pos same, List.mem_cons, ih]
        simp [same]
      · rw [if_neg same, ih]
        constructor
        · exact .inr
        · intro given
          rcases given with whole | later
          · exact absurd (List.cons.inj whole).1.symm same
          · exact later

/-- What matches a wildcard ends in its anchor, after a dot. -/
theorem globMatch_anchor {expr anchor name : Str} (anchored : wildcardAnchor expr = some anchor)
    (accepted : globMatch (asBytes expr) (asBytes name) = true) : anchor ∈ labelSuffixes name := by
  simp only [wildcardAnchor] at anchored
  obtain ⟨tail, last, anchored⟩ := Option.bind_eq_some_iff.mp anchored
  obtain ⟨found, first, anchored⟩ := Option.bind_eq_some_iff.mp anchored
  split at anchored
  · cases anchored
  · cases anchored
    obtain ⟨before, whole, starless⟩ := afterLast_eq last
    obtain ⟨front, rest⟩ := afterFirst_eq first
    have matched := globMatch_sound accepted
    rw [whole, asBytes_append, asBytes_cons] at matched
    have ending := matched.suffix fun inside => starless (mem_asBytes (c := '*') rfl (by decide) inside)
    rw [rest, asBytes_append, asBytes_cons] at ending
    exact mem_labelSuffixes.mpr (dot_suffix_asBytes.mp ((List.suffix_append _ _).trans ending))

theorem wildcardMatches_anchor {expr anchor name : Str} {includeSubdomains : Bool}
    (anchored : wildcardAnchor expr = some anchor)
    (accepted : wildcardMatches expr name includeSubdomains = true) :
    anchor ∈ labelSuffixes name := by
  simp only [wildcardMatches] at accepted
  rcases Bool.or_eq_true_iff.mp accepted with whole | below
  · exact globMatch_anchor anchored whole
  · obtain ⟨rest, member, matched⟩ := List.any_eq_true.mp (Bool.and_eq_true_iff.mp below).2
    have inner := mem_labelSuffixes.mp (globMatch_anchor anchored matched)
    have outer := mem_labelSuffixes.mp member
    exact mem_labelSuffixes.mpr (inner.trans ((List.suffix_cons _ _).trans outer))

end Sumidero.Filter
