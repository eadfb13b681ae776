import Sumidero.Filter.Spelled

namespace Sumidero.Filter

open Text Data Engine

/-! The text a verdict reports is the line its rule was read from. -/

/-! ### Texts kept as they stand -/

/-- The longest prefix of at most 255 bytes. -/
structure Longest (text shown : Str) : Prop where
  front : shown <+: text
  short : len shown ≤ 255
  longest : ∀ longer, longer <+: text → len longer ≤ 255 → len longer ≤ len shown

theorem isCharBoundary_front {text front : Str} (front_of : front <+: text) :
    isCharBoundary text (len front) = true := by
  obtain ⟨rest, rfl⟩ := front_of
  simp only [isCharBoundary]
  rw [splitAtByte_append]
  rfl

/-- Searched from above, the first hit is the greatest. -/
theorem find?_reverse_range {holds : Nat → Bool} {n found : Nat}
    (hit : (List.range n).reverse.find? holds = some found) :
    holds found = true ∧ ∀ other < n, holds other = true → other ≤ found := by
  induction n with
  | zero => contradiction
  | succ n ih =>
      rw [List.range_succ, List.reverse_append, List.reverse_singleton, List.singleton_append]
        at hit
      by_cases top : holds n = true
      · rw [List.find?_cons_of_pos top] at hit
        cases hit
        exact ⟨top, fun other below _ => Nat.le_of_lt_succ below⟩
      · rw [List.find?_cons_of_neg top] at hit
        obtain ⟨held, greatest⟩ := ih hit
        refine ⟨held, fun other below also => greatest other ?_ also⟩
        have differs : other ≠ n := fun same => top (same ▸ also)
        omega

theorem shownLen_longest (text : Str) :
    ∃ shown rest, text = shown ++ rest ∧ len shown = Store.shownLen text ∧ Longest text shown := by
  simp only [Store.shownLen]
  have start : isCharBoundary text 0 = true := isCharBoundary_front List.nil_prefix
  cases found : (List.range (min (len text) 255 + 1)).reverse.find? (isCharBoundary text) with
  | none =>
      have nowhere := List.find?_eq_none.mp found 0 (by simp)
      exact absurd start nowhere
  | some size =>
      obtain ⟨boundary, greatest⟩ := find?_reverse_range found
      have inRange := List.mem_of_find?_eq_some found
      rw [List.mem_reverse, List.mem_range] at inRange
      obtain ⟨⟨shown, rest⟩, split⟩ := Option.isSome_iff_exists.mp boundary
      obtain ⟨whole, length⟩ := splitAtByte_eq split
      refine ⟨shown, rest, whole, length, ⟨rest, whole.symm⟩, by omega, ?_⟩
      intro longer front short
      have fits := len_le_of_infix front.isInfix
      rw [length]
      exact greatest _ (by omega) (isCharBoundary_front front)

theorem Longest.whole {text shown : Str} (longest : Longest text shown) (fits : len text ≤ 255) :
    shown = text := by
  have most := longest.longest text (List.prefix_refl _) fits
  obtain ⟨rest, rfl⟩ := longest.front
  rw [len_append] at most
  cases rest with
  | nil => rw [List.append_nil]
  | cons c more =>
      have positive := c.utf8Size_pos
      rw [len_cons] at most
      omega

namespace Store

/-- The text stands at this offset of the arena. -/
def Stands (verbatim : Str) (off : Nat) (text : Str) : Prop :=
  ∃ before after, verbatim = before ++ text ++ after ∧ len before = off

/-- The span of every rule kept verbatim is the shown front of its own text. -/
def Quotes (store : Store) (added : List Added) : Prop :=
  ∀ (id : Nat) (entry : Added), added[id]? = some entry →
    entry.rule.form = some FORM_VERBATIM →
    ∃ off, store.spanOff[id]? = some off ∧
      store.spanLen[id]? = some (shownLen entry.rule.text) ∧
      Stands store.verbatim off entry.rule.text

section Push

variable {store pushed after : Store} {added : List Added} {list id form : Nat} {rule : Rule}

theorem Stands.grow {verbatim text : Str} {off : Nat} (stands : Stands verbatim off text)
    (more : Str) : Stands (verbatim ++ more) off text := by
  obtain ⟨before, behind, whole, start⟩ := stands
  exact ⟨before, behind ++ more, by rw [whole]; simp only [List.append_assoc], start⟩

/-- Spans that stay where they were still quote, also when the arena grows. -/
theorem Quotes.older (quotes : store.Quotes added) {entry : Added}
    (found : added[id]? = some entry) (verbatim : entry.rule.form = some FORM_VERBATIM)
    {more : Str} (arena : after.verbatim = store.verbatim ++ more)
    (offs : after.spanOff[id]? = store.spanOff[id]?)
    (lens : after.spanLen[id]? = store.spanLen[id]?) :
    ∃ off, after.spanOff[id]? = some off ∧
      after.spanLen[id]? = some (shownLen entry.rule.text) ∧
      Stands after.verbatim off entry.rule.text := by
  obtain ⟨off, offFound, lenFound, stands⟩ := quotes id entry found verbatim
  exact ⟨off, offs.trans offFound, lens.trans lenFound, arena ▸ stands.grow more⟩

theorem Quotes.push (quotes : store.Quotes added) (holds : store.Holds added)
    (formed : rule.form = some form)
    (push : store.push list rule.line rule.isExcept form = some (pushed, id))
    (kept : (if form = FORM_VERBATIM then pushed.pushVerbatim id rule.text else some pushed) =
      some after) : after.Quotes (added ++ [{ list := list, rule := rule }]) := by
  obtain ⟨fresh, rfl⟩ := push_eq push
  have linesLength : store.lines.length = added.length := by rw [holds.lines, List.length_map]
  rw [linesLength] at fresh
  subst fresh
  intro id entry found verbatim
  by_cases stored : form = FORM_VERBATIM
  · rw [if_pos stored] at kept
    obtain ⟨_, _, rfl⟩ := pushVerbatim_eq kept
    rcases getElem?_concat_cases found with ⟨older, found⟩ | ⟨rfl, rfl⟩
    · apply quotes.older found verbatim rfl
      · dsimp only
        rw [List.getElem?_set_ne (by omega),
          List.getElem?_append_left (by rw [holds.spanOff]; exact older)]
      · dsimp only
        rw [List.getElem?_set_ne (by omega),
          List.getElem?_append_left (by rw [holds.spanLen]; exact older)]
    · refine ⟨len store.verbatim, ?_, ?_, store.verbatim, [], by simp, rfl⟩
      · exact List.getElem?_set_self (by simp [holds.spanOff])
      · exact List.getElem?_set_self (by simp [holds.spanLen])
  · rw [if_neg stored] at kept
    cases kept
    rcases getElem?_concat_cases found with ⟨older, found⟩ | ⟨rfl, rfl⟩
    · refine @Quotes.older store _ added id quotes entry found verbatim [] ?_ ?_ ?_
      · exact (List.append_nil _).symm
      · exact List.getElem?_append_left (by rw [holds.spanOff]; exact older)
      · exact List.getElem?_append_left (by rw [holds.spanLen]; exact older)
    · rw [formed] at verbatim
      exact absurd (Option.some.inj verbatim) stored

end Push

end Store

/-! ### Adding lists -/

section Add

variable {engine after : Engine} {added : List Added} {list : Nat} {rule : Rule}

/-- What a rule added does to the store. -/
def Stores (engine after : Engine) (list : Nat) (rule : Rule) : Prop :=
  ∃ form pushed id, rule.form = some form ∧
    engine.store.push list rule.line rule.isExcept form = some (pushed, id) ∧
    (if form = FORM_VERBATIM then pushed.pushVerbatim id rule.text else some pushed) =
      some after.store

theorem addSubtree_stores {domain : Str} (pattern : rule.pattern = .Subtree domain)
    (done : engine.addSubtree list rule domain = some after) : Stores engine after list rule := by
  simp only [addSubtree] at done
  obtain ⟨⟨pushed, id⟩, push, done⟩ := Option.bind_eq_some_iff.mp done
  obtain ⟨key, _, done⟩ := Option.bind_eq_some_iff.mp done
  obtain ⟨subtree, _, done⟩ := Option.bind_eq_some_iff.mp done
  obtain ⟨store, kept, done⟩ := Option.bind_eq_some_iff.mp done
  cases done
  rw [subtreeForm_ite] at kept
  exact ⟨_, pushed, id, by rw [Rule.form, pattern], push, kept⟩

theorem addExact_stores {domain : Str} (pattern : rule.pattern = .Exact domain)
    (done : engine.addExact list rule domain = some after) : Stores engine after list rule := by
  simp only [addExact] at done
  obtain ⟨form, formed, done⟩ := Option.bind_eq_some_iff.mp done
  obtain ⟨⟨pushed, id⟩, push, done⟩ := Option.bind_eq_some_iff.mp done
  obtain ⟨exact, _, done⟩ := Option.bind_eq_some_iff.mp done
  obtain ⟨store, kept, done⟩ := Option.bind_eq_some_iff.mp done
  cases done
  exact ⟨form, pushed, id, by rw [Rule.form, pattern]; exact formed, push, kept⟩

theorem addWildcard_stores {expr : Str} {includeSubdomains : Bool}
    (pattern : rule.pattern = .Wildcard expr includeSubdomains)
    (done : engine.addWildcard list rule expr includeSubdomains = some after) :
    Stores engine after list rule := by
  simp only [addWildcard] at done
  obtain ⟨⟨pushed, id⟩, push, done⟩ := Option.bind_eq_some_iff.mp done
  obtain ⟨store, kept, done⟩ := Option.bind_eq_some_iff.mp done
  obtain ⟨idx, _, done⟩ := Option.bind_eq_some_iff.mp done
  have stores : after.store = store := by
    cases anchor : wildcardAnchor expr with
    | some anchor =>
        simp only [anchor] at done
        cases done
        rfl
    | none =>
        simp only [anchor] at done
        cases done
        rfl
  exact ⟨FORM_VERBATIM, pushed, id, by rw [Rule.form, pattern], push, by rw [stores]; exact kept⟩

theorem addRule_stores (done : engine.addRule rule = some after) :
    Stores engine after (engine.listCount - 1) rule := by
  simp only [addRule] at done
  obtain ⟨list, small, done⟩ := Option.bind_eq_some_iff.mp done
  simp only [toU16] at small
  split at small
  · cases small
    split at done
    · next pattern => exact addSubtree_stores pattern done
    · next pattern => exact addExact_stores pattern done
    · next pattern => exact addWildcard_stores pattern done
  · contradiction

theorem addRule_quotes (building : Building engine added) (quotes : engine.store.Quotes added)
    (done : engine.addRule rule = some after) :
    after.store.Quotes (added ++ [{ list := engine.listCount - 1, rule := rule }]) := by
  obtain ⟨form, pushed, id, formed, push, kept⟩ := addRule_stores done
  exact quotes.push building.store formed push kept

end Add

theorem addRules_quotes {engine after : Engine} {added : List Added} {rules : List Rule}
    (building : Building engine added) (quotes : engine.store.Quotes added)
    (normal : ∀ rule ∈ rules, rule.pattern.Normal)
    (done : rules.foldlM Engine.addRule engine = some after) :
    after.store.Quotes
      (added ++ rules.map fun rule => { list := engine.listCount - 1, rule := rule }) := by
  induction rules generalizing engine added with
  | nil =>
      cases done
      simpa using quotes
  | cons rule rest ih =>
      rw [List.foldlM_cons] at done
      obtain ⟨middle, first, done⟩ := Option.bind_eq_some_iff.mp done
      obtain ⟨one, count⟩ := addRule_building building (normal rule List.mem_cons_self) first
      have whole := ih one (addRule_quotes building quotes first)
        (fun other member => normal other (List.mem_cons_of_mem _ member)) done
      rw [count] at whole
      simpa using whole

theorem addListTexts_quotes {engine after : Engine} {added : List Added} {texts : List Str}
    (building : Building engine added) (quotes : engine.store.Quotes added)
    (done : texts.foldlM EngineBuilder.addListText engine = some after) :
    after.store.Quotes (added ++ (texts.zipIdx engine.listCount).flatMap fun text =>
      (parseList text.1).rules.map fun rule => { list := text.2, rule := rule }) := by
  induction texts generalizing engine added with
  | nil =>
      cases done
      simpa using quotes
  | cons text rest ih =>
      rw [List.foldlM_cons] at done
      obtain ⟨middle, first, done⟩ := Option.bind_eq_some_iff.mp done
      obtain ⟨one, count⟩ := addListText_building building first
      have here := addRules_quotes building.begin quotes (parseList_normal text)
        (addListText_rules first)
      have whole := ih one here done
      rw [count] at whole
      simpa [List.zipIdx_cons] using whole

/-- Compiling moves the spans of canonical rules only. -/
theorem finish_quotes {sort : UnstableSort} {engine after : Engine} {added : List Added}
    (building : Building engine added) (quotes : engine.store.Quotes added)
    (finished : engine.finish sort = some after) : after.store.Quotes added := by
  obtain ⟨subtree, exact, _, _, rfl⟩ := finish_eq finished
  intro id entry found verbatim
  obtain ⟨offKept, sizeKept⟩ := following_verbatim building.store found verbatim subtree exact
  exact @Store.Quotes.older engine.store _ added id quotes entry found verbatim []
    (List.append_nil _).symm offKept sizeKept

theorem quotes_empty : Store.empty.Quotes [] := fun _ _ found => by cases found

theorem load_quotes {sort : UnstableSort} {texts : List Str} {engine : Engine}
    (loaded : EngineBuilder.load sort texts = some engine) :
    engine.store.Quotes (addedRules texts) := by
  simp only [EngineBuilder.load] at loaded
  obtain ⟨built, lists, finished⟩ := Option.bind_eq_some_iff.mp loaded
  have building := addListTexts_building building_empty lists
  have quotes := addListTexts_quotes building_empty quotes_empty lists
  rw [List.nil_append] at building quotes
  exact finish_quotes building quotes finished

/-! ### Reports -/

section Reports

variable {engine : Engine} {added : List Added} {entry : Added} {id list : Nat}
  {rule : MatchedRule}

theorem verbatim_quoted (quotes : engine.store.Quotes added) (present : added[id]? = some entry)
    (formed : entry.rule.form = some FORM_VERBATIM) :
    ∃ off size shown, engine.store.spanOff[id]? = some off ∧
      engine.store.spanLen[id]? = some size ∧
      engine.ruleText entry.rule.isExcept FORM_VERBATIM off size = some shown ∧
      Longest entry.rule.text shown := by
  obtain ⟨off, offFound, sizeFound, before, after, whole, rfl⟩ := quotes id entry present formed
  obtain ⟨shown, rest, text, length, longest⟩ := shownLen_longest entry.rule.text
  refine ⟨_, _, shown, offFound, sizeFound, ?_, longest⟩
  show slice engine.store.verbatim _ _ = some shown
  have parts : before ++ (shown ++ rest) ++ after = before ++ shown ++ (rest ++ after) := by
    simp only [List.append_assoc]
  rw [whole, ← length, text, parts]
  exact slice_append before shown (rest ++ after)

/-- A text that was not stored is rebuilt from its key. -/
theorem canonical_rebuilt (compiled : Compiled engine added) (present : added[id]? = some entry)
    {form : Nat} (formed : entry.rule.form = some form) (canonical : form ≠ FORM_VERBATIM)
    (marked : entry.rule.text = exceptMark entry.rule.isExcept ++ entry.rule.body) :
    ∃ off size, engine.store.spanOff[id]? = some off ∧ engine.store.spanLen[id]? = some size ∧
      engine.ruleText entry.rule.isExcept form off size = some entry.rule.text := by
  rw [marked]
  cases pattern : entry.rule.pattern with
  | Exact domain =>
      have itsForm := formed
      rw [Rule.form, pattern] at itsForm
      have exact_form := (exactForm_cases itsForm).resolve_right canonical
      rw [← exactForm_text itsForm exact_form]
      exact exact_rebuilt compiled present pattern formed exact_form
  | Subtree domain =>
      have itsForm := formed
      rw [Rule.form, pattern] at itsForm
      obtain rfl := Option.some.inj itsForm
      have subtree := subtreeForm_stored canonical
      rw [subtree] at formed ⊢
      rw [subtreeForm_body subtree, ← List.append_assoc, ← List.append_assoc]
      exact subtree_rebuilt compiled present pattern formed
  | Wildcard expr includeSubdomains =>
      rw [Rule.form, pattern] at formed
      exact absurd (Option.some.inj formed).symm canonical

theorem matched_parts (matched : engine.matched id = some (list, rule)) :
    ∃ except form off size, engine.store.isExcept id = some except ∧
      engine.store.form id = some form ∧ engine.store.spanOff[id]? = some off ∧
      engine.store.spanLen[id]? = some size ∧
      engine.ruleText except form off size = some rule.text ∧
      engine.store.lists[id]? = some list ∧ engine.store.lines[id]? = some rule.line := by
  simp only [Engine.matched] at matched
  obtain ⟨except, excepts, matched⟩ := Option.bind_eq_some_iff.mp matched
  obtain ⟨off, offFound, matched⟩ := Option.bind_eq_some_iff.mp matched
  obtain ⟨size, sizeFound, matched⟩ := Option.bind_eq_some_iff.mp matched
  obtain ⟨form, formed, matched⟩ := Option.bind_eq_some_iff.mp matched
  obtain ⟨text, built, matched⟩ := Option.bind_eq_some_iff.mp matched
  obtain ⟨found, lists, matched⟩ := Option.bind_eq_some_iff.mp matched
  obtain ⟨line, lines, matched⟩ := Option.bind_eq_some_iff.mp matched
  cases matched
  exact ⟨except, form, off, size, excepts, formed, offFound, sizeFound, built, lists, lines⟩

/-- What is reported of a rule: its list and line, and its text, whole or its shown front. -/
structure Reported (entry : Added) (list : Nat) (rule : MatchedRule) : Prop where
  list : list = entry.list
  line : rule.line = entry.rule.line
  rebuilt : entry.rule.form ≠ some FORM_VERBATIM → rule.text = entry.rule.text
  shown : entry.rule.form = some FORM_VERBATIM → Longest entry.rule.text rule.text

theorem matched_reported (compiled : Compiled engine added) (quotes : engine.store.Quotes added)
    (present : added[id]? = some entry)
    (marked : entry.rule.text = exceptMark entry.rule.isExcept ++ entry.rule.body)
    (matched : engine.matched id = some (list, rule)) : Reported entry list rule := by
  obtain ⟨except, form, off, size, excepts, formed, offFound, sizeFound, built, lists, lines⟩ :=
    matched_parts matched
  rw [compiled.store.isExcept present] at excepts
  rw [compiled.store.form present] at formed
  rw [compiled.store.lists, List.getElem?_map, present] at lists
  rw [compiled.store.lines, List.getElem?_map, present] at lines
  obtain rfl := Option.some.inj excepts
  refine ⟨(Option.some.inj lists).symm, (Option.some.inj lines).symm, ?_, ?_⟩
  · intro canonical
    rw [formed] at canonical
    obtain ⟨itsOff, itsSize, itsOffFound, itsSizeFound, rebuilt⟩ :=
      canonical_rebuilt compiled present formed (fun same => canonical (by rw [same])) marked
    obtain rfl := Option.some.inj (offFound.symm.trans itsOffFound)
    obtain rfl := Option.some.inj (sizeFound.symm.trans itsSizeFound)
    exact Option.some.inj (built.symm.trans rebuilt)
  · intro verbatim
    obtain ⟨itsOff, itsSize, shown, itsOffFound, itsSizeFound, sliced, longest⟩ :=
      verbatim_quoted quotes present verbatim
    obtain rfl := Option.some.inj (offFound.symm.trans itsOffFound)
    obtain rfl := Option.some.inj (sizeFound.symm.trans itsSizeFound)
    obtain rfl := Option.some.inj (formed.symm.trans verbatim)
    obtain rfl := Option.some.inj (built.symm.trans sliced)
    exact longest

/-- A verdict's rule is one of the rules the lists hold, read from a line of its list. -/
theorem verdict_reported {sort : UnstableSort} {texts : List Str} {query : Str} {verdict : Verdict}
    (loaded : EngineBuilder.load sort texts = some engine)
    (decided : engine.verdict query = some verdict)
    (names : verdict.reported = some (list, rule)) :
    ∃ source raw index parsed, texts[list]? = some source ∧ (lines source)[index]? = some raw ∧
      parsed ∈ (parseRaw raw index).rules ∧ Reported ⟨list, parsed⟩ list rule := by
  have compiled := load_compiled loaded
  have matched : ∃ id, engine.matched id = some (list, rule) := by
    rcases verdict_reports decided with ⟨_, rfl⟩ | ⟨_, id, reports⟩
    · contradiction
    · cases reports with
      | exception _ matched =>
          cases names
          exact ⟨_, matched⟩
      | block _ matched =>
          cases names
          exact ⟨_, matched⟩
      | nothing => contradiction
  obtain ⟨id, matched⟩ := matched
  obtain ⟨⟨its, parsed⟩, present, rfl⟩ :=
    Option.map_eq_some_iff.mp (matched_list compiled.store matched)
  obtain ⟨source, found, member⟩ := mem_addedRules.mp (List.mem_of_getElem? present)
  obtain ⟨raw, index, line, inside⟩ := mem_parseList.mp member
  have read := parseRaw_reads raw index parsed inside
  exact ⟨source, raw, index, parsed, found, line, inside,
    matched_reported compiled (load_quotes loaded) present read.marked matched⟩

end Reports

/-- A reported rule was read from a line of the reported list.  Its text is that line, trimmed,
where the line has at most 255 bytes or is spelled canonically, and otherwise the longest front
of it that fits. -/
theorem reported_text_quotes {sort : UnstableSort} {texts : List Str} {engine : Engine}
    {query : Str} {verdict : Verdict} {list : Nat} {rule : MatchedRule}
    (loaded : EngineBuilder.load sort texts = some engine)
    (decided : engine.verdict query = some verdict)
    (names : verdict.reported = some (list, rule)) :
    ∃ source raw index parsed, texts[list]? = some source ∧ (lines source)[index]? = some raw ∧
      rule.line = lineNumber index ∧ parsed ∈ (parseRaw raw index).rules ∧
      (parsed.form ≠ some FORM_VERBATIM ↔
        Canonical parsed.isExcept parsed.pattern (trim raw)) ∧
      (len (trim raw) ≤ 255 ∨ parsed.form ≠ some FORM_VERBATIM → rule.text = trim raw) ∧
      (parsed.form = some FORM_VERBATIM → Longest (trim raw) rule.text) := by
  obtain ⟨source, raw, index, parsed, found, line, inside, reported⟩ :=
    verdict_reported loaded decided names
  have read := parseRaw_reads raw index parsed inside
  have formed := parseList_formed source parsed (mem_parseList.mpr ⟨raw, index, line, inside⟩)
  have canonical := form_canonical_iff read.marked formed
  have shown := reported.shown
  have rebuilt := reported.rebuilt
  rw [read.text] at canonical shown rebuilt
  refine ⟨source, raw, index, parsed, found, line, reported.line.trans read.line, inside,
    canonical, ?_, shown⟩
  intro short
  by_cases verbatim : parsed.form = some FORM_VERBATIM
  · exact (shown verbatim).whole (short.resolve_right fun stored => stored verbatim)
  · exact rebuilt verbatim

theorem rebuilt_exception_quoted : ∃ engine,
    EngineBuilder.load .insertion exampleLists = some engine ∧
      engine.verdict "x.ok.ads.com".toList =
        some (.Except 1 { action := .Except, text := "@@||ok.ads.com^".toList, line := 1 }) ∧
      ∃ source raw index parsed, exampleLists[1]? = some source ∧
        (lines source)[index]? = some raw ∧ 1 = lineNumber index ∧
        parsed ∈ (parseRaw raw index).rules ∧
        (parsed.form ≠ some FORM_VERBATIM ↔
          Canonical parsed.isExcept parsed.pattern (trim raw)) ∧
        (len (trim raw) ≤ 255 ∨ parsed.form ≠ some FORM_VERBATIM →
          "@@||ok.ads.com^".toList = trim raw) ∧
        (parsed.form = some FORM_VERBATIM →
          Longest (trim raw) "@@||ok.ads.com^".toList) := by
  have answers : ((EngineBuilder.load .insertion exampleLists).bind fun engine =>
      engine.verdict "x.ok.ads.com".toList) =
        some (.Except 1 { action := .Except, text := "@@||ok.ads.com^".toList, line := 1 }) := by
    decide +kernel
  obtain ⟨engine, loaded, decided⟩ := Option.bind_eq_some_iff.mp answers
  exact ⟨engine, loaded, decided, reported_text_quotes loaded decided rfl⟩

/-! ### Line numbers end -/

/-- A rule after so many blank lines. -/
def farRule (n : Nat) : Str := List.replicate n '\n' ++ "a.com".toList

theorem splitOn_blank (n : Nat) {line : Str} (single : '\n' ∉ line) :
    (List.replicate n '\n' ++ line).splitOn '\n' = List.replicate n [] ++ [line] := by
  induction n with
  | zero => exact List.splitOn_eq_singleton single
  | succ n ih =>
      rw [List.replicate_succ, List.cons_append, List.splitOn_cons_eq_if_modifyHead,
        if_pos (beq_self_eq_true _), ih,
        List.replicate_succ, List.cons_append]

theorem lines_farRule (n : Nat) :
    lines (farRule n) = List.replicate n [] ++ ["a.com".toList] := by
  have blank : (stripSuffix [] ['\r']).getD [] = ([] : Str) := by decide
  simp only [lines, farRule]
  rw [splitOn_blank n (by decide)]
  simp [blank]

theorem parseRaw_blank (index : Nat) : (parseRaw [] index).rules = [] := rfl

def farParsed (line : Nat) : Rule where
  action := .Block
  pattern := .Exact "a.com".toList
  text := "a.com".toList
  line := line

theorem parseRaw_far (index : Nat) :
    (parseRaw "a.com".toList index).rules = [farParsed (lineNumber index)] := by rfl

theorem farParsed_form (line : Nat) : (farParsed line).form ≠ some FORM_VERBATIM := by
  rw [show (farParsed line).form = some FORM_EXACT from rfl]
  decide

theorem farRule_line {n index : Nat} {raw : Str} (line : (lines (farRule n))[index]? = some raw) :
    index < n ∧ raw = [] ∨ index = n ∧ raw = "a.com".toList := by
  rw [lines_farRule] at line
  rcases getElem?_concat_cases line with ⟨earlier, blank⟩ | ⟨last, same⟩
  · rw [List.length_replicate] at earlier
    exact .inl ⟨earlier, List.eq_of_mem_replicate (List.mem_of_getElem? blank)⟩
  · exact .inr ⟨by rw [last, List.length_replicate], same.symm⟩

theorem farRule_rules (n : Nat) :
    (parseList (farRule n)).rules = [farParsed (lineNumber n)] := by
  have blank : (List.replicate n ([] : Str)).zipIdx.flatMap
      (fun raw => (parseRaw raw.1 raw.2).rules) = [] := by
    rw [List.flatMap_eq_nil_iff]
    intro raw member
    rw [List.eq_of_mem_replicate (List.fst_mem_of_mem_zipIdx member), parseRaw_blank]
  rw [parseList_rules, lines_farRule, List.zipIdx_append, List.flatMap_append, blank]
  simp only [List.length_replicate, Nat.zero_add, List.zipIdx_singleton, List.flatMap_singleton,
    List.nil_append, parseRaw_far]

/-- The rule is loaded and blocks its name. -/
theorem farRule_blocks (n : Nat) :
    ∃ engine list rule, EngineBuilder.load .insertion [farRule n] = some engine ∧
      engine.verdict "a.com".toList = some (.Block list rule) := by
  have rules : addedRules [farRule n] = [⟨0, farParsed (lineNumber n)⟩] := by
    simp only [addedRules, List.zipIdx_singleton, List.flatMap_singleton, farRule_rules,
      List.map_cons, List.map_nil]
  have parsed : parsedRules [farRule n] = [farParsed (lineNumber n)] := by
    simp only [parsedRules, List.flatMap_singleton, farRule_rules]
  have limits : Limits (addedRules [farRule n]) := by
    rw [rules]
    generalize lineNumber n = line
    have exact_bytes : KeyIndex.keyBytes (exactEntries [⟨0, farParsed line⟩]) = 5 := rfl
    have subtree_bytes : KeyIndex.keyBytes (subtreeEntries [⟨0, farParsed line⟩]) = 0 := rfl
    have verbatim : verbatimBytes [⟨0, farParsed line⟩] = 0 := rfl
    exact ⟨by simp, by rw [exact_bytes]; decide, by rw [subtree_bytes]; decide,
      by rw [verbatim]; decide⟩
  obtain ⟨engine, loaded⟩ := load_total .insertion (by simp) limits
  obtain ⟨verdict, decided, kind, _⟩ := compiled_verdict (load_compiled loaded) "a.com".toList
    (.inr (by decide))
  have blocks : verdict.kind = .Block := by
    rw [kind, parsed]
    rfl
  cases verdict with
  | Block list rule => exact ⟨engine, list, rule, loaded, decided⟩
  | NoMatch => contradiction
  | Except list rule => contradiction

/-- Past line 4294967294 every rule is reported at line 4294967295, whatever stands there. -/
theorem far_line_unquoted :
    ¬ ∀ (sort : UnstableSort) (texts : List Str) (engine : Engine) (query : Str)
      (verdict : Verdict) (list : Nat) (rule : MatchedRule),
      EngineBuilder.load sort texts = some engine → engine.verdict query = some verdict →
      verdict.reported = some (list, rule) →
      ∃ source raw, texts[list]? = some source ∧ (lines source)[rule.line - 1]? = some raw ∧
        (len (trim raw) ≤ 255 → rule.text = trim raw) := by
  intro claim
  obtain ⟨n, far⟩ : ∃ n : Nat, n = 2 ^ 32 := ⟨_, rfl⟩
  obtain ⟨engine, list, rule, loaded, decided⟩ := farRule_blocks n
  obtain ⟨source, raw, index, parsed, found, line, inside, reported⟩ :=
    verdict_reported loaded decided rfl
  obtain ⟨quoted, other, also_found, quoted_line, same⟩ := claim _ _ _ _ _ _ _ loaded decided rfl
  have own : source = farRule n ∧ quoted = farRule n := by
    have first := List.mem_of_getElem? found
    have second := List.mem_of_getElem? also_found
    exact ⟨List.mem_singleton.mp first, List.mem_singleton.mp second⟩
  rw [own.1] at line
  rw [own.2] at quoted_line
  have last : index = n ∧ raw = "a.com".toList := by
    rcases farRule_line line with ⟨_, rfl⟩ | last
    · rw [parseRaw_blank] at inside
      contradiction
    · exact last
  have read := parseRaw_reads raw index parsed inside
  have number : rule.line - 1 < n := by
    rw [reported.line, read.line, lineNumber]
    omega
  rcases farRule_line quoted_line with ⟨_, rfl⟩ | ⟨beyond, _⟩
  · have nothing := same (by decide)
    rw [last.2, parseRaw_far, List.mem_singleton] at inside
    have text : rule.text = "a.com".toList := by
      rw [reported.rebuilt (inside ▸ farParsed_form _), inside]
      rfl
    rw [text] at nothing
    exact absurd nothing (by decide)
  · omega

end Sumidero.Filter
