import Sumidero.Filter.Forms

namespace Sumidero.Filter

open Text Net

/-! The grammar of the lists, stated apart from the parser: which lines mean nothing,
what a hosts line stands for, and how a rule is spelled.  The parser reads every line
exactly so. -/

/-! ### Names -/

/-- A label, or a starless part of an expression, as to its length and its ends. -/
structure Bounded (label : Str) : Prop where
  nonempty : label ≠ []
  short : len label ≤ 63
  start : label.head? ≠ some '-'
  stop : label.getLast? ≠ some '-'

structure ValidLabel (label : Str) : Prop extends Bounded label where
  chars : ∀ c ∈ label, isLowerOrDigit c = true ∨ c = '-' ∨ c = '_'

structure ValidDomain (name : Str) : Prop where
  fits : len name ≤ 253
  labels : ∀ label ∈ name.splitOn '.', ValidLabel label

structure ValidExpression (expr : Str) : Prop where
  fits : len expr ≤ 253
  alphanumeric : ∃ c ∈ expr, isAsciiAlphanumeric c = true
  chars : ∀ c ∈ expr, isLowerOrDigit c = true ∨ c ∈ ['-', '_', '.', '*']
  labels : ∀ label ∈ expr.splitOn '.', '*' ∈ label ∨ Bounded label

theorem normalizeDomain_iff {text domain : Str} :
    normalizeDomain text = some domain ↔ domain = lowerStrip text ∧ ValidDomain domain := by
  simp only [normalizeDomain]
  constructor
  · intro normal
    split at normal
    · cases normal
    · next shape =>
      split at normal
      · next labels =>
        cases normal
        simp only [Bool.or_eq_true, decide_eq_true_eq, not_or] at shape
        refine ⟨rfl, by omega, fun label member => ?_⟩
        have valid := List.all_eq_true.mp labels label member
        simp only [Bool.and_eq_true, Bool.not_eq_true', List.isEmpty_eq_false_iff, bne_iff_ne,
          decide_eq_true_eq, List.all_eq_true, Bool.or_eq_true, beq_iff_eq] at valid
        obtain ⟨⟨⟨⟨nonempty, short⟩, start⟩, stop⟩, chars⟩ := valid
        exact ⟨⟨nonempty, short, start, stop⟩, fun c inside => by
          rw [← or_assoc]
          exact chars c inside⟩
      · cases normal
  · intro valid
    obtain ⟨same, fits, labels⟩ := valid
    subst same
    have nonempty : lowerStrip text ≠ [] := by
      intro empty
      rw [empty, List.splitOn_nil] at labels
      exact (labels [] List.mem_cons_self).nonempty rfl
    have all : ((lowerStrip text).splitOn '.').all (fun label =>
        !label.isEmpty && len label ≤ 63 && label.head? != some '-' &&
          label.getLast? != some '-' &&
          label.all fun c => isLowerOrDigit c || c == '-' || c == '_') = true := by
      rw [List.all_eq_true]
      intro label member
      have valid := labels label member
      simp only [Bool.and_eq_true, Bool.not_eq_true', List.isEmpty_eq_false_iff, bne_iff_ne,
        decide_eq_true_eq, List.all_eq_true, Bool.or_eq_true, beq_iff_eq]
      refine ⟨⟨⟨⟨valid.nonempty, valid.short⟩, valid.start⟩, valid.stop⟩, fun c inside => ?_⟩
      rw [or_assoc]
      exact valid.chars c inside
    rw [if_neg (by simp [nonempty, fits]), if_pos all]

theorem normalizeWildcard_iff {text expr : Str} :
    normalizeWildcard text = some expr ↔ expr = lowerStrip text ∧ ValidExpression expr := by
  simp only [normalizeWildcard]
  constructor
  · intro normal
    split at normal
    · cases normal
    · next shape =>
      split at normal
      · cases normal
      · next chars =>
        split at normal
        · next labels =>
          cases normal
          simp only [Bool.or_eq_true, decide_eq_true_eq, not_or, Bool.not_eq_true',
            Bool.not_eq_false, List.any_eq_true] at shape
          simp only [Bool.not_eq_true', Bool.not_eq_false, List.all_eq_true, Bool.or_eq_true,
            List.contains_iff_mem] at chars
          refine ⟨rfl, by omega, shape.2, chars, fun label member => ?_⟩
          have valid := List.all_eq_true.mp labels label member
          simp only [Bool.and_eq_true, Bool.not_eq_true', List.isEmpty_eq_false_iff, bne_iff_ne,
            decide_eq_true_eq, Bool.or_eq_true, List.contains_iff_mem] at valid
          rcases valid with starred | ⟨⟨⟨nonempty, short⟩, start⟩, stop⟩
          · exact .inl starred
          · exact .inr ⟨nonempty, short, start, stop⟩
        · cases normal
  · intro valid
    obtain ⟨same, fits, alphanumeric, chars, labels⟩ := valid
    subst same
    have nonempty : lowerStrip text ≠ [] := by
      obtain ⟨c, inside, _⟩ := alphanumeric
      exact List.ne_nil_of_mem inside
    have all : ((lowerStrip text).splitOn '.').all (fun segment =>
        segment.contains '*' || (!segment.isEmpty && len segment ≤ 63 &&
          segment.head? != some '-' && segment.getLast? != some '-')) = true := by
      rw [List.all_eq_true]
      intro label member
      simp only [Bool.and_eq_true, Bool.not_eq_true', List.isEmpty_eq_false_iff, bne_iff_ne,
        decide_eq_true_eq, Bool.or_eq_true, List.contains_iff_mem]
      rcases labels label member with starred | bounded
      · exact .inl starred
      · exact .inr ⟨⟨⟨bounded.nonempty, bounded.short⟩, bounded.start⟩, bounded.stop⟩
    have allChars : ((lowerStrip text).all fun c =>
        isLowerOrDigit c || ['-', '_', '.', '*'].contains c) = true := by
      simpa only [List.all_eq_true, Bool.or_eq_true, List.contains_iff_mem] using chars
    rw [if_neg (by simpa [nonempty, fits] using alphanumeric), if_neg (by simp only [allChars]; decide),
      if_pos all]

/-! ### Lines that mean nothing -/

/-- A cosmetic rule for every page: `#@#`, `#?#`, `#$#`, `#%#`, or `##` and neither a
further `#` nor whitespace. -/
def DomainlessCosmetic (line : Str) : Prop :=
  (∃ marker ∈ ["#@#", "#?#", "#$#", "#%#"], marker.toList <+: line) ∨
    ∃ c rest, line = '#' :: '#' :: c :: rest ∧ c ≠ '#' ∧ isWhitespace c = false

/-- A comment: blank, `!`, a `[..]` header, or `#` without a cosmetic rule. -/
def Comment (line : Str) : Prop :=
  line = [] ∨ line.head? = some '!' ∨ (∃ inner, line = '[' :: inner ++ [']']) ∨
    (line.head? = some '#' ∧ ¬ DomainlessCosmetic line)

/-- A hosts line that names no host but this machine. -/
def HostsOnlyLocal (line : Str) : Prop := (hostsAddress line).isSome = true ∧ hostsNames line = []

def Silent (line : Str) : Prop := Comment line ∨ HostsOnlyLocal line

theorem header_iff {line : Str} :
    (line.head? == some '[' && line.getLast? == some ']') = true ↔
      ∃ inner, line = '[' :: inner ++ [']'] := by
  rw [Bool.and_eq_true, beq_iff_eq, beq_iff_eq]
  constructor
  · intro ends
    obtain ⟨rest, first⟩ := List.head?_eq_some_iff.mp ends.1
    obtain ⟨front, last⟩ := List.getLast?_eq_some_iff.mp ends.2
    cases front with
    | nil =>
        rw [first] at last
        cases last
    | cons c inner =>
        rw [first, List.cons_append] at last
        obtain ⟨rfl, tail⟩ := List.cons.inj last
        exact ⟨inner, by rw [first, tail, List.cons_append]⟩
  · intro framed
    obtain ⟨inner, rfl⟩ := framed
    exact ⟨rfl, List.getLast?_concat⟩

theorem domainlessCosmetic_iff {line : Str} :
    ((["#@#", "#?#", "#$#", "#%#"].any fun marker => marker.toList.isPrefixOf line) ||
        (['#', '#'].isPrefixOf line &&
          (line.drop 2).head?.any fun c => c != '#' && !isWhitespace c)) = true ↔
      DomainlessCosmetic line := by
  simp only [DomainlessCosmetic]
  rw [Bool.or_eq_true, List.any_eq_true, Bool.and_eq_true, List.isPrefixOf_iff_prefix]
  simp only [List.isPrefixOf_iff_prefix]
  apply or_congr_right
  constructor
  · intro marked
    obtain ⟨⟨rest, rfl⟩, next⟩ := marked
    cases rest with
    | nil => cases next
    | cons c rest =>
        have other : c ≠ '#' ∧ isWhitespace c = false := by simpa using next
        exact ⟨c, rest, rfl, other⟩
  · intro marked
    obtain ⟨c, rest, rfl, other, plain⟩ := marked
    exact ⟨⟨c :: rest, rfl⟩, by simp [other, plain]⟩

theorem skipOrReportComment_spec (line : Str) (lineNo : Nat) :
    (Comment line ∧ skipOrReportComment line lineNo = some .empty) ∨
      (¬ Comment line ∧ line.head? = some '#' ∧ skipOrReportComment line lineNo =
        some (.issue { line := lineNo, text := line, reason := .CosmeticRule })) ∨
      (¬ Comment line ∧ line.head? ≠ some '#' ∧ skipOrReportComment line lineNo = none) := by
  unfold skipOrReportComment
  by_cases blank : (line.isEmpty || line.head? == some '!') = true
  · left
    rw [if_pos blank]
    rw [Bool.or_eq_true, List.isEmpty_iff, beq_iff_eq] at blank
    exact ⟨blank.imp id .inl, rfl⟩
  · rw [if_neg blank]
    rw [Bool.or_eq_true, List.isEmpty_iff, beq_iff_eq, not_or] at blank
    by_cases header : (line.head? == some '[' && line.getLast? == some ']') = true
    · left
      rw [if_pos header]
      exact ⟨.inr (.inr (.inl (header_iff.mp header))), rfl⟩
    · rw [if_neg header]
      by_cases hash : (line.head? == some '#') = true
      · rw [if_pos hash]
        rw [beq_iff_eq] at hash
        by_cases cosmetic : DomainlessCosmetic line
        · right
          left
          refine ⟨?_, hash, by simp only [domainlessCosmetic_iff.mpr cosmetic, if_true]⟩
          intro comment
          rcases comment with none | bang | framed | plain
          · exact blank.1 none
          · exact blank.2 bang
          · exact header (header_iff.mpr framed)
          · exact plain.2 cosmetic
        · left
          refine ⟨.inr (.inr (.inr ⟨hash, cosmetic⟩)), ?_⟩
          dsimp only
          rw [if_neg (fun marked => cosmetic (domainlessCosmetic_iff.mp marked))]
      · right
        right
        rw [if_neg hash]
        rw [beq_iff_eq] at hash
        refine ⟨?_, hash, rfl⟩
        intro comment
        rcases comment with none | bang | framed | plain
        · exact blank.1 none
        · exact blank.2 bang
        · exact header (header_iff.mpr framed)
        · exact hash plain.1

/-- No comment and no cosmetic rule for every page is a hosts line. -/
theorem hostsAddress_none {c : Char} {rest : Str} (plain : isWhitespace c = false)
    (zoneless : c ≠ '%') (decimal : toDigit 10 c = none) (hexadecimal : toDigit 16 c = none)
    (colon : c ≠ ':') : hostsAddress (c :: rest) = none := by
  have first : ∃ word, (splitWhitespace (c :: rest)).head? = some (c :: word) := by
    simp only [splitWhitespace]
    rw [List.splitOnP_cons_eq_if_modifyHead, if_neg (by simp [plain])]
    cases words : rest.splitOnP isWhitespace with
    | nil => exact absurd words (List.splitOnP_ne_nil _ _)
    | cons word others => exact ⟨word, by simp⟩
  obtain ⟨word, first⟩ := first
  have address : ∃ front, ((c :: word).splitOn '%').head?.getD (c :: word) = c :: front := by
    rw [List.splitOn_cons_eq_if_modifyHead, if_neg (by simpa using zoneless)]
    cases parts : word.splitOn '%' with
    | nil => exact absurd parts (List.splitOn_ne_nil _ _)
    | cons front others => exact ⟨front, rfl⟩
  obtain ⟨front, address⟩ := address
  simp only [hostsAddress]
  rw [first]
  dsimp only
  rw [address]
  exact parseIpAddr_none decimal hexadecimal colon

theorem not_comment_of_hosts {line : Str} {ip : IpAddr} (hosts : hostsAddress line = some ip) :
    ¬ Comment line ∧ line.head? ≠ some '#' := by
  have begins : ∀ c, line.head? = some c → isWhitespace c = false → c ≠ '%' →
      toDigit 10 c = none → toDigit 16 c = none → c ≠ ':' → False := by
    intro c first plain zoneless decimal hexadecimal colon
    obtain ⟨rest, same⟩ := List.head?_eq_some_iff.mp first
    rw [same, hostsAddress_none plain zoneless decimal hexadecimal colon] at hosts
    cases hosts
  have hash : line.head? ≠ some '#' := fun first =>
    begins '#' first (by decide) (by decide) (by decide) (by decide) (by decide)
  refine ⟨?_, hash⟩
  intro comment
  rcases comment with blank | bang | framed | plain
  · rw [blank] at hosts
    cases hosts
  · exact begins '!' bang (by decide) (by decide) (by decide) (by decide) (by decide)
  · obtain ⟨inner, whole⟩ := framed
    exact begins '[' (by rw [whole]; rfl) (by decide) (by decide) (by decide) (by decide)
      (by decide)
  · exact hash plain.1

/-! ### Rules -/

/-- No cosmetic marker, no modifier and no regular expression. -/
structure Plain (line : Str) : Prop where
  cosmetic : ∀ marker ∈ COSMETIC_MARKERS, ¬ marker.toList <:+: line
  modifier : '$' ∉ line
  framed : ¬ ∃ inner, line = '/' :: inner ++ ['/']

/-- A rule written out. -/
def spelled (action : RuleAction) (subtree caret : Bool) (body : Str) : Str :=
  (if action = .Except then ['@', '@'] else []) ++ ((if subtree then ['|', '|'] else []) ++
    (body ++ if caret then ['^'] else []))

/-- The rules a line spells: `@@` for an exception, `||` for a subtree, a body and a final
`^`; the body, less one trailing dot and lowercased, is a domain or an expression. -/
inductive Spells : Str → RuleAction → Pattern → Prop
  | domain {action : RuleAction} {subtree caret : Bool} {body : Str}
      (valid : ValidDomain (lowerStrip body)) :
      Spells (spelled action subtree caret body) action
        (if subtree then .Subtree (lowerStrip body) else .Exact (lowerStrip body))
  | starred {action : RuleAction} {subtree caret : Bool} {body : Str} (star : '*' ∈ body)
      (valid : ValidExpression (lowerStrip body)) :
      Spells (spelled action subtree caret body) action (.Wildcard (lowerStrip body) subtree)

/-- Lowercasing and the trailing dot leave every other character that has no case. -/
theorem mem_lowerStrip {c : Char} {body : Str} (caseless : c.toLower = c) (dotless : c ≠ '.')
    (inside : c ∈ body) : c ∈ lowerStrip body := by
  have kept : c ∈ (stripSuffix body ['.']).getD body := by
    cases stripped : stripSuffix body ['.'] with
    | none => exact inside
    | some rest =>
        rw [← stripSuffix_eq_some.mp stripped] at inside
        rcases List.mem_append.mp inside with front | last
        · exact front
        · exact absurd (List.mem_singleton.mp last) dotless
  rw [lowerStrip, toAsciiLowercase, List.mem_map]
  exact ⟨c, kept, caseless⟩

theorem ValidDomain.chars {name : Str} (valid : ValidDomain name) {c : Char} (inside : c ∈ name) :
    isLowerOrDigit c = true ∨ c ∈ ['-', '_', '.'] := by
  by_cases dot : c = '.'
  · simp [dot]
  · rw [← @List.intercalate_splitOn _ name _ _ '.'] at inside
    have inLabel : ∃ label ∈ name.splitOn '.', c ∈ label := by
      generalize name.splitOn '.' = labels at inside
      induction labels with
      | nil => simp at inside
      | cons label rest ih =>
          cases rest with
          | nil => exact ⟨label, List.mem_cons_self, by simpa using inside⟩
          | cons next rest =>
              rw [List.intercalate_cons_cons] at inside
              simp only [List.mem_append, List.mem_singleton, dot, or_false] at inside
              rcases inside with here | later
              · exact ⟨label, List.mem_cons_self, here⟩
              · obtain ⟨other, member, found⟩ := ih later
                exact ⟨other, List.mem_cons_of_mem _ member, found⟩
    obtain ⟨label, member, found⟩ := inLabel
    rcases (valid.labels label member).chars c found with letter | mark
    · exact .inl letter
    · rcases mark with rfl | rfl <;> simp

/-- A body has none of the marks that go round it. -/
structure Unmarked (body : Str) : Prop where
  nonempty : body ≠ []
  noAt : '@' ∉ body
  noBar : '|' ∉ body
  noCaret : '^' ∉ body

theorem unmarked_of_chars {body : Str} (nonempty : lowerStrip body ≠ [])
    (chars : ∀ c ∈ lowerStrip body, isLowerOrDigit c = true ∨ c ∈ ['-', '_', '.', '*']) :
    Unmarked body where
  nonempty := by
    intro empty
    rw [empty] at nonempty
    exact nonempty rfl
  noAt := fun inside => by
    have odd := chars '@' (mem_lowerStrip (by decide) (by decide) inside)
    revert odd
    decide
  noBar := fun inside => by
    have odd := chars '|' (mem_lowerStrip (by decide) (by decide) inside)
    revert odd
    decide
  noCaret := fun inside => by
    have odd := chars '^' (mem_lowerStrip (by decide) (by decide) inside)
    revert odd
    decide

theorem ValidDomain.unmarked {body : Str} (valid : ValidDomain (lowerStrip body)) :
    Unmarked body ∧ '*' ∉ body := by
  constructor
  · apply unmarked_of_chars
    · intro empty
      have labels := valid.labels
      rw [empty, List.splitOn_nil] at labels
      exact (labels [] List.mem_cons_self).nonempty rfl
    · intro c inside
      refine (valid.chars inside).imp id fun mark => ?_
      simp only [List.mem_cons, List.not_mem_nil, or_false] at mark ⊢
      rcases mark with dash | underscore | dot
      · exact .inl dash
      · exact .inr (.inl underscore)
      · exact .inr (.inr (.inl dot))
  · intro star
    have odd := valid.chars (mem_lowerStrip (c := '*') (by decide) (by decide) star)
    revert odd
    decide

theorem ValidExpression.unmarked {body : Str} (valid : ValidExpression (lowerStrip body)) :
    Unmarked body := by
  obtain ⟨c, inside, _⟩ := valid.alphanumeric
  exact unmarked_of_chars (List.ne_nil_of_mem inside) valid.chars

theorem stripPrefix_append (front rest : Str) : stripPrefix (front ++ rest) front = some rest :=
  stripPrefix_eq_some.mpr rfl

theorem stripSuffix_append (rest back : Str) : stripSuffix (rest ++ back) back = some rest :=
  stripSuffix_eq_some.mpr rfl

theorem stripPrefix_none {c d : Char} {text : Str} (other : text.head? ≠ some c) :
    stripPrefix text [c, d] = none := by
  cases stripped : stripPrefix text [c, d] with
  | none => rfl
  | some rest => exact absurd (by rw [← stripPrefix_eq_some.mp stripped]; rfl) other

theorem head_append {front back : Str} (some_front : front ≠ []) :
    (front ++ back).head? = front.head? := by
  cases front with
  | nil => exact absurd rfl some_front
  | cons c rest => rfl

/-- The parser takes a rule apart the way it was put together. -/
theorem ruleBody_spelled {action : RuleAction} {subtree caret : Bool} {body : Str}
    (unmarked : Unmarked body) : ruleBody (spelled action subtree caret body) =
      { action := action, subtree := subtree, rest := body } := by
  have begins : ∀ c, c ∉ body → (body ++ if caret then ['^'] else []).head? ≠ some c := by
    intro c outside first
    rw [head_append unmarked.nonempty] at first
    exact outside (List.mem_of_mem_head? first)
  have ends : (stripSuffix (body ++ if caret then ['^'] else []) ['^']).getD
      (body ++ if caret then ['^'] else []) = body := by
    cases caret with
    | true =>
        rw [if_pos rfl, stripSuffix_append]
        rfl
    | false =>
        rw [if_neg Bool.false_ne_true, List.append_nil]
        cases stripped : stripSuffix body ['^'] with
        | none => rfl
        | some rest =>
            have inside : '^' ∈ body := by
              rw [← stripSuffix_eq_some.mp stripped]
              simp
            exact absurd inside unmarked.noCaret
  simp only [ruleBody, spelled]
  generalize (body ++ if caret then ['^'] else []) = written at begins ends
  have noBar : stripPrefix written ['|', '|'] = none :=
    stripPrefix_none (begins '|' unmarked.noBar)
  have noAt : stripPrefix written ['@', '@'] = none := stripPrefix_none (begins '@' unmarked.noAt)
  have barred : stripPrefix ('|' :: '|' :: written) ['@', '@'] = none :=
    stripPrefix_none (by simp)
  have below : stripPrefix ('|' :: '|' :: written) ['|', '|'] = some written :=
    stripPrefix_append ['|', '|'] written
  have excepted : ∀ rest, stripPrefix ('@' :: '@' :: rest) ['@', '@'] = some rest :=
    stripPrefix_append ['@', '@']
  cases action <;> cases subtree <;> simp [excepted, below, noBar, noAt, barred, ends]

/-- Whatever the line, what was taken off it and the rest make it up again. -/
theorem spelled_ruleBody (line : Str) : ∃ caret, line =
    spelled (ruleBody line).action (ruleBody line).subtree caret (ruleBody line).rest := by
  have closed : ∀ text : Str, ∃ caret : Bool, text =
      (stripSuffix text ['^']).getD text ++ if caret then ['^'] else [] := by
    intro text
    cases stripped : stripSuffix text ['^'] with
    | none => exact ⟨false, by simp⟩
    | some rest => exact ⟨true, by simpa using (stripSuffix_eq_some.mp stripped).symm⟩
  have below : ∀ text : Str, ∃ caret : Bool, text =
      (if (ruleBody ('@' :: '@' :: text)).subtree then ['|', '|'] else []) ++
        ((ruleBody ('@' :: '@' :: text)).rest ++ if caret then ['^'] else []) := by
    intro text
    have excepted : stripPrefix ('@' :: '@' :: text) ['@', '@'] = some text :=
      stripPrefix_append ['@', '@'] text
    simp only [ruleBody, excepted]
    cases barred : stripPrefix text ['|', '|'] with
    | none => simpa using closed text
    | some rest =>
        obtain ⟨caret, whole⟩ := closed rest
        refine ⟨caret, ?_⟩
        rw [← stripPrefix_eq_some.mp barred, if_pos rfl, ← whole]
  cases excepted : stripPrefix line ['@', '@'] with
  | some rest =>
      obtain ⟨caret, whole⟩ := below rest
      refine ⟨caret, ?_⟩
      have marked : line = '@' :: '@' :: rest := (stripPrefix_eq_some.mp excepted).symm
      have action : (ruleBody line).action = .Except := by simp [ruleBody, excepted]
      rw [spelled, action, if_pos rfl]
      conv => lhs; rw [marked, whole]
      rw [marked]
      rfl
  | none =>
      obtain ⟨caret, whole⟩ := below line
      refine ⟨caret, ?_⟩
      have excepted' : stripPrefix ('@' :: '@' :: line) ['@', '@'] = some line :=
        stripPrefix_append ['@', '@'] line
      have same : (ruleBody line).action = .Block ∧
          (ruleBody line).subtree = (ruleBody ('@' :: '@' :: line)).subtree ∧
          (ruleBody line).rest = (ruleBody ('@' :: '@' :: line)).rest := by
        simp [ruleBody, excepted, excepted']
      rw [spelled, same.1, same.2.1, same.2.2, if_neg (by decide), List.nil_append]
      exact whole

theorem parsePattern_spells {subtree : Bool} {rest : Str} {pattern : Pattern}
    (parsed : parsePattern subtree rest = some pattern) (action : RuleAction) (caret : Bool) :
    Spells (spelled action subtree caret rest) action pattern := by
  simp only [parsePattern] at parsed
  split at parsed
  · next star =>
    obtain ⟨expr, normal, same⟩ := Option.map_eq_some_iff.mp parsed
    obtain ⟨rfl, valid⟩ := normalizeWildcard_iff.mp normal
    subst same
    exact .starred (List.contains_iff_mem.mp star) valid
  · obtain ⟨domain, normal, same⟩ := Option.map_eq_some_iff.mp parsed
    obtain ⟨rfl, valid⟩ := normalizeDomain_iff.mp normal
    subst same
    exact .domain valid

/-- The lines that spell a rule are those whose parts the parser accepts. -/
theorem spells_iff {line : Str} {action : RuleAction} {pattern : Pattern} :
    Spells line action pattern ↔ (ruleBody line).action = action ∧
      ¬ ((ruleBody line).rest.contains '^' || (ruleBody line).rest.head? == some '|') = true ∧
      parsePattern (ruleBody line).subtree (ruleBody line).rest = some pattern := by
  have clean : ∀ {body : Str}, Unmarked body →
      ¬ (body.contains '^' || body.head? == some '|') = true := by
    intro body unmarked marked
    rw [Bool.or_eq_true, List.contains_iff_mem, beq_iff_eq] at marked
    rcases marked with caret | bar
    · exact unmarked.noCaret caret
    · exact unmarked.noBar (List.mem_of_mem_head? bar)
  constructor
  · intro spells
    cases spells with
    | @domain _ subtree caret body valid =>
        obtain ⟨unmarked, starless⟩ := valid.unmarked
        rw [ruleBody_spelled unmarked]
        refine ⟨rfl, clean unmarked, ?_⟩
        have normal := normalizeDomain_iff.mpr ⟨rfl, valid⟩
        simp only [parsePattern]
        rw [if_neg (by simpa using starless), normal]
        rfl
    | @starred _ subtree caret body star valid =>
        have unmarked := valid.unmarked
        rw [ruleBody_spelled unmarked]
        refine ⟨rfl, clean unmarked, ?_⟩
        have normal := normalizeWildcard_iff.mpr ⟨rfl, valid⟩
        simp only [parsePattern]
        rw [if_pos (by simpa using star), normal]
        rfl
  · intro parts
    obtain ⟨same, _, parsed⟩ := parts
    obtain ⟨caret, whole⟩ := spelled_ruleBody line
    rw [same] at whole
    rw [whole]
    exact parsePattern_spells parsed action caret

theorem framed_iff {line : Str} :
    (decide (1 < len line) && line.head? == some '/' && line.getLast? == some '/') = true ↔
      ∃ inner, line = '/' :: inner ++ ['/'] := by
  simp only [Bool.and_eq_true, decide_eq_true_eq, beq_iff_eq]
  constructor
  · intro ends
    obtain ⟨⟨long, start⟩, stop⟩ := ends
    obtain ⟨rest, first⟩ := List.head?_eq_some_iff.mp start
    obtain ⟨front, last⟩ := List.getLast?_eq_some_iff.mp stop
    cases front with
    | nil =>
        rw [last] at long
        exact absurd long (by decide)
    | cons c inner =>
        rw [first, List.cons_append] at last
        obtain ⟨rfl, tail⟩ := List.cons.inj last
        exact ⟨inner, by rw [first, tail, List.cons_append]⟩
  · intro framed
    obtain ⟨inner, rfl⟩ := framed
    refine ⟨⟨?_, rfl⟩, List.getLast?_concat⟩
    have slash : len ['/'] = 1 := rfl
    rw [len_append, len_cons, slash]
    have positive := Char.utf8Size_pos '/'
    omega

theorem parseLine_spec {line : Str} (notHosts : hostsAddress line = none) (lineNo : Nat) :
    (∃ action pattern, Plain line ∧ Spells line action pattern ∧ parseLine line lineNo =
        .rule { action := action, pattern := pattern, text := line, line := lineNo }) ∨
      (¬ (Plain line ∧ ∃ action pattern, Spells line action pattern)) ∧
        ∃ reason, parseLine line lineNo =
          .issue { line := lineNo, text := line, reason := reason } := by
  simp only [parseLine, notHosts]
  by_cases cosmetic : (COSMETIC_MARKERS.any fun marker =>
      decide (marker.toList <:+: line)) = true
  · right
    rw [if_pos cosmetic]
    obtain ⟨marker, member, inside⟩ := List.any_eq_true.mp cosmetic
    exact ⟨fun good => good.1.cosmetic marker member (of_decide_eq_true inside), _, rfl⟩
  · rw [if_neg cosmetic]
    by_cases modifier : line.contains '$' = true
    · right
      rw [if_pos modifier]
      exact ⟨fun good => good.1.modifier (List.contains_iff_mem.mp modifier), _, rfl⟩
    · rw [if_neg modifier]
      by_cases framed : (decide (1 < len line) && line.head? == some '/' &&
          line.getLast? == some '/') = true
      · right
        rw [if_pos framed]
        exact ⟨fun good => good.1.framed (framed_iff.mp framed), _, rfl⟩
      · rw [if_neg framed]
        by_cases marked : ((ruleBody line).rest.contains '^' ||
            (ruleBody line).rest.head? == some '|') = true
        · right
          rw [if_pos marked]
          refine ⟨?_, _, rfl⟩
          intro good
          obtain ⟨_, action, pattern, spells⟩ := good
          exact (spells_iff.mp spells).2.1 marked
        · rw [if_neg marked]
          cases parsed : parsePattern (ruleBody line).subtree (ruleBody line).rest with
          | none =>
              right
              refine ⟨?_, _, rfl⟩
              intro good
              obtain ⟨_, action, pattern, spells⟩ := good
              rw [(spells_iff.mp spells).2.2] at parsed
              cases parsed
          | some pattern =>
              left
              refine ⟨_, pattern, ⟨?_, ?_, ?_⟩, spells_iff.mpr ⟨rfl, marked, parsed⟩, rfl⟩
              · intro marker member inside
                exact cosmetic (List.any_eq_true.mpr ⟨marker, member, decide_eq_true inside⟩)
              · intro dollar
                exact modifier (List.contains_iff_mem.mpr dollar)
              · intro inner
                exact framed (framed_iff.mpr inner)

/-! ### Reading a list -/

/-- The outcomes, one after the other. -/
def together (parts : List ParsedList) : ParsedList :=
  { rules := parts.flatMap ParsedList.rules, issues := parts.flatMap ParsedList.issues }

theorem foldl_append_eq (start : ParsedList) (parts : List ParsedList) :
    parts.foldl ParsedList.append start = start.append (together parts) := by
  induction parts generalizing start with
  | nil => simp [together, ParsedList.append]
  | cons part rest ih =>
      rw [List.foldl_cons, ih]
      simp [together, ParsedList.append]

theorem foldl_append_empty (parts : List ParsedList) :
    parts.foldl ParsedList.append .empty = together parts := by
  rw [foldl_append_eq]
  simp [ParsedList.append, ParsedList.empty]

theorem parseList_rules (text : Str) : (parseList text).rules =
    (lines text).zipIdx.flatMap fun raw => (parseRaw raw.1 raw.2).rules := by
  simp only [parseList]
  rw [foldl_append_empty]
  simp only [together, List.flatMap_map]

theorem mem_parseList {text : Str} {rule : Rule} : rule ∈ (parseList text).rules ↔
    ∃ raw index, (lines text)[index]? = some raw ∧ rule ∈ (parseRaw raw index).rules := by
  rw [parseList_rules, List.mem_flatMap]
  constructor
  · intro ⟨⟨raw, index⟩, numbered, member⟩
    exact ⟨raw, index, List.mem_zipIdx_iff_getElem?.mp numbered, member⟩
  · intro ⟨raw, index, found, member⟩
    exact ⟨(raw, index), List.mem_zipIdx_iff_getElem?.mpr found, member⟩

/-- What a hosts line makes of one of its names. -/
def NameRead (line : Str) (lineNo : Nat) (name : Str) (outcome : ParsedList) : Prop :=
  (ValidDomain (lowerStrip name) ∧ outcome = .rule
      { action := .Block, pattern := .Exact (lowerStrip name), text := line, line := lineNo }) ∨
    (¬ ValidDomain (lowerStrip name) ∧
      outcome = .issue { line := lineNo, text := line, reason := .InvalidDomain })

/-- What the parser makes of a line. -/
structure LineRead (line : Str) (lineNo : Nat) (part : ParsedList) : Prop where
  silent : part = .empty ↔ Silent line
  routable : ∀ ip, hostsAddress line = some ip → ¬ (ip.isUnspecified || ip.isLoopback) = true →
    hostsNames line ≠ [] →
    part = .issue { line := lineNo, text := line, reason := .UnsupportedHostsEntry }
  sink : ∀ ip, hostsAddress line = some ip → (ip.isUnspecified || ip.isLoopback) = true →
    ∃ outcomes, List.Forall₂ (NameRead line lineNo) (hostsNames line) outcomes ∧
      part = together outcomes
  one : ¬ Silent line → hostsAddress line = none →
    (∃ rule, part = .rule rule) ∨
      ∃ reason, part = .issue { line := lineNo, text := line, reason := reason }
  rule : ¬ Silent line → hostsAddress line = none → ∀ rule, part = .rule rule ↔
    Plain line ∧ Spells line rule.action rule.pattern ∧ rule.text = line ∧ rule.line = lineNo

theorem parseHostsName_read (line : Str) (lineNo : Nat) (name : Str) :
    NameRead line lineNo name (parseHostsName line lineNo name) := by
  simp only [parseHostsName]
  cases normal : normalizeDomain name with
  | some domain =>
      obtain ⟨rfl, valid⟩ := normalizeDomain_iff.mp normal
      exact .inl ⟨valid, rfl⟩
  | none =>
      refine .inr ⟨fun valid => ?_, rfl⟩
      rw [normalizeDomain_iff.mpr ⟨rfl, valid⟩] at normal
      cases normal

theorem parseHostsName_ne_empty (line : Str) (lineNo : Nat) (name : Str) :
    (parseHostsName line lineNo name).rules ≠ [] ∨
      (parseHostsName line lineNo name).issues ≠ [] := by
  rcases parseHostsName_read line lineNo name with good | bad
  · rw [good.2]
    exact .inl (by simp [ParsedList.rule])
  · rw [bad.2]
    exact .inr (by simp [ParsedList.issue])

theorem rule_ne_empty (rule : Rule) : ParsedList.rule rule ≠ .empty := by
  simp [ParsedList.rule, ParsedList.empty]

theorem issue_ne_empty (issue : LineIssue) : ParsedList.issue issue ≠ .empty := by
  simp [ParsedList.issue, ParsedList.empty]

theorem parseHostsLine_read {line : Str} {ip : IpAddr} (hosts : hostsAddress line = some ip)
    (lineNo : Nat) : LineRead line lineNo (parseHostsLine line ip lineNo) := by
  have noComment := (not_comment_of_hosts hosts).1
  have local_iff : Silent line ↔ hostsNames line = [] := by
    simp [Silent, noComment, HostsOnlyLocal, hosts]
  have read : parseHostsLine line ip lineNo =
      if (hostsNames line).isEmpty then .empty
      else if !(ip.isUnspecified || ip.isLoopback) then
        .issue { line := lineNo, text := line, reason := .UnsupportedHostsEntry }
      else together ((hostsNames line).map (parseHostsName line lineNo)) := by
    rw [← foldl_append_empty]
    rfl
  have notPlain : hostsAddress line ≠ none := by simp [hosts]
  rw [read]
  refine ⟨?_, ?_, ?_, fun _ none => absurd none notPlain, fun _ none => absurd none notPlain⟩
  · rw [local_iff]
    cases names : hostsNames line with
    | nil => simp
    | cons name rest =>
        simp only [List.isEmpty_cons, Bool.false_eq_true, if_false, reduceCtorEq, iff_false]
        split
        · exact issue_ne_empty _
        · intro nothing
          rcases parseHostsName_ne_empty line lineNo name with some_rule | some_issue
          · have rules := congrArg ParsedList.rules nothing
            simp [together, ParsedList.empty, some_rule] at rules
          · have issues := congrArg ParsedList.issues nothing
            simp [together, ParsedList.empty, some_issue] at issues
  · intro other same routable some_name
    rw [hosts] at same
    cases same
    rw [if_neg (by simpa using some_name), if_pos (by simpa using routable)]
  · intro other same sink
    rw [hosts] at same
    cases same
    refine ⟨(hostsNames line).map (parseHostsName line lineNo), ?_, ?_⟩
    · rw [List.forall₂_map_right_iff, List.forall₂_same]
      intro name _
      exact parseHostsName_read line lineNo name
    · split
      · next none =>
        rw [List.isEmpty_iff.mp none]
        rfl
      · rw [if_neg (by simp [sink])]

theorem parseRaw_read (raw : Str) (index : Nat) :
    LineRead (trim raw) (lineNumber index) (parseRaw raw index) := by
  unfold parseRaw
  generalize trim raw = line
  generalize lineNumber index = lineNo
  dsimp only
  rcases skipOrReportComment_spec line lineNo with
    ⟨comment, skipped⟩ | ⟨noComment, hash, skipped⟩ | ⟨noComment, noHash, skipped⟩
  · have noHosts : ∀ ip, hostsAddress line ≠ some ip :=
      fun ip hosts => (not_comment_of_hosts hosts).1 comment
    rw [skipped]
    have quiet : Silent line := .inl comment
    exact ⟨by simp [quiet], fun ip hosts => absurd hosts (noHosts ip),
      fun ip hosts => absurd hosts (noHosts ip), fun loud => absurd quiet loud,
      fun loud => absurd quiet loud⟩
  · have noHosts : ∀ ip, hostsAddress line ≠ some ip :=
      fun ip hosts => (not_comment_of_hosts hosts).2 hash
    have none : hostsAddress line = none := Option.eq_none_iff_forall_ne_some.mpr noHosts
    have cosmetic : DomainlessCosmetic line := by
      by_contra plain
      exact noComment (.inr (.inr (.inr ⟨hash, plain⟩)))
    have markers : ∀ marker ∈ ["#@#", "#?#", "#$#", "#%#"], marker ∈ COSMETIC_MARKERS := by
      decide
    have notPlain : ¬ Plain line := by
      intro plain
      rcases cosmetic with ⟨marker, member, front⟩ | ⟨c, rest, whole, _⟩
      · exact plain.cosmetic marker (markers marker member) front.isInfix
      · refine plain.cosmetic "##" (by decide) ?_
        rw [whole]
        exact ⟨[], c :: rest, rfl⟩
    rw [skipped]
    refine ⟨?_, fun ip hosts => absurd hosts (noHosts ip),
      fun ip hosts => absurd hosts (noHosts ip), fun _ _ => .inr ⟨_, rfl⟩, fun _ _ rule => ?_⟩
    · simp [issue_ne_empty, Silent, noComment, HostsOnlyLocal, none]
    · simp [notPlain, ParsedList.rule, ParsedList.issue]
  · rw [skipped]
    dsimp only
    cases hosts : hostsAddress line with
    | some ip =>
        have line_eq : parseLine line lineNo = parseHostsLine line ip lineNo := by
          simp only [parseLine, hosts]
        rw [line_eq]
        exact parseHostsLine_read hosts lineNo
    | none =>
        have loud : ¬ Silent line := by simp [Silent, noComment, HostsOnlyLocal, hosts]
        have noHosts : ∀ ip, hostsAddress line ≠ some ip := by simp [hosts]
        rcases parseLine_spec hosts lineNo with
          ⟨action, pattern, plain, spells, outcome⟩ | ⟨notRule, reason, outcome⟩
        · rw [outcome]
          refine ⟨by simp [loud, rule_ne_empty], fun ip found => absurd found (noHosts ip),
            fun ip found => absurd found (noHosts ip), fun _ _ => .inl ⟨_, rfl⟩, fun _ _ rule => ?_⟩
          constructor
          · intro same
            simp only [ParsedList.rule, ParsedList.mk.injEq, List.cons.injEq, and_true] at same
            subst same
            exact ⟨plain, spells, rfl, rfl⟩
          · intro parts
            obtain ⟨_, its, text, number⟩ := parts
            have first := spells_iff.mp spells
            have second := spells_iff.mp its
            have samePattern : pattern = rule.pattern :=
              Option.some.inj (first.2.2.symm.trans second.2.2)
            have sameAction : action = rule.action := first.1.symm.trans second.1
            subst samePattern sameAction text number
            rfl
        · rw [outcome]
          refine ⟨by simp [loud, issue_ne_empty], fun ip found => absurd found (noHosts ip),
            fun ip found => absurd found (noHosts ip), fun _ _ => .inr ⟨_, rfl⟩, fun _ _ rule => ?_⟩
          constructor
          · intro same
            simp [ParsedList.rule, ParsedList.issue] at same
          · intro parts
            exact absurd ⟨parts.1, _, _, parts.2.1⟩ notRule

/-- Every line of every text is read by the grammar, numbered from one, and a parsed list
is what its lines come to, in their order. -/
theorem parseList_grammar (text : Str) :
    ∃ parts, parseList text = together parts ∧ parts.length = (lines text).length ∧
      ∀ (index : Nat) (raw : Str), (lines text)[index]? = some raw →
        ∃ part, parts[index]? = some part ∧
          LineRead (trim raw) (min (index + 1) (2 ^ 32 - 1)) part := by
  refine ⟨(lines text).zipIdx.map fun raw : Str × Nat => parseRaw raw.1 raw.2,
    foldl_append_empty _, by simp, ?_⟩
  intro index raw found
  refine ⟨parseRaw raw index, ?_, parseRaw_read raw index⟩
  simp [found]

end Sumidero.Filter
