import Sumidero.Net.IpAddr

namespace Sumidero.Filter

open Text Net

/-! Blocklist parser: ABP-DNS subset and hosts format, mixed per line.  The sink
that the source feeds rule by rule is the list of rules handed to it, and a
borrowed rule is the rule. -/

inductive RuleAction where
  | Block
  | Except
deriving Repr, DecidableEq

inductive Pattern where
  | Exact (domain : Str)
  | Subtree (domain : Str)
  | Wildcard (expr : Str) (includeSubdomains : Bool)
deriving Repr, DecidableEq

structure Rule where
  action : RuleAction
  pattern : Pattern
  text : Str
  line : Nat
deriving Repr, DecidableEq

inductive IssueReason where
  | CosmeticRule
  | UnsupportedModifier
  | UnsupportedHostsEntry
  | UnsupportedSyntax
  | InvalidDomain
deriving Repr, DecidableEq

structure LineIssue where
  line : Nat
  text : Str
  reason : IssueReason
deriving Repr, DecidableEq

structure ParsedList where
  rules : List Rule
  issues : List LineIssue
deriving Repr, DecidableEq

namespace ParsedList

def empty : ParsedList := { rules := [], issues := [] }

def append (a b : ParsedList) : ParsedList :=
  { rules := a.rules ++ b.rules, issues := a.issues ++ b.issues }

def rule (rule : Rule) : ParsedList := { rules := [rule], issues := [] }

def issue (issue : LineIssue) : ParsedList := { rules := [], issues := [issue] }

end ParsedList

def LOCALHOST_NAMES : List String :=
  ["localhost", "localhost.localdomain", "local", "broadcasthost", "ip6-localhost",
    "ip6-loopback", "ip6-localnet", "ip6-mcastprefix", "ip6-allnodes", "ip6-allrouters",
    "ip6-allhosts"]

def COSMETIC_MARKERS : List String := ["##", "#@#", "#?#", "#$#", "#%#"]

/-- Strip one trailing dot and lowercase. -/
def lowerStrip (text : Str) : Str :=
  toAsciiLowercase ((stripSuffix text ['.']).getD text)

def isAsciiAlphanumeric (c : Char) : Bool := c.isAlphanum

def isLowerOrDigit (c : Char) : Bool := c.isLower || c.isDigit

/-- Lowercase, strip one trailing dot, validate as a DNS name. -/
def normalizeDomain (text : Str) : Option Str :=
  let name := lowerStrip text
  if name.isEmpty || 253 < len name then none
  else if (name.splitOn '.').all (fun label =>
      !label.isEmpty && len label ≤ 63 && label.head? != some '-' && label.getLast? != some '-' &&
        label.all fun c => isLowerOrDigit c || c == '-' || c == '_') then some name
  else none

/-- Like `normalizeDomain`, but the expression may contain `*`.  Its labels without
one obey the label rules, and it holds an alphanumeric character. -/
def normalizeWildcard (text : Str) : Option Str :=
  let expr := lowerStrip text
  if expr.isEmpty || 253 < len expr || !expr.any isAsciiAlphanumeric then none
  else if !expr.all fun c => isLowerOrDigit c || ['-', '_', '.', '*'].contains c then none
  else if (expr.splitOn '.').all (fun segment =>
      segment.contains '*' ||
        (!segment.isEmpty && len segment ≤ 63 && segment.head? != some '-' &&
          segment.getLast? != some '-')) then some expr
  else none

/-- Whether the line is blank or a comment, and what it reports if it is. -/
def skipOrReportComment (line : Str) (lineNo : Nat) : Option ParsedList :=
  if line.isEmpty || line.head? == some '!' then some .empty
  else if line.head? == some '[' && line.getLast? == some ']' then some .empty
  else if line.head? == some '#' then
    let cosmetic :=
      ["#@#", "#?#", "#$#", "#%#"].any (fun marker => marker.toList.isPrefixOf line) ||
        (['#', '#'].isPrefixOf line &&
          (line.drop 2).head?.any fun c => c != '#' && !isWhitespace c)
    if cosmetic then some (.issue { line := lineNo, text := line, reason := .CosmeticRule })
    else some .empty
  else none

def isLocalhost (name : Str) : Bool :=
  let bare := (stripSuffix name ['.']).getD name
  LOCALHOST_NAMES.any fun localName => eqIgnoreAsciiCase localName.toList bare

def parseHostsName (line : Str) (lineNo : Nat) (name : Str) : ParsedList :=
  match normalizeDomain name with
  | some domain =>
      .rule { action := .Block, pattern := .Exact domain, text := line, line := lineNo }
  | none => .issue { line := lineNo, text := line, reason := .InvalidDomain }

def parseHostsLine (line : Str) (ip : IpAddr) (lineNo : Nat) : ParsedList :=
  let effective := trim ((line.splitOn '#').head?.getD line)
  let names := ((splitWhitespace effective).drop 1).filter fun name => !isLocalhost name
  if names.isEmpty then .empty
  else if !(ip.isUnspecified || ip.isLoopback) then
    .issue { line := lineNo, text := line, reason := .UnsupportedHostsEntry }
  else (names.map (parseHostsName line lineNo)).foldl ParsedList.append .empty

/-- A line whose first token, up to a `%zone`, is an IP address. -/
def hostsAddress (line : Str) : Option IpAddr :=
  match (splitWhitespace line).head? with
  | some first => parseIpAddr ((first.splitOn '%').head?.getD first)
  | none => none

/-- What is left of a rule once `@@`, `||` and one final `^` are off. -/
structure RuleBody where
  action : RuleAction
  subtree : Bool
  rest : Str

def ruleBody (line : Str) : RuleBody :=
  let (action, rest) := match stripPrefix line ['@', '@'] with
    | some rest => (RuleAction.Except, rest)
    | none => (RuleAction.Block, line)
  let (subtree, rest) := match stripPrefix rest ['|', '|'] with
    | some rest => (true, rest)
    | none => (false, rest)
  { action := action, subtree := subtree, rest := (stripSuffix rest ['^']).getD rest }

def parsePattern (subtree : Bool) (rest : Str) : Option Pattern :=
  if rest.contains '*' then
    (normalizeWildcard rest).map fun expr => .Wildcard expr subtree
  else
    (normalizeDomain rest).map fun domain => if subtree then .Subtree domain else .Exact domain

def parseLine (line : Str) (lineNo : Nat) : ParsedList :=
  let issue := fun reason => ParsedList.issue { line := lineNo, text := line, reason := reason }
  match hostsAddress line with
  | some ip => parseHostsLine line ip lineNo
  | none =>
      if COSMETIC_MARKERS.any fun marker => decide (marker.toList <:+: line) then
        issue .CosmeticRule
      else if line.contains '$' then issue .UnsupportedModifier
      else if 1 < len line && line.head? == some '/' && line.getLast? == some '/' then
        issue .UnsupportedSyntax
      else
        let body := ruleBody line
        if body.rest.contains '^' || body.rest.head? == some '|' then issue .UnsupportedSyntax
        else
          match parsePattern body.subtree body.rest with
          | none => issue .InvalidDomain
          | some pattern =>
              .rule { action := body.action, pattern := pattern, text := line, line := lineNo }

/-- `u32::try_from(idx).unwrap_or(u32::MAX).saturating_add(1)`. -/
def lineNumber (index : Nat) : Nat := min (index + 1) (2 ^ 32 - 1)

def parseRaw (raw : Str) (index : Nat) : ParsedList :=
  let line := trim raw
  match skipOrReportComment line (lineNumber index) with
  | some skipped => skipped
  | none => parseLine line (lineNumber index)

def parseList (text : Str) : ParsedList :=
  (((lines text).zipIdx.map fun raw => parseRaw raw.1 raw.2)).foldl ParsedList.append .empty

/-! ### What the parser hands out -/

/-- A domain name as the parser normalizes it. -/
structure IsDomain (name : Str) : Prop where
  fits : len name ≤ 253
  labels : ∀ label ∈ name.splitOn '.', label ≠ []

/-- Rules carry normalized domains. -/
def Pattern.Normal : Pattern → Prop
  | .Exact domain => IsDomain domain
  | .Subtree domain => IsDomain domain
  | .Wildcard _ _ => True

theorem normalizeDomain_isDomain {text name : Str} (normal : normalizeDomain text = some name) :
    IsDomain name := by
  unfold normalizeDomain at normal
  dsimp only at normal
  split at normal
  · cases normal
  · next shape =>
    split at normal
    · next labels =>
      cases normal
      simp only [Bool.or_eq_true, decide_eq_true_eq, not_or] at shape
      refine ⟨by omega, fun label member empty => ?_⟩
      have valid := List.all_eq_true.mp labels label member
      simp [empty] at valid
    · cases normal

theorem parsePattern_normal {subtree : Bool} {rest : Str} {pattern : Pattern}
    (parsed : parsePattern subtree rest = some pattern) : pattern.Normal := by
  simp only [parsePattern] at parsed
  split at parsed
  · obtain ⟨expr, _, same⟩ := Option.map_eq_some_iff.mp parsed
    subst same
    exact True.intro
  · obtain ⟨domain, normal, same⟩ := Option.map_eq_some_iff.mp parsed
    subst same
    split <;> exact normalizeDomain_isDomain normal

/-- Every rule of the list satisfies `p`. -/
def ParsedList.All (p : Rule → Prop) (parsed : ParsedList) : Prop := ∀ rule ∈ parsed.rules, p rule

section All

variable {p : Rule → Prop}

theorem ParsedList.all_empty : ParsedList.empty.All p := fun _ member => by cases member

theorem ParsedList.all_issue (issue : LineIssue) : (ParsedList.issue issue).All p :=
  fun _ member => by cases member

theorem ParsedList.all_rule {rule : Rule} (holds : p rule) : (ParsedList.rule rule).All p := by
  intro other member
  rw [List.mem_singleton.mp member]
  exact holds

theorem ParsedList.all_foldl {parts : List ParsedList} (start : ParsedList)
    (first : start.All p) (each : ∀ part ∈ parts, part.All p) :
    (parts.foldl ParsedList.append start).All p := by
  induction parts generalizing start with
  | nil => exact first
  | cons part rest ih =>
      refine ih _ ?_ fun other member => each other (List.mem_cons_of_mem _ member)
      intro rule member
      rcases List.mem_append.mp member with earlier | here
      · exact first rule earlier
      · exact each part List.mem_cons_self rule here

/-- The names of a hosts line that are not this machine's own. -/
def hostsNames (line : Str) : List Str :=
  ((splitWhitespace (trim ((line.splitOn '#').head?.getD line))).drop 1).filter
    fun name => !isLocalhost name

theorem parseHostsLine_all {line : Str} {lineNo : Nat} (ip : IpAddr)
    (each : ∀ name ∈ hostsNames line, ∀ domain, normalizeDomain name = some domain →
      p { action := .Block, pattern := .Exact domain, text := line, line := lineNo }) :
    (parseHostsLine line ip lineNo).All p := by
  unfold parseHostsLine
  dsimp only
  split
  · exact ParsedList.all_empty
  · split
    · exact ParsedList.all_issue _
    · refine ParsedList.all_foldl _ ParsedList.all_empty ?_
      intro part member
      obtain ⟨name, inside, same⟩ := List.mem_map.mp member
      subst same
      simp only [parseHostsName]
      split
      · next normal => exact ParsedList.all_rule (each name inside _ normal)
      · exact ParsedList.all_issue _

/-- A line is a hosts line, or hands out at most the rule its body spells. -/
theorem parseLine_all {line : Str} {lineNo : Nat}
    (hosts : ∀ name ∈ hostsNames line, ∀ domain, normalizeDomain name = some domain →
      p { action := .Block, pattern := .Exact domain, text := line, line := lineNo })
    (plain : ∀ pattern, parsePattern (ruleBody line).subtree (ruleBody line).rest = some pattern →
      p { action := (ruleBody line).action, pattern := pattern, text := line, line := lineNo }) :
    (parseLine line lineNo).All p := by
  unfold parseLine
  dsimp only
  split
  · exact parseHostsLine_all _ hosts
  · repeat' split
    all_goals first
      | exact ParsedList.all_issue _
      | exact ParsedList.all_rule (plain _ (by assumption))

/-- What holds of the rules of a line holds of the raw line's. -/
theorem parseRaw_own {raw : Str} {index : Nat}
    (own : (parseLine (trim raw) (lineNumber index)).All p) : (parseRaw raw index).All p := by
  unfold parseRaw
  dsimp only
  split
  · next skipped same =>
    unfold skipOrReportComment at same
    dsimp only at same
    repeat' split at same
    all_goals first
      | (cases same; exact fun _ member => by cases member)
      | cases same
  · exact own

theorem parseRaw_all (each : ∀ line lineNo, (parseLine line lineNo).All p) (raw : Str)
    (index : Nat) : (parseRaw raw index).All p := parseRaw_own (each _ _)

theorem parseList_all (each : ∀ line lineNo, (parseLine line lineNo).All p) (text : Str) :
    (parseList text).All p := by
  refine ParsedList.all_foldl _ ParsedList.all_empty ?_
  intro part member
  obtain ⟨raw, _, same⟩ := List.mem_map.mp member
  subst same
  exact parseRaw_all each _ _

end All

theorem parseList_normal (text : Str) :
    (parseList text).All fun rule => rule.pattern.Normal := by
  apply parseList_all
  intro line lineNo
  apply parseLine_all
  · intro name _ domain normal
    exact normalizeDomain_isDomain normal
  · intro pattern parsed
    exact parsePattern_normal parsed

end Sumidero.Filter
