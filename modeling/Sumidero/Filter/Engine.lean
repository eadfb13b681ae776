import Sumidero.Filter.KeyIndex
import Sumidero.Filter.Parse
import Sumidero.Filter.Wildcard

namespace Sumidero.Filter

open Text

/-! The compact compiled matcher: a rule store, two key indexes and the wildcards.
A failed conversion, slice or assertion is `none`. -/

def FLAG_EXCEPT : Nat := 1
def FORM_SHIFT : Nat := 1
def FORM_VERBATIM : Nat := 0
/-- `||domain^` (`@@` prefix when excepted); key = reversed domain. -/
def FORM_SUBTREE : Nat := 1
/-- `domain` (`@@` prefix when excepted); key = domain. -/
def FORM_EXACT : Nat := 2
/-- `domain^` (`@@` prefix when excepted); key = domain. -/
def FORM_EXACT_CARET : Nat := 3
/-- `0.0.0.0 domain`; key = domain. -/
def FORM_HOSTS_ZERO : Nat := 4

/-- Per-rule metadata, parallel arrays indexed by rule id. -/
structure Store where
  lists : List Nat
  lines : List Nat
  flags : List Nat
  spanOff : List Nat
  spanLen : List Nat
  verbatim : Str
deriving Repr, DecidableEq

namespace Store

def empty : Store :=
  { lists := [], lines := [], flags := [], spanOff := [], spanLen := [], verbatim := [] }

def packFlags (except : Bool) (form : Nat) : Nat :=
  (if except then FLAG_EXCEPT else 0) ||| (form <<< FORM_SHIFT)

def push (store : Store) (list line : Nat) (except : Bool) (form : Nat) :
    Option (Store × Nat) := do
  let id ← toU32 store.lines.length
  return ({ store with
    lists := store.lists ++ [list]
    lines := store.lines ++ [line]
    flags := store.flags ++ [packFlags except form]
    spanOff := store.spanOff ++ [0]
    spanLen := store.spanLen ++ [0] }, id)

def setSpanOff (store : Store) (id off : Nat) : Option Store :=
  if id < store.spanOff.length then some { store with spanOff := store.spanOff.set id off }
  else none

def setSpanLen (store : Store) (id len : Nat) : Option Store :=
  if id < store.spanLen.length then some { store with spanLen := store.spanLen.set id len }
  else none

def setSpan (store : Store) (id off len : Nat) : Option Store := do
  let store ← store.setSpanOff id off
  let len ← toU8 len
  store.setSpanLen id len

/-- The longest prefix of at most 255 bytes that ends on a character boundary. -/
def shownLen (text : Str) : Nat :=
  ((List.range (min (len text) 255 + 1)).reverse.find? (isCharBoundary text)).getD 0

def pushVerbatim (store : Store) (id : Nat) (text : Str) : Option Store := do
  let off ← toU32 (len store.verbatim)
  setSpan { store with verbatim := store.verbatim ++ text } id off (shownLen text)

def isExcept (store : Store) (id : Nat) : Option Bool :=
  store.flags[id]?.map fun flags => flags &&& FLAG_EXCEPT != 0

def form (store : Store) (id : Nat) : Option Nat :=
  store.flags[id]?.map fun flags => flags >>> FORM_SHIFT

end Store

/-- `.` -/
def DOT : UInt8 := 46

/-- Write the labels in reverse order into a buffer of 256 bytes. -/
def reverseLabelsInto (domain : List UInt8) : Option (List UInt8) :=
  (domain.splitOn DOT).reverse.foldlM (fun out label =>
    let out := if out.isEmpty then out else out ++ [DOT]
    if out.length + label.length ≤ 256 then some (out ++ label) else none) []

structure WildcardEntry where
  expr : Str
  includeSubdomains : Bool
  rule : Nat
deriving Repr, DecidableEq

structure Engine where
  store : Store
  subtree : KeyIndex
  exact : KeyIndex
  wildcards : List WildcardEntry
  /-- Anchor suffix → wildcard indexes. -/
  wildcardBuckets : Str → Option (List Nat)
  /-- Wildcards with no anchor: checked for every name. -/
  wildcardUnanchored : List Nat
  listCount : Nat

structure MatchedRule where
  action : RuleAction
  text : Str
  line : Nat
deriving Repr, DecidableEq

inductive Verdict where
  | NoMatch
  | Block (list : Nat) (rule : MatchedRule)
  | Except (list : Nat) (rule : MatchedRule)
deriving Repr, DecidableEq

/-- `||domain^` itself. -/
def subtreeForm (body domain : Str) : Nat :=
  if ((stripPrefix body ['|', '|']).bind fun rest => stripSuffix rest ['^']) = some domain then
    FORM_SUBTREE
  else FORM_VERBATIM

/-- Whether the body is `0.0.0.0 domain`. -/
def isHostsZero (body domain : Str) : Option Bool :=
  match stripPrefix body "0.0.0.0".toList with
  | none => some false
  | some rest =>
      if len rest = len domain + 1 then do
        let (_, tail) ← splitAtByte rest 1
        if tail = domain then
          let separator ← (asBytes body)[7]?
          return separator == 32
        else return false
      else some false

def exactForm (except : Bool) (body domain : Str) : Option Nat := do
  if body = domain then return FORM_EXACT
  else if stripSuffix body ['^'] = some domain then return FORM_EXACT_CARET
  else if except then return FORM_VERBATIM
  else
    let hosts ← isHostsZero body domain
    return if hosts then FORM_HOSTS_ZERO else FORM_VERBATIM

def Rule.isExcept (rule : Rule) : Bool := rule.action = .Except

/-- The text without the `@@` of an exception. -/
def Rule.body (rule : Rule) : Str :=
  if rule.isExcept then (stripPrefix rule.text ['@', '@']).getD rule.text else rule.text

namespace Engine

def empty : Engine :=
  { store := Store.empty, subtree := KeyIndex.empty, exact := KeyIndex.empty, wildcards := [],
    wildcardBuckets := fun _ => none, wildcardUnanchored := [], listCount := 0 }

def beginList (engine : Engine) : Option Engine := do
  let _ ← toU16 engine.listCount
  return { engine with listCount := engine.listCount + 1 }

def addSubtree (engine : Engine) (list : Nat) (rule : Rule) (domain : Str) : Option Engine := do
  let form := subtreeForm rule.body domain
  let (store, id) ← engine.store.push list rule.line rule.isExcept form
  let key ← reverseLabelsInto (asBytes domain)
  let subtree ← engine.subtree.insert key id
  let store ← (if form = FORM_SUBTREE then some store else store.pushVerbatim id rule.text)
  return { engine with store := store, subtree := subtree }

def addExact (engine : Engine) (list : Nat) (rule : Rule) (domain : Str) : Option Engine := do
  let form ← exactForm rule.isExcept rule.body domain
  let (store, id) ← engine.store.push list rule.line rule.isExcept form
  let exact ← engine.exact.insert (asBytes domain) id
  let store ← (if form = FORM_VERBATIM then store.pushVerbatim id rule.text else some store)
  return { engine with store := store, exact := exact }

def addWildcard (engine : Engine) (list : Nat) (rule : Rule) (expr : Str)
    (includeSubdomains : Bool) : Option Engine := do
  let (store, id) ← engine.store.push list rule.line rule.isExcept FORM_VERBATIM
  let store ← store.pushVerbatim id rule.text
  let idx ← toU32 engine.wildcards.length
  let wildcards := engine.wildcards ++
    [{ expr := expr, includeSubdomains := includeSubdomains, rule := id }]
  match wildcardAnchor expr with
  | some anchor =>
      let bucket := (engine.wildcardBuckets anchor).getD []
      return { engine with
        store := store
        wildcards := wildcards
        wildcardBuckets := Function.update engine.wildcardBuckets anchor (some (bucket ++ [idx])) }
  | none =>
      return { engine with
        store := store
        wildcards := wildcards
        wildcardUnanchored := engine.wildcardUnanchored ++ [idx] }

/-- Compact one rule into the current list. -/
def addRule (engine : Engine) (rule : Rule) : Option Engine := do
  let list ← toU16 (engine.listCount - 1)
  match rule.pattern with
  | .Subtree domain => engine.addSubtree list rule domain
  | .Exact domain => engine.addExact list rule domain
  | .Wildcard expr includeSubdomains => engine.addWildcard list rule expr includeSubdomains

/-- A canonical rule's text span follows its key. -/
def relocate (isForm : Nat → Bool) (store : Store) (call : Nat × Nat) : Option Store := do
  let form ← store.form call.1
  if isForm form then store.setSpanOff call.1 call.2 else some store

def measure (isForm : Nat → Bool) (store : Store) (entry : Nat × Nat) : Option Store := do
  let form ← store.form entry.1
  if isForm form then store.setSpanLen entry.1 entry.2 else some store

def isSubtreeForm (form : Nat) : Bool := form == FORM_SUBTREE

def isExactForm (form : Nat) : Bool :=
  form == FORM_EXACT || form == FORM_EXACT_CARET || form == FORM_HOSTS_ZERO

def finish (sort : UnstableSort) (engine : Engine) : Option Engine := do
  let subtree ← engine.subtree.finish sort
  let store ← subtree.relocations.foldlM (relocate isSubtreeForm) engine.store
  let exact ← engine.exact.finish sort
  let store ← exact.relocations.foldlM (relocate isExactForm) store
  let store ← (subtree.rules.zip subtree.lens).foldlM (measure isSubtreeForm) store
  let store ← (exact.rules.zip exact.lens).foldlM (measure isExactForm) store
  return { engine with store := store, subtree := subtree, exact := exact }

/-! ### Verdicts -/

/-- A search that an exception ends with its rule id. -/
abbrev Search := ExceptT Nat Option

/-- A step that may only fail. -/
def attempt {α : Type} (step : Option α) : Search α := ExceptT.lift step

/-- Keep the first block rule; an exception ends the search. -/
def consider (store : Store) (block : Option Nat) (id : Nat) : Search (Option Nat) := do
  if ← attempt (store.isExcept id) then throw id
  else return block.or (some id)

def check (engine : Engine) (name : Str) (block : Option Nat) (idx : Nat) :
    Search (Option Nat) := do
  let w ← attempt engine.wildcards[idx]?
  if wildcardMatches w.expr name w.includeSubdomains then consider engine.store block w.rule
  else return block

/-- The ends of the reversed name's prefixes at label boundaries. -/
def boundaries (rev : List UInt8) : List Nat :=
  rev.zipIdx.filterMap (fun byte => if byte.1 = DOT then some byte.2 else none) ++ [rev.length]

def probe (engine : Engine) (index : KeyIndex) (block : Option Nat) (key : List UInt8) :
    Search (Option Nat) := do
  let ids ← attempt (index.equalRange key)
  ids.foldlM (consider engine.store) block

def searchBucket (engine : Engine) (name : Str) (block : Option Nat) (suffix : Str) :
    Search (Option Nat) :=
  match engine.wildcardBuckets suffix with
  | some bucket => bucket.foldlM (engine.check name) block
  | none => return block

def searchWildcards (engine : Engine) (name : Str) (block : Option Nat) :
    Search (Option Nat) := do
  if engine.wildcards.isEmpty then return block
  else
    let block ← (name :: labelSuffixes name).foldlM (engine.searchBucket name) block
    engine.wildcardUnanchored.foldlM (engine.check name) block

def search (engine : Engine) (name : Str) : Search (Option Nat) := do
  let block ← engine.probe engine.exact none (asBytes name)
  let rev ← attempt (reverseLabelsInto (asBytes name))
  let block ← (boundaries rev).foldlM
    (fun block stop => engine.probe engine.subtree block (rev.take stop)) block
  engine.searchWildcards name block

def exceptMark (except : Bool) : Str := if except then ['@', '@'] else []

def exactText (except : Bool) (form : Nat) (domain : Str) : Str :=
  if form = FORM_EXACT then exceptMark except ++ domain
  else if form = FORM_EXACT_CARET then exceptMark except ++ domain ++ ['^']
  else "0.0.0.0 ".toList ++ domain

/-- The text of a rule, rebuilt from its key where it was not stored. -/
def ruleText (engine : Engine) (except : Bool) (form off len : Nat) : Option Str :=
  if form = FORM_SUBTREE then do
    let key ← sliceBytes engine.subtree.arena off len
    let bytes ← reverseLabelsInto key
    let domain ← fromUtf8 bytes
    return exceptMark except ++ ['|', '|'] ++ domain ++ ['^']
  else if isExactForm form then do
    let key ← sliceBytes engine.exact.arena off len
    let domain ← fromUtf8 key
    return exactText except form domain
  else slice engine.store.verbatim off (off + len)

def matched (engine : Engine) (id : Nat) : Option (Nat × MatchedRule) := do
  let except ← engine.store.isExcept id
  let off ← engine.store.spanOff[id]?
  let len ← engine.store.spanLen[id]?
  let form ← engine.store.form id
  let text ← engine.ruleText except form off len
  let list ← engine.store.lists[id]?
  let line ← engine.store.lines[id]?
  return (list, {
    action := if except then .Except else .Block
    text := text
    line := line })

/-- Lowercased, without one trailing dot. -/
def queryName (name : Str) : Str :=
  let lowered := toAsciiLowercase name
  (stripSuffix lowered ['.']).getD lowered

/-- Evaluate one query name (any case, optional trailing dot). -/
def verdict (engine : Engine) (query : Str) : Option Verdict :=
  let name := queryName query
  if name.isEmpty || 253 < len name then some .NoMatch
  else do
    match ← (engine.search name).run with
    | .error id =>
        let (list, rule) ← engine.matched id
        return .Except list rule
    | .ok (some id) =>
        let (list, rule) ← engine.matched id
        return .Block list rule
    | .ok none => return .NoMatch

end Engine

namespace EngineBuilder

/-- Parse a whole list into the engine; what it reports is `parseList`'s. -/
def addListText (engine : Engine) (text : Str) : Option Engine := do
  let engine ← engine.beginList
  (parseList text).rules.foldlM Engine.addRule engine

/-- Add every list, then compile. -/
def load (sort : UnstableSort) (texts : List Str) : Option Engine := do
  let engine ← texts.foldlM addListText Engine.empty
  engine.finish sort

end EngineBuilder

end Sumidero.Filter
