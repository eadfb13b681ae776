import Sumidero.Filter.Compiled

namespace Sumidero.Filter

open Text Data Engine

/-! What a compiled engine finds for a name, and what it reports of a rule. -/

/-- Whether a rule with this pattern covers the name. -/
def Pattern.covers (pattern : Pattern) (name : Str) : Bool :=
  match pattern with
  | .Exact domain => name = domain
  | .Subtree domain => name = domain || decide (('.' :: domain) <:+ name)
  | .Wildcard expr includeSubdomains => wildcardMatches expr name includeSubdomains

/-! ### Scanning candidates -/

section Scan

variable {store : Store} {excepted : Nat → Bool} {id : Nat}

@[simp] theorem attempt_some {α β : Type} (value : α) (next : α → Search β) :
    (attempt (some value) >>= next) = next value := rfl

theorem consider_eq (known : store.isExcept id = some (excepted id)) (block : Option Nat) :
    consider store block id =
      if excepted id then throw id else pure (block.or (some id)) := by
  simp only [consider]
  rw [known, attempt_some]

/-- Scanning stops at the first exception and otherwise keeps the first rule. -/
theorem scan_eq {ids : List Nat} (known : ∀ id ∈ ids, store.isExcept id = some (excepted id))
    (block : Option Nat) :
    ids.foldlM (consider store) block =
      match ids.find? excepted with
      | some id => throw id
      | none => pure (block.or ids.head?) := by
  induction ids generalizing block with
  | nil => simp
  | cons id rest ih =>
      rw [List.foldlM_cons, consider_eq (known id List.mem_cons_self)]
      by_cases exception : excepted id = true
      · rw [if_pos exception, List.find?_cons_of_pos exception]
        rfl
      · rw [if_neg exception, List.find?_cons_of_neg exception, pure_bind,
          ih fun other member => known other (List.mem_cons_of_mem _ member)]
        cases rest.find? excepted with
        | some found => rfl
        | none => cases block <;> rfl

/-- A loop whose every round scans a list scans those lists in a row. -/
theorem foldlM_scans {α : Type} {items : List α} {round : Option Nat → α → Search (Option Nat)}
    {found : α → List Nat}
    (scans : ∀ item ∈ items, ∀ block, round block item = (found item).foldlM (consider store) block)
    (block : Option Nat) :
    items.foldlM round block = (items.flatMap found).foldlM (consider store) block := by
  induction items generalizing block with
  | nil => rfl
  | cons item rest ih =>
      rw [List.foldlM_cons, List.flatMap_cons, List.foldlM_append,
        scans item List.mem_cons_self]
      congr 1
      funext next
      exact ih (fun other member => scans other (List.mem_cons_of_mem _ member)) next

end Scan

/-! ### Label boundaries -/

theorem mem_boundaries {rev key : List UInt8} :
    (∃ stop ∈ boundaries rev, rev.take stop = key) ↔ rev = key ∨ (key ++ [DOT]) <+: rev := by
  simp only [boundaries]
  constructor
  · intro given
    obtain ⟨stop, member, rfl⟩ := given
    rcases List.mem_append.mp member with dotted | whole
    · obtain ⟨⟨byte, position⟩, present, found⟩ := List.mem_filterMap.mp dotted
      split at found
      · next dot =>
        obtain rfl := Option.some.inj found
        have at_position := List.mem_zipIdx_iff_getElem?.mp present
        dsimp only at dot at_position
        refine .inr ?_
        rw [dot] at at_position
        have front : rev.take (position + 1) = rev.take position ++ [DOT] := by
          rw [List.take_add_one, at_position]
          rfl
        rw [← front]
        exact List.take_prefix _ _
      · cases found
    · rw [List.mem_singleton.mp whole, List.take_length]
      exact .inl rfl
  · intro given
    rcases given with rfl | ⟨rest, rfl⟩
    · exact ⟨rev.length, List.mem_append.mpr (.inr List.mem_cons_self), List.take_length⟩
    · refine ⟨key.length, List.mem_append.mpr (.inl ?_), by simp⟩
      refine List.mem_filterMap.mpr ⟨(DOT, key.length), ?_, by simp⟩
      rw [List.mem_zipIdx_iff_getElem?]
      simp

/-! ### Candidates -/

section Candidates

variable {engine : Engine} {added : List Added} {name : Str}

theorem probe_eq {index : KeyIndex} {key : List UInt8} {ids : List Nat}
    (found : index.equalRange key = some ids) (block : Option Nat) :
    engine.probe index block key = ids.foldlM (consider engine.store) block := by
  simp only [Engine.probe]
  rw [found, attempt_some]

theorem exact_candidates (compiled : Compiled engine added) :
    ∃ ids : List Nat, engine.exact.equalRange (asBytes name) = some ids ∧
      ∀ id, id ∈ ids ↔ ∃ entry, added[id]? = some entry ∧ entry.rule.pattern = .Exact name := by
  obtain ⟨ids, found, members⟩ := compiled.exact.equalRange (asBytes name)
  refine ⟨ids, found, fun id => ?_⟩
  rw [members, exactEntries, mem_collected]
  constructor
  · intro given
    obtain ⟨position, entry, present, collects⟩ := given
    obtain ⟨key, keyed, same⟩ := Option.map_eq_some_iff.mp collects
    obtain ⟨rfl, rfl⟩ := Prod.mk.inj same
    refine ⟨entry, present, ?_⟩
    simp only [Rule.exactKey] at keyed
    split at keyed
    · next domain pattern =>
      rw [pattern, asBytes_injective (Option.some.inj keyed)]
    · cases keyed
  · intro given
    obtain ⟨entry, present, pattern⟩ := given
    exact ⟨id, entry, present, by rw [Rule.exactKey, pattern]; rfl⟩

theorem subtree_candidates (compiled : Compiled engine added) :
    ∃ found : Nat → List Nat,
      (∀ stop, engine.subtree.equalRange ((reverseFields DOT (asBytes name)).take stop) =
        some (found stop)) ∧
      ∀ id, id ∈ (boundaries (reverseFields DOT (asBytes name))).flatMap found ↔
        ∃ entry domain, added[id]? = some entry ∧ entry.rule.pattern = .Subtree domain ∧
          (name = domain ∨ ('.' :: domain) <:+ name) := by
  choose found answers members using fun stop =>
    compiled.subtree.equalRange ((reverseFields DOT (asBytes name)).take stop)
  refine ⟨found, answers, fun id => ?_⟩
  have suffix : ∀ domain, (∃ stop ∈ boundaries (reverseFields DOT (asBytes name)),
      (reverseFields DOT (asBytes name)).take stop = reverseFields DOT (asBytes domain)) ↔
        (name = domain ∨ ('.' :: domain) <:+ name) := by
    intro domain
    rw [mem_boundaries, reverseFields_prefix_iff, show DOT = 46 from rfl, dot_suffix_asBytes,
      asBytes_injective.eq_iff]
  rw [List.mem_flatMap]
  constructor
  · intro given
    obtain ⟨stop, boundary, member⟩ := given
    rw [members, subtreeEntries, mem_collected] at member
    obtain ⟨position, entry, present, collects⟩ := member
    obtain ⟨key, keyed, same⟩ := Option.map_eq_some_iff.mp collects
    obtain ⟨rfl, rfl⟩ := Prod.mk.inj same
    simp only [Rule.subtreeKey] at keyed
    split at keyed
    · next domain pattern =>
      exact ⟨entry, domain, present, pattern,
        (suffix domain).mp ⟨stop, boundary, (Option.some.inj keyed).symm⟩⟩
    · cases keyed
  · intro given
    obtain ⟨entry, domain, present, pattern, covered⟩ := given
    obtain ⟨stop, boundary, key⟩ := (suffix domain).mpr covered
    refine ⟨stop, boundary, (members stop id).mpr ?_⟩
    rw [key, subtreeEntries, mem_collected]
    exact ⟨id, entry, present, by rw [Rule.subtreeKey, pattern]; rfl⟩

/-- The rule of a wildcard that matches the name. -/
def checked (engine : Engine) (name : Str) (idx : Nat) : List Nat :=
  match engine.wildcards[idx]? with
  | some w => if wildcardMatches w.expr name w.includeSubdomains then [w.rule] else []
  | none => []

theorem check_eq {idx : Nat} (bound : idx < engine.wildcards.length) (block : Option Nat) :
    engine.check name block idx = (checked engine name idx).foldlM (consider engine.store) block := by
  simp only [Engine.check, checked]
  rw [List.getElem?_eq_getElem bound, attempt_some]
  dsimp only
  split
  · simp
  · rfl

theorem wildcard_of_checked (compiled : Compiled engine added) {id idx : Nat}
    (hit : id ∈ checked engine name idx) :
    ∃ (entry : Added) (expr : Str) (includeSubdomains : Bool), added[id]? = some entry ∧
      entry.rule.pattern = .Wildcard expr includeSubdomains ∧
      wildcardMatches expr name includeSubdomains = true := by
  simp only [checked] at hit
  split at hit
  · next w found =>
    split at hit
    · next matched =>
      obtain rfl := List.mem_singleton.mp hit
      have member := List.mem_of_getElem? found
      rw [compiled.wildcards, mem_collected] at member
      obtain ⟨position, entry, present, collects⟩ := member
      simp only [Rule.wildcard] at collects
      split at collects
      · next expr includeSubdomains pattern =>
        cases collects
        exact ⟨entry, expr, includeSubdomains, present, pattern, matched⟩
      · cases collects
    · cases hit
  · cases hit

/-- The rules of one bucket's wildcards that match the name. -/
def bucketHits (engine : Engine) (name suffix : Str) : List Nat :=
  ((engine.wildcardBuckets suffix).getD []).flatMap (checked engine name)

/-- The same of every bucket a suffix of the name leads to, and of the wildcards with no anchor. -/
def wildcardHits (engine : Engine) (name : Str) : List Nat :=
  (name :: labelSuffixes name).flatMap (bucketHits engine name) ++
    engine.wildcardUnanchored.flatMap (checked engine name)

theorem searchBucket_eq (compiled : Compiled engine added) (suffix : Str) (block : Option Nat) :
    engine.searchBucket name block suffix =
      (bucketHits engine name suffix).foldlM (consider engine.store) block := by
  simp only [Engine.searchBucket, bucketHits]
  cases held : engine.wildcardBuckets suffix with
  | none => rfl
  | some bucket =>
      exact foldlM_scans (fun idx member =>
        check_eq (compiled.bucketed.bucketBound suffix bucket held idx member)) block

theorem wildcardHits_nil (none : engine.wildcards = []) : wildcardHits engine name = [] := by
  have idle : ∀ items : List Nat, items.flatMap (checked engine name) = [] := by
    intro items
    apply List.flatMap_eq_nil_iff.mpr
    intro idx _
    rw [checked, none, List.getElem?_nil]
  have buckets : (name :: labelSuffixes name).flatMap (bucketHits engine name) = [] :=
    List.flatMap_eq_nil_iff.mpr fun suffix _ => idle _
  rw [wildcardHits, buckets, idle, List.nil_append]

theorem searchWildcards_eq (compiled : Compiled engine added) (block : Option Nat) :
    engine.searchWildcards name block =
      (wildcardHits engine name).foldlM (consider engine.store) block := by
  simp only [Engine.searchWildcards]
  cases none : engine.wildcards with
  | nil =>
      rw [wildcardHits_nil none]
      rfl
  | cons w rest =>
      dsimp only [List.isEmpty_cons]
      rw [if_neg Bool.false_ne_true, wildcardHits, List.foldlM_append,
        foldlM_scans fun suffix _ block => searchBucket_eq compiled suffix block]
      congr 1
      funext block
      exact foldlM_scans (fun idx member =>
        check_eq (compiled.bucketed.unanchoredBound idx member)) block

theorem checked_of_matches {idx id : Nat} {expr : Str} {includeSubdomains : Bool}
    (found : engine.wildcards[idx]? =
      some { expr := expr, includeSubdomains := includeSubdomains, rule := id })
    (matched : wildcardMatches expr name includeSubdomains = true) :
    id ∈ checked engine name idx := by
  rw [checked, found]
  dsimp only
  rw [if_pos matched]
  exact List.mem_cons_self

theorem mem_wildcardHits (compiled : Compiled engine added) {id : Nat} :
    id ∈ wildcardHits engine name ↔ ∃ (entry : Added) (expr : Str) (includeSubdomains : Bool),
      added[id]? = some entry ∧ entry.rule.pattern = .Wildcard expr includeSubdomains ∧
      wildcardMatches expr name includeSubdomains = true := by
  rw [wildcardHits, List.mem_append, List.mem_flatMap, List.mem_flatMap]
  constructor
  · intro given
    rcases given with ⟨suffix, _, member⟩ | ⟨idx, _, member⟩
    · obtain ⟨idx, _, member⟩ := List.mem_flatMap.mp member
      exact wildcard_of_checked compiled member
    · exact wildcard_of_checked compiled member
  · intro given
    obtain ⟨entry, expr, includeSubdomains, present, pattern, matched⟩ := given
    let w : WildcardEntry := { expr := expr, includeSubdomains := includeSubdomains, rule := id }
    obtain ⟨idx, found⟩ : ∃ idx : Nat, engine.wildcards[idx]? = some w := by
      apply List.mem_iff_getElem?.mp
      rw [compiled.wildcards, mem_collected]
      exact ⟨id, entry, present, by rw [Rule.wildcard, pattern]⟩
    have hit := checked_of_matches found matched
    cases anchor : wildcardAnchor expr with
    | none => exact .inr ⟨idx, compiled.bucketed.unanchored idx _ found anchor, hit⟩
    | some anchor =>
        obtain ⟨bucket, held, member⟩ := compiled.bucketed.anchored idx _ _ found anchor
        refine .inl ⟨_, List.mem_cons_of_mem _ (wildcardMatches_anchor anchor matched), ?_⟩
        rw [bucketHits, List.mem_flatMap, held]
        exact ⟨idx, member, hit⟩

/-- Every wildcard that could match is looked at: the ones found by the name's
label suffixes and the ones with no anchor. -/
theorem wildcard_candidates (compiled : Compiled engine added) :
    ∃ ids : List Nat,
      (∀ block, engine.searchWildcards name block =
        ids.foldlM (consider engine.store) block) ∧
      ∀ id, id ∈ ids ↔ ∃ (entry : Added) (expr : Str) (includeSubdomains : Bool),
        added[id]? = some entry ∧
        entry.rule.pattern = .Wildcard expr includeSubdomains ∧
        wildcardMatches expr name includeSubdomains = true :=
  ⟨wildcardHits engine name, searchWildcards_eq compiled, fun _ => mem_wildcardHits compiled⟩

/-- A search scans what the exact index, the reversed prefixes and the wildcards find. -/
theorem search_eq {rev : List UInt8} {exact wild : List Nat} {below : Nat → List Nat}
    (exactFound : engine.exact.equalRange (asBytes name) = some exact)
    (reversed : reverseLabelsInto (asBytes name) = some rev)
    (belowFound : ∀ stop, engine.subtree.equalRange (rev.take stop) = some (below stop))
    (wildFound : ∀ block, engine.searchWildcards name block =
      wild.foldlM (consider engine.store) block) :
    engine.search name =
      (exact ++ (boundaries rev).flatMap below ++ wild).foldlM (consider engine.store) none := by
  simp only [Engine.search]
  rw [List.foldlM_append, List.foldlM_append, bind_assoc]
  rw [probe_eq exactFound, reversed]
  congr 1
  funext block
  rw [attempt_some, foldlM_scans fun stop _ block => probe_eq (belowFound stop) block]
  congr 1
  funext block
  exact wildFound block

/-- Exact keys, reversed prefixes and wildcards together reach exactly the rules
that cover the name. -/
theorem search_candidates (compiled : Compiled engine added)
    (labels : ∀ label ∈ name.splitOn '.', label ≠ []) (fits : len name ≤ 253) :
    ∃ ids : List Nat, engine.search name = ids.foldlM (consider engine.store) none ∧
      ∀ id, id ∈ ids ↔
        ∃ entry, added[id]? = some entry ∧ entry.rule.pattern.covers name = true := by
  obtain ⟨exact, exactFound, exactMembers⟩ := @exact_candidates _ _ name compiled
  obtain ⟨below, belowFound, belowMembers⟩ := @subtree_candidates _ _ name compiled
  obtain ⟨wild, wildFound, wildMembers⟩ := @wildcard_candidates _ _ name compiled
  have reversed := reverseLabelsInto_eq (labels_asBytes labels) (Nat.le_trans fits (by decide))
  refine ⟨exact ++ (boundaries (reverseFields DOT (asBytes name))).flatMap below ++ wild, ?_, ?_⟩
  · exact search_eq exactFound reversed belowFound wildFound
  · intro id
    rw [List.mem_append, List.mem_append, exactMembers, belowMembers, wildMembers]
    constructor
    · intro given
      rcases given with (⟨entry, present, pattern⟩ | ⟨entry, domain, present, pattern, covered⟩) |
        ⟨entry, expr, includeSubdomains, present, pattern, matched⟩
      · exact ⟨entry, present, by simp [pattern, Pattern.covers]⟩
      · exact ⟨entry, present, by simpa [pattern, Pattern.covers] using covered⟩
      · exact ⟨entry, present, by simpa [pattern, Pattern.covers] using matched⟩
    · intro given
      obtain ⟨entry, present, covered⟩ := given
      cases pattern : entry.rule.pattern with
      | Exact domain =>
          rw [pattern, Pattern.covers, decide_eq_true_eq] at covered
          exact .inl (.inl ⟨entry, present, by rw [pattern, covered]⟩)
      | Subtree domain =>
          rw [pattern] at covered
          exact .inl (.inr ⟨entry, domain, present, pattern, by simpa [Pattern.covers] using covered⟩)
      | Wildcard expr includeSubdomains =>
          rw [pattern] at covered
          exact .inr ⟨entry, expr, includeSubdomains, present, pattern, covered⟩

end Candidates

/-! ### Reporting a rule -/

section Report

variable {engine : Engine} {added : List Added} {id : Nat} {entry : Added}

theorem exactForm_cases {except : Bool} {body domain : Str} {form : Nat}
    (formed : exactForm except body domain = some form) :
    isExactForm form = true ∨ form = FORM_VERBATIM := by
  simp only [exactForm] at formed
  split at formed
  · cases formed
    exact .inl rfl
  · split at formed
    · cases formed
      exact .inl rfl
    · split at formed
      · cases formed
        exact .inr rfl
      · obtain ⟨hosts, _, formed⟩ := Option.bind_eq_some_iff.mp formed
        cases hosts
        · cases formed
          exact .inr rfl
        · cases formed
          exact .inl rfl

theorem subtreeForm_stored {body domain : Str} (stored : subtreeForm body domain ≠ FORM_VERBATIM) :
    subtreeForm body domain = FORM_SUBTREE := by
  unfold subtreeForm at stored ⊢
  split
  · rfl
  · next different => exact absurd (if_neg different) stored

theorem verbatim_text (compiled : Compiled engine added) (present : added[id]? = some entry)
    (formed : entry.rule.form = some FORM_VERBATIM) :
    ∃ off size text, engine.store.spanOff[id]? = some off ∧
      engine.store.spanLen[id]? = some size ∧
      engine.ruleText entry.rule.isExcept FORM_VERBATIM off size = some text := by
  obtain ⟨off, size, offFound, sizeFound, shown⟩ :=
    compiled.store.verbatim id entry present formed
  obtain ⟨text, sliced⟩ := shown.slice
  exact ⟨off, size, text, offFound, sizeFound, sliced⟩

theorem exact_rebuilt (compiled : Compiled engine added) {domain : Str} {form : Nat}
    (present : added[id]? = some entry) (pattern : entry.rule.pattern = .Exact domain)
    (formed : entry.rule.form = some form) (canonical : isExactForm form = true) :
    ∃ off size, engine.store.spanOff[id]? = some off ∧ engine.store.spanLen[id]? = some size ∧
      engine.ruleText entry.rule.isExcept form off size =
        some (exactText entry.rule.isExcept form domain) := by
  have keyed : entry.rule.exactKey = some (asBytes domain) := by rw [Rule.exactKey, pattern]
  obtain ⟨off, offFound, sizeFound, standing⟩ :=
    compiled.exactSpans id entry form _ present formed canonical keyed
  have notSubtree : form ≠ FORM_SUBTREE := by
    intro same
    rw [same] at canonical
    cases canonical
  refine ⟨off, _, offFound, sizeFound, ?_⟩
  rw [Engine.ruleText, if_neg notSubtree, if_pos canonical, standing.slice]
  simp only [Option.bind_eq_bind, Option.bind_some, fromUtf8_asBytes]
  rfl

theorem exact_text (compiled : Compiled engine added) {domain : Str} {form : Nat}
    (present : added[id]? = some entry) (pattern : entry.rule.pattern = .Exact domain)
    (formed : entry.rule.form = some form) (canonical : isExactForm form = true) :
    ∃ off size text, engine.store.spanOff[id]? = some off ∧
      engine.store.spanLen[id]? = some size ∧
      engine.ruleText entry.rule.isExcept form off size = some text := by
  obtain ⟨off, size, offFound, sizeFound, built⟩ :=
    exact_rebuilt compiled present pattern formed canonical
  exact ⟨off, size, _, offFound, sizeFound, built⟩

theorem subtree_rebuilt (compiled : Compiled engine added) {domain : Str}
    (present : added[id]? = some entry) (pattern : entry.rule.pattern = .Subtree domain)
    (formed : entry.rule.form = some FORM_SUBTREE) :
    ∃ off size, engine.store.spanOff[id]? = some off ∧ engine.store.spanLen[id]? = some size ∧
      engine.ruleText entry.rule.isExcept FORM_SUBTREE off size =
        some (exceptMark entry.rule.isExcept ++ ['|', '|'] ++ domain ++ ['^']) := by
  have keyed : entry.rule.subtreeKey = some (reverseFields DOT (asBytes domain)) := by
    rw [Rule.subtreeKey, pattern]
  obtain ⟨off, offFound, sizeFound, standing⟩ :=
    compiled.subtreeSpans id entry _ _ present formed rfl keyed
  have normal : IsDomain domain := by
    have its := compiled.normal entry (List.mem_of_getElem? present)
    rwa [pattern] at its
  have labels : ∀ label ∈ (reverseFields DOT (asBytes domain)).splitOn DOT, label ≠ [] := by
    intro label member
    rw [splitOn_reverseFields] at member
    exact labels_asBytes normal.labels label (List.mem_reverse.mp member)
  have fits : (reverseFields DOT (asBytes domain)).length ≤ 256 := by
    rw [length_reverseFields]
    exact Nat.le_trans normal.fits (by decide)
  refine ⟨off, _, offFound, sizeFound, ?_⟩
  rw [Engine.ruleText, if_pos rfl, standing.slice]
  simp only [Option.bind_eq_bind, Option.bind_some, reverseLabelsInto_eq labels fits,
    reverseFields_reverseFields, fromUtf8_asBytes]
  rfl

theorem subtree_text (compiled : Compiled engine added) {domain : Str}
    (present : added[id]? = some entry) (pattern : entry.rule.pattern = .Subtree domain)
    (formed : entry.rule.form = some FORM_SUBTREE) :
    ∃ off size text, engine.store.spanOff[id]? = some off ∧
      engine.store.spanLen[id]? = some size ∧
      engine.ruleText entry.rule.isExcept FORM_SUBTREE off size = some text := by
  obtain ⟨off, size, offFound, sizeFound, built⟩ := subtree_rebuilt compiled present pattern formed
  exact ⟨off, size, _, offFound, sizeFound, built⟩

theorem text_of_rule (compiled : Compiled engine added) (present : added[id]? = some entry) :
    ∃ form off size text, entry.rule.form = some form ∧ engine.store.spanOff[id]? = some off ∧
      engine.store.spanLen[id]? = some size ∧
      engine.ruleText entry.rule.isExcept form off size = some text := by
  obtain ⟨form, formed, _⟩ := compiled.store.flags id entry present
  by_cases verbatim : form = FORM_VERBATIM
  · subst verbatim
    obtain ⟨off, size, text, found⟩ := verbatim_text compiled present formed
    exact ⟨_, off, size, text, formed, found⟩
  · cases pattern : entry.rule.pattern with
    | Exact domain =>
        have itsForm := formed
        rw [Rule.form, pattern] at itsForm
        rcases exactForm_cases itsForm with canonical | stored
        · obtain ⟨off, size, text, found⟩ := exact_text compiled present pattern formed canonical
          exact ⟨_, off, size, text, formed, found⟩
        · exact absurd stored verbatim
    | Subtree domain =>
        have itsForm := formed
        rw [Rule.form, pattern] at itsForm
        obtain rfl := Option.some.inj itsForm
        rw [subtreeForm_stored verbatim] at formed
        obtain ⟨off, size, text, found⟩ := subtree_text compiled present pattern formed
        exact ⟨_, off, size, text, formed, found⟩
    | Wildcard expr includeSubdomains =>
        rw [Rule.form, pattern] at formed
        exact absurd (Option.some.inj formed).symm verbatim

/-- What is reported of a rule is its own list, line and action. -/
theorem matched_eq (compiled : Compiled engine added) (present : added[id]? = some entry) :
    ∃ text, engine.matched id = some (entry.list,
      { action := entry.rule.action, text := text, line := entry.rule.line }) := by
  obtain ⟨form, off, size, text, formed, offFound, sizeFound, built⟩ :=
    text_of_rule compiled present
  have list : engine.store.lists[id]? = some entry.list := by
    rw [compiled.store.lists, List.getElem?_map, present]
    rfl
  have line : engine.store.lines[id]? = some entry.rule.line := by
    rw [compiled.store.lines, List.getElem?_map, present]
    rfl
  have action : (if entry.rule.isExcept then RuleAction.Except else .Block) =
      entry.rule.action := by
    unfold Rule.isExcept
    cases entry.rule.action <;> rfl
  refine ⟨text, ?_⟩
  simp only [Engine.matched]
  simp only [compiled.store.isExcept present, compiled.store.form present, formed, offFound,
    sizeFound, built, list, line, action, Option.bind_eq_bind, Option.bind_some]
  rfl

end Report

end Sumidero.Filter
