import Sumidero.Filter.Stored

namespace Sumidero.Filter

open Text

/-! The byte probes that tell a rule's form.  On every rule the parser hands out they
stay inside the text and on character boundaries, so each such rule has a form. -/

theorem stripPrefix_eq_some {text front rest : Str} :
    stripPrefix text front = some rest ↔ front ++ rest = text :=
  List.isPrefixOf?_eq_some_iff_append_eq

theorem stripSuffix_eq_some {text back rest : Str} :
    stripSuffix text back = some rest ↔ rest ++ back = text :=
  List.isSuffixOf?_eq_some_iff_append_eq

/-! ### Lengths -/

theorem len_le_of_infix {inner text : Str} (inside : inner <:+: text) : len inner ≤ len text := by
  obtain ⟨front, back, rfl⟩ := inside
  simp only [len_append]
  omega

theorem utf8Size_toLower (c : Char) : c.toLower.utf8Size = c.utf8Size := by
  delta Char.toLower
  split
  · next upper =>
    have least : 65 ≤ c.val.toNat := upper.1
    have most : c.val.toNat ≤ 90 := upper.2
    have small : c.val ≤ 127 := by
      rw [UInt32.le_iff_toNat_le]
      exact Nat.le_trans most (by decide)
    have lower : c.val + ('a'.val - 'A'.val) ≤ 127 := by
      rw [UInt32.le_iff_toNat_le, UInt32.toNat_add]
      change (c.val.toNat + 32) % 2 ^ 32 ≤ 127
      omega
    rw [Char.utf8Size_eq_one_iff.mpr small]
    exact Char.utf8Size_eq_one_iff.mpr lower
  · rfl

theorem len_toAsciiLowercase (text : Str) : len (toAsciiLowercase text) = len text := by
  induction text with
  | nil => rfl
  | cons c rest ih =>
      simp only [toAsciiLowercase, List.map_cons, len_cons, utf8Size_toLower] at ih ⊢
      rw [ih]

theorem len_lowerStrip (text : Str) :
    len (lowerStrip text) ≤ len text ∧ len text ≤ len (lowerStrip text) + 1 := by
  rw [lowerStrip, len_toAsciiLowercase]
  cases stripped : stripSuffix text ['.'] with
  | none => exact ⟨Nat.le_refl _, Nat.le_succ _⟩
  | some rest =>
      rw [← stripSuffix_eq_some.mp stripped, len_append]
      have dot : len ['.'] = 1 := rfl
      rw [Option.getD_some, dot]
      omega

theorem normalizeDomain_eq {text domain : Str} (normal : normalizeDomain text = some domain) :
    domain = lowerStrip text := by
  simp only [normalizeDomain] at normal
  split at normal
  · cases normal
  · split at normal
    · exact (Option.some.inj normal).symm
    · cases normal

/-! ### Hosts lines -/

/-- The start of the one canonical hosts line. -/
def zeroAddress : Str := "0.0.0.0".toList

theorem hostsNames_after {rest name : Str}
    (member : name ∈ hostsNames (zeroAddress ++ rest)) :
    ∃ front c back, rest = front ++ c :: back ∧ isWhitespace c = true ∧ name <:+: back := by
  have word := (List.mem_filter.mp member).1
  have line : trim (((zeroAddress ++ rest).splitOn '#').head?.getD (zeroAddress ++ rest)) <+:
      zeroAddress ++ rest := by
    have head := Data.head_splitOnP_prefix (· == '#') (zeroAddress ++ rest)
    rw [← List.splitOn_eq_splitOnP] at head
    generalize ((zeroAddress ++ rest).splitOn '#').head?.getD (zeroAddress ++ rest) = first at head
    have begins : first.dropWhile isWhitespace <+: zeroAddress ++ rest := by
      cases first with
      | nil => exact List.nil_prefix
      | cons c tail =>
          have zero : c = '0' := (List.cons_prefix_cons.mp head).1
          rw [List.dropWhile_cons_of_neg (by rw [zero]; decide)]
          exact head
    exact (List.rdropWhile_prefix _ _).trans begins
  generalize trim (((zeroAddress ++ rest).splitOn '#').head?.getD (zeroAddress ++ rest)) =
    effective at word line
  have later : name ∈ (effective.splitOnP isWhitespace).tail := by
    simp only [splitWhitespace] at word
    cases words : effective.splitOnP isWhitespace with
    | nil => exact absurd words (List.splitOnP_ne_nil _ _)
    | cons first others =>
        rw [words, List.filter_cons] at word
        split at word
        · exact (List.mem_filter.mp word).1
        · exact (List.mem_filter.mp (List.mem_of_mem_drop word)).1
  obtain ⟨first, c, tail, parts, space, inside⟩ := Data.after_separator later
  have cut : first ++ [c] <+: zeroAddress ++ rest := by
    rw [parts] at line
    refine List.IsPrefix.trans ?_ line
    exact ⟨tail, by simp⟩
  have plain : zeroAddress.any isWhitespace = false := by decide
  have outside : c ∉ zeroAddress := by
    intro inAddress
    exact List.any_eq_false.mp plain c inAddress space
  have address : zeroAddress <+: first := by
    rcases List.prefix_or_prefix_of_prefix (List.prefix_append zeroAddress rest) cut with
      whole | short
    · rcases List.prefix_concat_iff.mp whole with same | inner
      · exact absurd (by rw [same]; simp) outside
      · exact inner
    · exact absurd (short.subset (by simp)) outside
  obtain ⟨front, rfl⟩ := address
  obtain ⟨more, whole⟩ := parts ▸ line
  refine ⟨front, c, tail ++ more, ?_, space, inside.trans (List.prefix_append _ _).isInfix⟩
  simp only [List.append_assoc, List.cons_append, List.append_cancel_left_eq] at whole
  exact whole.symm

/-- Where the rest of the line is one byte longer than the name, that byte is a
character of its own, so both probes succeed. -/
theorem isHostsZero_hosts {line name domain : Str} (member : name ∈ hostsNames line)
    (normal : normalizeDomain name = some domain) : (isHostsZero line domain).isSome = true := by
  simp only [isHostsZero]
  cases begun : stripPrefix line "0.0.0.0".toList with
  | none => rfl
  | some rest =>
      have whole := stripPrefix_eq_some.mp begun
      rw [← whole] at member
      obtain ⟨front, c, back, parts, _, inside⟩ := hostsNames_after member
      dsimp only
      split
      · next same =>
        have longer := len_le_of_infix inside
        have fits := (len_lowerStrip name).1
        rw [← normalizeDomain_eq normal] at fits
        have positive := c.utf8Size_pos
        rw [parts, len_append, len_cons] at same
        have unit : c.utf8Size = 1 := by omega
        have none : front = [] := by
          cases front with
          | nil => rfl
          | cons d more =>
              have another := d.utf8Size_pos
              rw [len_cons] at same
              omega
        have split : splitAtByte rest 1 = some ([c], back) := by
          have found := splitAtByte_append [c] back
          rw [len_cons, unit] at found
          rw [parts, none]
          exact found
        have byte : (asBytes line)[7]?.isSome = true := by
          rw [isSome_getElem?, ← whole, asBytes_append, List.length_append]
          have address : (asBytes "0.0.0.0".toList).length = 7 := by decide
          have size : (asBytes rest).length = len rest := rfl
          rw [address, size, parts, len_append, len_cons]
          omega
        obtain ⟨separator, found⟩ := Option.isSome_iff_exists.mp byte
        rw [split, found]
        simp only [Option.bind_eq_bind, Option.bind_some]
        split <;> rfl
      · rfl

/-! ### Plain lines -/

/-- A line that is its own domain is too short for the probes to be tried. -/
theorem isHostsZero_plain {line domain : Str} (longer : len line ≤ len domain + 2) :
    isHostsZero line domain = some false := by
  simp only [isHostsZero]
  cases begun : stripPrefix line "0.0.0.0".toList with
  | none => rfl
  | some rest =>
      have whole := stripPrefix_eq_some.mp begun
      rw [← whole, len_append] at longer
      have address : len "0.0.0.0".toList = 7 := by decide
      dsimp only
      rw [if_neg (by omega)]

theorem ruleBody_block {line : Str} (block : (ruleBody line).action = .Block)
    (exact : (ruleBody line).subtree = false) : len line ≤ len (ruleBody line).rest + 1 := by
  simp only [ruleBody] at block exact ⊢
  cases excepted : stripPrefix line ['@', '@'] with
  | some rest =>
      rw [excepted] at block
      cases block
  | none =>
      simp only [excepted] at exact ⊢
      cases below : stripPrefix line ['|', '|'] with
      | some rest =>
          rw [below] at exact
          cases exact
      | none =>
          dsimp only
          cases caret : stripSuffix line ['^'] with
          | none => exact Nat.le_succ _
          | some rest =>
              rw [← stripSuffix_eq_some.mp caret, len_append]
              exact Nat.le_refl _

theorem parsePattern_exact {subtree : Bool} {rest domain : Str}
    (parsed : parsePattern subtree rest = some (.Exact domain)) :
    subtree = false ∧ normalizeDomain rest = some domain := by
  simp only [parsePattern] at parsed
  split at parsed
  · obtain ⟨_, _, same⟩ := Option.map_eq_some_iff.mp parsed
    cases same
  · obtain ⟨found, normal, same⟩ := Option.map_eq_some_iff.mp parsed
    cases subtree with
    | true => cases same
    | false =>
        cases same
        exact ⟨rfl, normal⟩

/-! ### Every rule has a form -/

theorem exactForm_of_probe {except : Bool} {body domain : Str}
    (probed : except = false → (isHostsZero body domain).isSome = true) :
    (exactForm except body domain).isSome = true := by
  simp only [exactForm]
  split
  · rfl
  · split
    · rfl
    · cases except with
      | true => rfl
      | false =>
          obtain ⟨hosts, found⟩ := Option.isSome_iff_exists.mp (probed rfl)
          rw [found]
          rfl

theorem parseList_formed (text : Str) :
    (parseList text).All fun rule => rule.form.isSome = true := by
  apply parseList_all
  intro line lineNo
  apply parseLine_all
  · intro name member domain normal
    apply exactForm_of_probe
    intro _
    exact isHostsZero_hosts member normal
  · intro pattern parsed
    cases pattern with
    | Subtree domain => rfl
    | Wildcard expr includeSubdomains => rfl
    | Exact domain =>
        obtain ⟨exact, normal⟩ := parsePattern_exact parsed
        apply exactForm_of_probe
        intro plain
        have block : (ruleBody line).action = .Block := by
          cases action : (ruleBody line).action with
          | Block => rfl
          | Except => simp [Rule.isExcept, action] at plain
        have body : Rule.body
            { action := (ruleBody line).action, pattern := .Exact domain, text := line,
              line := lineNo } = line := by
          simp [Rule.body, Rule.isExcept, block]
        have whole := ruleBody_block block exact
        have stripped := (len_lowerStrip (ruleBody line).rest).2
        rw [← normalizeDomain_eq normal] at stripped
        rw [body, isHostsZero_plain (by omega)]
        rfl

end Sumidero.Filter
