import Mathlib.Data.List.Nodup
import Mathlib.Data.List.Perm.Subperm
import Sumidero.Cli.Migrate

namespace Sumidero.Cli

open Config Net Text

/-! The names the migrated lists get. -/

/-! ### Slugs -/

theorem replaceDashes_length {text : Str} :
    (replaceDashes text).length ≤ text.length ∧
      (hasDashes text → (replaceDashes text).length < text.length) := by
  fun_induction replaceDashes text with
  | case1 rest ih =>
      simp only [List.length_cons]
      omega
  | case2 c rest other ih =>
      have same : hasDashes (c :: rest) = hasDashes rest := by
        rw [hasDashes]
        exact other
      rw [same]
      exact ⟨Nat.succ_le_succ ih.1, fun dashes => Nat.succ_lt_succ (ih.2 dashes)⟩
  | case3 => simp [hasDashes]

/-- The passes end because no two dashes are left. -/
theorem collapseDashes_none {passes : Nat} {text : Str} (enough : text.length ≤ passes) :
    hasDashes (collapseDashes passes text) = false := by
  induction passes generalizing text with
  | zero =>
      obtain rfl := List.eq_nil_of_length_eq_zero (Nat.le_zero.mp enough)
      rfl
  | succ passes ih =>
      simp only [collapseDashes]
      split
      · next dashes =>
        have shorter := replaceDashes_length.2 dashes
        exact ih (by omega)
      · next none => exact Bool.eq_false_iff.mpr none

/-- Lower-case letters, digits and dashes. -/
def isNameChar (c : Char) : Bool := c.isLower || c.isDigit || c = '-'

theorem toLower_notUpper (c : Char) : c.toLower.isUpper = false := by
  delta Char.toLower
  split
  · next upper =>
    have least : 65 ≤ c.val.toNat := upper.1
    have most : c.val.toNat ≤ 90 := upper.2
    rw [Bool.eq_false_iff]
    intro still
    have high : (c.val + ('a'.val - 'A'.val)).toNat ≤ 90 := (of_decide_eq_true still).2
    rw [UInt32.toNat_add] at high
    change (c.val.toNat + 32) % 2 ^ 32 ≤ 90 at high
    omega
  · next other => exact decide_eq_false other

theorem replaceDashes_subset (text : Str) : replaceDashes text ⊆ text := by
  fun_induction replaceDashes text with
  | case1 rest ih =>
      exact List.cons_subset_cons _ (List.subset_cons_of_subset _ ih)
  | case2 c rest _ ih => exact List.cons_subset_cons _ ih
  | case3 => exact List.Subset.refl _

theorem collapseDashes_subset (passes : Nat) (text : Str) : collapseDashes passes text ⊆ text := by
  induction passes generalizing text with
  | zero => exact List.Subset.refl _
  | succ passes ih =>
      simp only [collapseDashes]
      split
      · exact List.Subset.trans (ih (replaceDashes text)) (replaceDashes_subset text)
      · exact List.Subset.refl _

theorem trimMatches_subset (c : Char) (text : Str) : trimMatches c text ⊆ text :=
  ((List.rdropWhile_prefix _ _).sublist.trans (List.dropWhile_sublist _)).subset

theorem slug_chars {name : Str} {c : Char} (member : c ∈ slug name) : isNameChar c := by
  have mapped := collapseDashes_subset _ _ (trimMatches_subset _ _ member)
  obtain ⟨lower, inside, same⟩ := List.mem_map.mp mapped
  obtain ⟨original, _, lowered⟩ := List.mem_map.mp inside
  split at same
  · next alphanumeric =>
    have notUpper : lower.isUpper = false := lowered ▸ toLower_notUpper original
    change (lower.isUpper || lower.isLower || lower.isDigit) = true at alphanumeric
    rw [notUpper, Bool.false_or] at alphanumeric
    rw [← same, isNameChar, alphanumeric]
    rfl
  · rw [← same]
    rfl

/-! ### Candidates -/

/-- The names tried for a filter, the `k`-th after `k` that are used. -/
def tried (base : Str) : Nat → Str
  | 0 => base
  | k + 1 => numbered base (k + 2)

theorem numbered_ne (base : Str) (n : Nat) : numbered base n ≠ base := by
  intro same
  have length := congrArg List.length same
  rw [numbered, List.length_append, List.length_cons] at length
  omega

theorem numbered_injective {base : Str} {n m : Nat} (same : numbered base n = numbered base m) :
    n = m := by
  have digits := List.append_cancel_left same
  rw [List.cons.injEq] at digits
  exact toDigits_injective (by decide) (by decide) digits.2

theorem tried_injective {base : Str} : Function.Injective (tried base) := by
  intro k l same
  cases k with
  | zero =>
      cases l with
      | zero => rfl
      | succ l => exact absurd same.symm (numbered_ne base _)
  | succ k =>
      cases l with
      | zero => exact absurd same (numbered_ne base _)
      | succ l =>
          have equal := numbered_injective same
          omega

/-- The tries end early only at a name that is not used. -/
theorem freshName_found (used : List Str) (base : Str) (tries m : Nat) :
    ∃ k ≤ tries, freshName used base tries (m + 2) (tried base m) = tried base (m + k) ∧
      (∀ j < k, tried base (m + j) ∈ used) ∧ (k < tries → tried base (m + k) ∉ used) := by
  induction tries generalizing m with
  | zero => exact ⟨0, Nat.le_refl 0, rfl, fun j below => absurd below (Nat.not_lt_zero j),
      fun early => absurd early (Nat.lt_irrefl 0)⟩
  | succ tries ih =>
      simp only [freshName]
      split
      · next present =>
        obtain ⟨k, within, found, passed, new⟩ := ih (m + 1)
        refine ⟨k + 1, Nat.succ_le_succ within, ?_, ?_, ?_⟩
        · rw [Nat.add_comm k 1, ← Nat.add_assoc]
          exact found
        · intro j below
          cases j with
          | zero => exact List.contains_iff_mem.mp present
          | succ j =>
              rw [Nat.add_comm j 1, ← Nat.add_assoc]
              exact passed j (Nat.lt_of_succ_lt_succ below)
        · intro early
          rw [Nat.add_comm k 1, ← Nat.add_assoc]
          exact new (Nat.lt_of_succ_lt_succ early)
      · next unused =>
        exact ⟨0, Nat.zero_le _, rfl, fun j below => absurd below (Nat.not_lt_zero j),
          fun _ present => unused (List.contains_iff_mem.mpr present)⟩

/-- One more name than are used is tried, so the loop ends at one that is not. -/
theorem freshName_first (used : List Str) (base : Str) :
    ∃ k ≤ used.length, freshName used base used.length 2 base = tried base k ∧
      (∀ j < k, tried base j ∈ used) ∧ tried base k ∉ used := by
  obtain ⟨k, within, found, passed, new⟩ := freshName_found used base used.length 0
  simp only [Nat.zero_add] at found passed new
  refine ⟨k, within, found, passed, ?_⟩
  intro present
  have last : k = used.length := by
    by_contra early
    exact new (by omega) present
  have distinct : ((List.range (k + 1)).map (tried base)).Nodup :=
    List.nodup_range.map tried_injective
  have inside : (List.range (k + 1)).map (tried base) ⊆ used := by
    intro name member
    obtain ⟨j, below, rfl⟩ := List.mem_map.mp member
    rcases Nat.lt_succ_iff_lt_or_eq.mp (List.mem_range.mp below) with before | rfl
    · exact passed j before
    · exact present
  have fewer := (distinct.subperm inside).length_le
  rw [List.length_map, List.length_range] at fewer
  omega

/-! ### The loop over the filters -/

/-- The name a filter keeps if it can; `i` filters came before. -/
def baseName (i : Nat) (filter : AghFilter) : Str :=
  if (slug filter.name).isEmpty then "list-".toList ++ Nat.toDigits 10 (i + 1)
  else slug filter.name

/-- The names that are not free once `lists` have theirs. -/
def taken (lists : List (Str × Str)) : List Str := "user-rules".toList :: lists.map Prod.fst

def notMigrated (toml : Toml) (filter : AghFilter) : Str :=
  "disabled filter ".toList ++ toml.quoted filter.name ++ " not migrated".toList

def renamedTo (toml : Toml) (filter : AghFilter) (name : Str) : Str :=
  "filter ".toList ++ toml.quoted filter.name ++ " renamed to ".toList ++
    toml.quoted name ++ " to keep list names unique".toList

/-- How filters are named one after the other, with the warnings. -/
inductive Naming (toml : Toml) : List AghFilter → List (Str × Str) → List Str → Prop
  | none : Naming toml [] [] []
  | disabled {filters lists warnings} (before : Naming toml filters lists warnings)
      (filter : AghFilter) (off : filter.enabled = false) :
      Naming toml (filters ++ [filter]) lists (warnings ++ [notMigrated toml filter])
  | kept {filters lists warnings} (before : Naming toml filters lists warnings)
      (filter : AghFilter) (on : filter.enabled = true)
      (new : baseName filters.length filter ∉ taken lists) :
      Naming toml (filters ++ [filter])
        (lists ++ [(baseName filters.length filter, filter.url)]) warnings
  | renamed {filters lists warnings} (before : Naming toml filters lists warnings)
      (filter : AghFilter) (on : filter.enabled = true) (k : Nat)
      (tries : k < (taken lists).length)
      (passed : ∀ j ≤ k, tried (baseName filters.length filter) j ∈ taken lists)
      (new : numbered (baseName filters.length filter) (k + 2) ∉ taken lists) :
      Naming toml (filters ++ [filter])
        (lists ++ [(numbered (baseName filters.length filter) (k + 2), filter.url)])
        (warnings ++
          [renamedTo toml filter (numbered (baseName filters.length filter) (k + 2))])

theorem taken_push (lists : List (Str × Str)) (name url : Str) :
    taken (lists ++ [(name, url)]) = taken lists ++ [name] := by
  rw [taken, List.map_append, ← List.cons_append]
  rfl

theorem ne_reserved {lists : List (Str × Str)} {name : Str} (new : name ∉ taken lists) :
    name ≠ "user-rules".toList := by
  rintro rfl
  exact new List.mem_cons_self

/-- What every list's name is, whatever the filter's is. -/
structure ListName (name : Str) : Prop where
  some : name ≠ []
  free : name ≠ "user-rules".toList
  chars : ∀ c ∈ name, isNameChar c

theorem baseName_some (i : Nat) (filter : AghFilter) : baseName i filter ≠ [] := by
  rw [baseName]
  split
  · exact List.append_ne_nil_of_left_ne_nil (by decide) _
  · next named => exact fun none => named (List.isEmpty_iff.mpr none)

theorem digit_isNameChar {c : Char} {n : Nat} (member : c ∈ Nat.toDigits 10 n) : isNameChar c := by
  have digit := Nat.isDigit_of_mem_toDigits (by decide) (by decide) member
  rw [isNameChar, digit, Bool.or_true, Bool.true_or]

theorem baseName_chars {i : Nat} {filter : AghFilter} {c : Char} (member : c ∈ baseName i filter) :
    isNameChar c := by
  rw [baseName] at member
  split at member
  · rcases List.mem_append.mp member with list | digits
    · have prefixed : "list-".toList.all isNameChar = true := rfl
      exact List.all_eq_true.mp prefixed c list
    · exact digit_isNameChar digits
  · exact slug_chars member

/-- Every candidate is a name of a list if it is free. -/
theorem tried_listName {lists : List (Str × Str)} {i : Nat} {filter : AghFilter} (k : Nat)
    (new : tried (baseName i filter) k ∉ taken lists) : ListName (tried (baseName i filter) k) where
  some := by
    cases k with
    | zero => exact baseName_some i filter
    | succ k => exact List.append_ne_nil_of_left_ne_nil (baseName_some i filter) _
  free := ne_reserved new
  chars := by
    intro c member
    cases k with
    | zero => exact baseName_chars member
    | succ k =>
        rcases List.mem_append.mp member with own | suffix
        · exact baseName_chars own
        · rcases List.mem_cons.mp suffix with rfl | digits
          · rfl
          · exact digit_isNameChar digits

theorem listName_push {lists : List (Str × Str)} {name : Str} (url : Str)
    (named : ∀ list ∈ lists, ListName list.1) (last : ListName name) :
    ∀ list ∈ lists ++ [(name, url)], ListName list.1 := by
  intro list member
  rcases List.mem_append.mp member with before | final
  · exact named list before
  · rw [List.mem_singleton.mp final]
    exact last

namespace Naming

variable {toml : Toml} {filters : List AghFilter} {lists : List (Str × Str)} {warnings : List Str}

theorem urls (naming : Naming toml filters lists warnings) :
    lists.map Prod.snd = (filters.filter AghFilter.enabled).map AghFilter.url := by
  induction naming with
  | none => rfl
  | disabled _ filter off ih =>
      rw [List.filter_append, List.filter_singleton, off]
      simpa using ih
  | kept _ filter on _ ih | renamed _ filter on _ _ _ _ ih =>
      rw [List.filter_append, List.filter_singleton, on]
      simp [ih]

theorem formed (naming : Naming toml filters lists warnings) :
    ∀ list ∈ lists, ListName list.1 := by
  induction naming with
  | none => exact fun list member => absurd member List.not_mem_nil
  | disabled _ _ _ ih => exact ih
  | kept _ filter _ new ih => exact listName_push filter.url ih (tried_listName 0 new)
  | renamed _ filter _ k _ _ new ih =>
      exact listName_push filter.url ih (tried_listName (k + 1) new)

theorem distinct (naming : Naming toml filters lists warnings) : (taken lists).Nodup := by
  induction naming with
  | none => exact List.nodup_singleton _
  | disabled _ _ _ ih => exact ih
  | kept _ _ _ new ih | renamed _ _ _ _ _ _ new ih =>
      rw [taken_push]
      exact List.nodup_append.mpr ⟨ih, List.nodup_singleton _, fun name member last same equal =>
        new (List.mem_singleton.mp same ▸ equal ▸ member)⟩

end Naming

theorem convertFilters_disabled (toml : Toml) (used : List Str) (i : Nat) {filter : AghFilter}
    (rest : List AghFilter) (off : filter.enabled = false) :
    convertFilters toml used i (filter :: rest) =
      ((convertFilters toml used (i + 1) rest).1,
        notMigrated toml filter :: (convertFilters toml used (i + 1) rest).2) := by
  rw [convertFilters, if_neg (by rw [off]; decide)]
  rfl

/-- A filter's warning is about the name found for it. -/
theorem convertFilters_enabled (toml : Toml) (used : List Str) (i : Nat) {filter : AghFilter}
    (rest : List AghFilter) (on : filter.enabled = true) {name : Str}
    (found : freshName used (baseName i filter) used.length 2 (baseName i filter) = name) :
    convertFilters toml used i (filter :: rest) =
      ((name, filter.url) :: (convertFilters toml (name :: used) (i + 1) rest).1,
        (if name ≠ baseName i filter then [renamedTo toml filter name] else []) ++
          (convertFilters toml (name :: used) (i + 1) rest).2) := by
  rw [convertFilters, if_pos on, ← found]
  rfl

theorem Naming.run {toml : Toml} {before : List AghFilter} {lists : List (Str × Str)}
    {warnings : List Str} (naming : Naming toml before lists warnings) (filters : List AghFilter) :
    let rest := convertFilters toml (taken lists).reverse before.length filters
    Naming toml (before ++ filters) (lists ++ rest.1) (warnings ++ rest.2) := by
  induction filters generalizing before lists warnings with
  | nil =>
      simp only [convertFilters, List.append_nil]
      exact naming
  | cons filter rest ih =>
      cases on : filter.enabled with
      | false =>
          have later := ih (naming.disabled filter on)
          rw [convertFilters_disabled toml _ _ rest on]
          simpa only [List.length_append, List.length_singleton, List.append_assoc,
            List.singleton_append] using later
      | true =>
          obtain ⟨k, within, found, passed, new⟩ :=
            freshName_first (taken lists).reverse (baseName before.length filter)
          rw [List.length_reverse] at within
          simp only [List.mem_reverse] at passed new
          rw [convertFilters_enabled toml _ _ rest on found]
          cases k with
          | zero =>
              have later := ih (naming.kept filter on new)
              rw [taken_push, List.reverse_append] at later
              simpa only [tried, ne_eq, not_true_eq_false, if_false, List.nil_append,
                List.length_append, List.length_singleton, List.append_assoc,
                List.singleton_append, List.reverse_singleton] using later
          | succ k =>
              have held : ∀ j ≤ k, tried (baseName before.length filter) j ∈ taken lists :=
                fun j below => passed j (Nat.lt_succ_of_le below)
              have later := ih (naming.renamed filter on k (by omega) held new)
              rw [taken_push, List.reverse_append] at later
              simpa only [tried, ne_eq, numbered_ne, not_false_eq_true, if_true,
                List.length_append, List.length_singleton, List.append_assoc,
                List.singleton_append, List.reverse_singleton] using later

/-- The loop names the filters one after the other. -/
theorem convertFilters_naming (toml : Toml) (filters : List AghFilter) :
    Naming toml filters (convertFilters toml ["user-rules".toList] 0 filters).1
      (convertFilters toml ["user-rules".toList] 0 filters).2 :=
  Naming.none.run filters

/-- Every filter that is enabled gets a list, of a name that no other list has. -/
theorem migrated_names (toml : Toml) (filters : List AghFilter) :
    let named := convertFilters toml ["user-rules".toList] 0 filters
    Naming toml filters named.1 named.2 ∧
      named.1.map Prod.snd = (filters.filter AghFilter.enabled).map AghFilter.url ∧
      (taken named.1).Nodup ∧ (∀ list ∈ named.1, ListName list.1) ∧
      ∀ text : Str, hasDashes (collapseDashes text.length text) = false := by
  have naming := convertFilters_naming toml filters
  exact ⟨naming, naming.urls, naming.distinct, naming.formed,
    fun text => collapseDashes_none (Nat.le_refl text.length)⟩

end Sumidero.Cli
