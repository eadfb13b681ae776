import Mathlib.Data.Nat.Bitwise
import Sumidero.Data.Search
import Sumidero.Server.SafeSearch

namespace Sumidero.Server

open Text Data

/-! What safe search enforces: for every provider that is switched on its own search hosts, and
nothing else. -/

inductive Provider where
  | google
  | youtube
  | bing
  | duckduckgo
deriving Repr, DecidableEq

namespace Provider

def name : Provider → Str
  | google => "google".toList
  | youtube => "youtube".toList
  | bing => "bing".toList
  | duckduckgo => "duckduckgo".toList

def bit : Provider → Nat
  | google => GOOGLE
  | youtube => YOUTUBE
  | bing => BING
  | duckduckgo => DUCKDUCKGO

/-- The search hosts of a provider. -/
def hosts : Provider → List Str
  | google => GOOGLE_TLDS.map fun tld => "www.google.".toList ++ tld.toList
  | youtube => YOUTUBE_HOSTS.map String.toList
  | bing => BING_HOSTS.map String.toList
  | duckduckgo => DUCKDUCKGO_HOSTS.map String.toList

/-- Its enforced endpoint. -/
def endpoint : Provider → Str
  | google => "forcesafesearch.google.com".toList
  | youtube => "restrictmoderate.youtube.com".toList
  | bing => "strict.bing.com".toList
  | duckduckgo => "safe.duckduckgo.com".toList

/-- Switched on by name, or with all the others when none is named. -/
def EnabledBy (provider : Provider) (enabled : Bool) (providers : List Str) : Prop :=
  enabled = true ∧ (providers = [] ∨ provider.name ∈ providers)

end Provider

/-! ### The tables -/

/-- A table as `str` compares its entries. -/
def bytesOf (table : List String) : List (List UInt8) := table.map fun host => asBytes host.toList

/-- `table.binary_search(&name).is_ok()`. -/
def searched (table : List String) (name : Str) : Bool :=
  (binarySearch (bytesOf table) (asBytes name)).isSome

theorem tables_sorted : ∀ table ∈ [GOOGLE_TLDS, YOUTUBE_HOSTS, BING_HOSTS, DUCKDUCKGO_HOSTS],
    (bytesOf table).Pairwise (· ≤ ·) := by decide +kernel

theorem listed_iff {table : List String} {name : Str} :
    listed table name = true ↔ name ∈ table.map String.toList := by
  simp only [listed, List.any_eq_true, decide_eq_true_eq, List.mem_map]

/-- A search finds what is listed. -/
theorem searched_eq {table : List String} (name : Str)
    (known : table ∈ [GOOGLE_TLDS, YOUTUBE_HOSTS, BING_HOSTS, DUCKDUCKGO_HOSTS]) :
    searched table name = listed table name := by
  rw [Bool.eq_iff_iff, listed_iff, searched, binarySearch_isSome (tables_sorted table known)]
  simp only [bytesOf, List.mem_map, asBytes_injective.eq_iff]

namespace SafeSearch

/-- `rewrite`, with the searches it makes. -/
def rewriteSearched (safesearch : SafeSearch) (qname : Str) : Option Str :=
  if safesearch.isOn YOUTUBE && searched YOUTUBE_HOSTS qname then
    some "restrictmoderate.youtube.com".toList
  else if safesearch.isOn BING && searched BING_HOSTS qname then some "strict.bing.com".toList
  else if safesearch.isOn DUCKDUCKGO && searched DUCKDUCKGO_HOSTS qname then
    some "safe.duckduckgo.com".toList
  else if safesearch.isOn GOOGLE &&
      (stripPrefix qname "www.google.".toList).any (searched GOOGLE_TLDS) then
    some "forcesafesearch.google.com".toList
  else none

theorem rewriteSearched_eq (safesearch : SafeSearch) (qname : Str) :
    safesearch.rewriteSearched qname = safesearch.rewrite qname := by
  have google : searched GOOGLE_TLDS = listed GOOGLE_TLDS := by
    funext tld
    exact searched_eq tld (by simp)
  have youtube := @searched_eq YOUTUBE_HOSTS qname (by simp)
  have bing := @searched_eq BING_HOSTS qname (by simp)
  have duckduckgo := @searched_eq DUCKDUCKGO_HOSTS qname (by simp)
  simp only [rewriteSearched, rewrite, google, youtube, bing, duckduckgo]

end SafeSearch

/-! ### Which providers are on -/

section Bits

/-- A power of two is in a number exactly if its bit is set. -/
theorem isOn_testBit (safesearch : SafeSearch) (k : Nat) :
    safesearch.isOn (2 ^ k) = safesearch.enabled.testBit k := by
  rw [SafeSearch.isOn, Nat.and_two_pow]
  cases safesearch.enabled.testBit k with
  | true => simp
  | false => simp

theorem testBit_foldl {α : Type} (bits : α → Nat) (items : List α) (first k : Nat) :
    (items.foldl (fun sum item => sum ||| bits item) first).testBit k =
      (first.testBit k || items.any fun item => (bits item).testBit k) := by
  induction items generalizing first with
  | nil => simp
  | cons item rest ih =>
      rw [List.foldl_cons, ih, List.any_cons, Nat.testBit_or, Bool.or_assoc]

/-- Which bit a provider has. -/
def Provider.place : Provider → Nat
  | .google => 0
  | .youtube => 1
  | .bing => 2
  | .duckduckgo => 3

theorem Provider.bit_eq (provider : Provider) : provider.bit = 2 ^ provider.place := by
  cases provider <;> rfl

/-- Only its own name sets the bit of a provider. -/
theorem providerBit_testBit (provider : Provider) {text : Str}
    (known : listed SUPPORTED_PROVIDERS text = true) :
    (SafeSearch.providerBit text).testBit provider.place = true ↔ text = provider.name := by
  have each : ∀ text ∈ SUPPORTED_PROVIDERS.map String.toList,
      (SafeSearch.providerBit text).testBit provider.place = true ↔ text = provider.name := by
    cases provider <;> decide
  exact each text (listed_iff.mp known)

theorem isOn_iff {enabled : Bool} {providers : List Str} {safesearch : SafeSearch}
    (built : SafeSearch.new enabled providers = some safesearch) (provider : Provider) :
    safesearch.isOn provider.bit = true ↔ provider.EnabledBy enabled providers := by
  rw [provider.bit_eq, isOn_testBit]
  simp only [SafeSearch.new] at built
  split at built
  · cases built
  · next known =>
    simp only [Bool.not_eq_true', Bool.not_eq_false, List.all_eq_true] at known
    split at built
    · next off =>
      cases built
      simp [Provider.EnabledBy, show enabled = false by simpa using off]
    · next on =>
      have enabled_on : enabled = true := by simpa using on
      split at built
      · next all =>
        cases built
        have none : providers = [] := by simpa using all
        constructor
        · exact fun _ => ⟨enabled_on, .inl none⟩
        · intro _
          cases provider <;> decide
      · next some_named =>
        cases built
        have named : providers ≠ [] := by simpa using some_named
        rw [testBit_foldl, Nat.zero_testBit, Bool.false_or, List.any_eq_true]
        constructor
        · intro set
          obtain ⟨text, member, bit⟩ := set
          rw [providerBit_testBit provider (known text member)] at bit
          exact ⟨enabled_on, .inr (bit ▸ member)⟩
        · intro switched
          have member := switched.2.resolve_left named
          exact ⟨_, member, (providerBit_testBit provider (known _ member)).mpr rfl⟩

end Bits

/-! ### Which names are rewritten -/

/-- The test `rewrite` makes for a provider. -/
def Provider.serves (provider : Provider) (qname : Str) : Bool :=
  match provider with
  | .google => (stripPrefix qname "www.google.".toList).any (listed GOOGLE_TLDS)
  | .youtube => listed YOUTUBE_HOSTS qname
  | .bing => listed BING_HOSTS qname
  | .duckduckgo => listed DUCKDUCKGO_HOSTS qname

theorem Provider.serves_iff (provider : Provider) (qname : Str) :
    provider.serves qname = true ↔ qname ∈ provider.hosts := by
  cases provider with
  | google =>
      simp only [serves, hosts, Option.any_eq_true, listed_iff, stripPrefix,
        List.isPrefixOf?_eq_some_iff_append_eq, List.mem_map]
      constructor
      · intro given
        obtain ⟨_, split, tld, member, rfl⟩ := given
        exact ⟨tld, member, split⟩
      · intro given
        obtain ⟨tld, member, split⟩ := given
        exact ⟨_, split, tld, member, rfl⟩
  | youtube => exact listed_iff
  | bing => exact listed_iff
  | duckduckgo => exact listed_iff

/-- No host belongs to two providers. -/
theorem hosts_disjoint (first second : Provider) :
    ∀ host ∈ first.hosts, host ∈ second.hosts → first = second := by
  cases first <;> cases second <;> first | exact fun _ _ _ => rfl | decide +kernel

/-- No endpoint is itself a search host. -/
theorem endpoint_unserved (first second : Provider) : first.endpoint ∉ second.hosts := by
  cases first <;> cases second <;> decide +kernel

theorem rewrite_iff (safesearch : SafeSearch) (qname target : Str) :
    safesearch.rewrite qname = some target ↔
      ∃ provider : Provider, safesearch.isOn provider.bit = true ∧ qname ∈ provider.hosts ∧
        target = provider.endpoint := by
  have applies : ∀ provider : Provider,
      (safesearch.isOn provider.bit && provider.serves qname) = true ↔
        safesearch.isOn provider.bit = true ∧ qname ∈ provider.hosts := by
    intro provider
    rw [Bool.and_eq_true, provider.serves_iff]
  have steps : safesearch.rewrite qname =
      if safesearch.isOn Provider.youtube.bit && Provider.youtube.serves qname then
        some Provider.youtube.endpoint
      else if safesearch.isOn Provider.bing.bit && Provider.bing.serves qname then
        some Provider.bing.endpoint
      else if safesearch.isOn Provider.duckduckgo.bit && Provider.duckduckgo.serves qname then
        some Provider.duckduckgo.endpoint
      else if safesearch.isOn Provider.google.bit && Provider.google.serves qname then
        some Provider.google.endpoint
      else none := rfl
  rw [steps]
  constructor
  · have by_provider : ∀ provider : Provider,
        (safesearch.isOn provider.bit && provider.serves qname) = true →
        some provider.endpoint = some target → ∃ provider : Provider,
          safesearch.isOn provider.bit = true ∧ qname ∈ provider.hosts ∧
            target = provider.endpoint := by
      intro provider found same
      obtain ⟨on, member⟩ := (applies provider).mp found
      exact ⟨provider, on, member, (Option.some.inj same).symm⟩
    intro rewritten
    split at rewritten
    · next found => exact by_provider _ found rewritten
    · split at rewritten
      · next found => exact by_provider _ found rewritten
      · split at rewritten
        · next found => exact by_provider _ found rewritten
        · split at rewritten
          · next found => exact by_provider _ found rewritten
          · cases rewritten
  · intro given
    obtain ⟨provider, on, member, rfl⟩ := given
    have found := (applies provider).mpr ⟨on, member⟩
    have other : ∀ another : Provider, another ≠ provider →
        ¬ (safesearch.isOn another.bit && another.serves qname) = true := by
      intro another different also
      exact different (hosts_disjoint _ _ qname ((applies another).mp also).2 member)
    cases provider with
    | youtube => rw [if_pos found]
    | bing => rw [if_neg (other .youtube nofun), if_pos found]
    | duckduckgo =>
        rw [if_neg (other .youtube nofun), if_neg (other .bing nofun), if_pos found]
    | google =>
        rw [if_neg (other .youtube nofun), if_neg (other .bing nofun),
          if_neg (other .duckduckgo nofun), if_pos found]

/-- A name is rewritten exactly if it is a search host of a provider that is switched on, and
then to that provider's endpoint, which is never rewritten itself; searching the sorted tables
comes to the same. -/
theorem safe_search_exact {enabled : Bool} {providers : List Str} {safesearch : SafeSearch}
    (built : SafeSearch.new enabled providers = some safesearch) (qname : Str) :
    safesearch.rewriteSearched qname = safesearch.rewrite qname ∧
      (∀ target, safesearch.rewrite qname = some target ↔ ∃ provider : Provider,
        provider.EnabledBy enabled providers ∧ qname ∈ provider.hosts ∧
          target = provider.endpoint) ∧
      ∀ target, safesearch.rewrite qname = some target → safesearch.rewrite target = none := by
  refine ⟨safesearch.rewriteSearched_eq qname, ?_, ?_⟩
  · intro target
    simp only [rewrite_iff, isOn_iff built]
  · intro target rewritten
    obtain ⟨provider, _, _, rfl⟩ := (rewrite_iff safesearch qname target).mp rewritten
    cases again : safesearch.rewrite provider.endpoint with
    | none => rfl
    | some next =>
        obtain ⟨other, _, served, _⟩ := (rewrite_iff safesearch _ next).mp again
        exact absurd served (endpoint_unserved provider other)

theorem safe_search_exact_google : ∃ safesearch,
    SafeSearch.new true ["google".toList] = some safesearch ∧
      safesearch.rewrite "www.google.co.uk".toList = some "forcesafesearch.google.com".toList ∧
      safesearch.rewrite "forcesafesearch.google.com".toList = none := by
  have built : SafeSearch.new true ["google".toList] = some { enabled := GOOGLE } := by decide
  obtain ⟨_, exactly, settled⟩ := safe_search_exact built "www.google.co.uk".toList
  have member : "www.google.co.uk".toList ∈ Provider.google.hosts := by decide +kernel
  have rewritten := (exactly "forcesafesearch.google.com".toList).mpr
    ⟨.google, ⟨rfl, .inr List.mem_cons_self⟩, member, rfl⟩
  exact ⟨_, built, rewritten, settled _ rewritten⟩

end Sumidero.Server
