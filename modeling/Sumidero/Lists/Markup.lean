import Sumidero.Filter.Grammar
import Sumidero.Lists.LastGood

namespace Sumidero.Lists

open Text Data Program Sumidero.Filter

/-! Markup pages served in place of a list: a captive portal, an error page. -/

/-! ### Lines that hold rules -/

/-- A line that stands for a rule: a hosts line for this machine that names a host, or a rule
spelled out. -/
inductive RuleLine (line : Str) : Prop
  | hosts {ip : Net.IpAddr} {name : Str} (address : hostsAddress line = some ip)
      (sink : (ip.isUnspecified || ip.isLoopback) = true) (member : name ∈ hostsNames line)
      (valid : ValidDomain (lowerStrip name))
  | spelled {action : RuleAction} {pattern : Pattern} (loud : ¬ Comment line)
      (address : hostsAddress line = none) (plain : Plain line)
      (spells : Spells line action pattern)

theorem names_read {line : Str} {lineNo : Nat} {names : List Str} {outcomes : List ParsedList}
    (read : List.Forall₂ (NameRead line lineNo) names outcomes) :
    (together outcomes).rules ≠ [] ↔ ∃ name ∈ names, ValidDomain (lowerStrip name) := by
  induction read with
  | nil => simp [together]
  | @cons name outcome _ _ first _ ih =>
      have split : ∀ others : List ParsedList,
          (together (outcome :: others)).rules = outcome.rules ++ (together others).rules :=
        fun others => List.flatMap_cons
      rw [split, List.exists_mem_cons_iff, ← ih]
      rcases first with good | bad
      · simp [good.1, good.2, ParsedList.rule]
      · simp [bad.1, bad.2, ParsedList.issue]

/-- A line hands out rules exactly if it is a rule line. -/
theorem lineRead_rules {line : Str} {lineNo : Nat} {part : ParsedList}
    (read : LineRead line lineNo part) : part.rules ≠ [] ↔ RuleLine line := by
  cases address : hostsAddress line with
  | some ip =>
      have only : RuleLine line → (ip.isUnspecified || ip.isLoopback) = true ∧
          ∃ name ∈ hostsNames line, ValidDomain (lowerStrip name) := by
        intro rule
        cases rule with
        | hosts other sink member valid =>
            rw [address] at other
            cases other
            exact ⟨sink, _, member, valid⟩
        | spelled _ other =>
            rw [address] at other
            cases other
      by_cases sink : (ip.isUnspecified || ip.isLoopback) = true
      · obtain ⟨outcomes, names, rfl⟩ := read.sink ip address sink
        rw [names_read names]
        constructor
        · intro found
          obtain ⟨name, member, valid⟩ := found
          exact .hosts address sink member valid
        · exact fun rule => (only rule).2
      · constructor
        · intro some_rule
          exfalso
          by_cases local_ : hostsNames line = []
          · rw [read.silent.mpr (.inr ⟨by rw [address]; rfl, local_⟩)] at some_rule
            exact some_rule rfl
          · rw [read.routable ip address sink local_] at some_rule
            exact some_rule rfl
        · exact fun rule => absurd (only rule).1 sink
  | none =>
      constructor
      · intro some_rule
        have loud : ¬ Silent line := by
          intro silent
          rw [read.silent.mpr silent] at some_rule
          exact some_rule rfl
        rcases read.one loud address with ⟨rule, same⟩ | ⟨reason, same⟩
        · obtain ⟨plain, spells, _⟩ := (read.rule loud address rule).mp same
          exact .spelled (fun comment => loud (.inl comment)) address plain spells
        · rw [same] at some_rule
          exact absurd rfl some_rule
      · intro rule
        cases rule with
        | hosts other =>
            rw [address] at other
            cases other
        | @spelled action pattern loud _ plain spells =>
            have not_silent : ¬ Silent line := by
              intro silent
              rcases silent with comment | ⟨hosts, _⟩
              · exact loud comment
              · rw [address] at hosts
                cases hosts
            have same := (read.rule not_silent address
              { action, pattern, text := line, line := lineNo }).mpr ⟨plain, spells, rfl, rfl⟩
            rw [same]
            exact List.cons_ne_nil _ _

theorem countRules_zero_iff (text : Str) :
    (countRules text).rules = 0 ↔ ∀ raw ∈ lines text, ¬ RuleLine (trim raw) := by
  have each : ∀ raw ∈ (lines text).zipIdx,
      (parseRaw raw.1 raw.2).rules = [] ↔ ¬ RuleLine (trim raw.1) := by
    intro raw _
    rw [← lineRead_rules (parseRaw_read raw.1 raw.2), not_not]
  simp only [countRules]
  rw [List.length_eq_zero_iff, parseList_rules, List.flatMap_eq_nil_iff]
  constructor
  · intro none raw member
    obtain ⟨index, bound, found⟩ := List.mem_iff_getElem.mp member
    have numbered : (raw, index) ∈ (lines text).zipIdx :=
      List.mem_zipIdx_iff_getElem?.mpr (by simp [← found])
    exact (each _ numbered).mp (none _ numbered)
  · intro none raw member
    exact (each raw member).mpr (none raw.1 (List.fst_mem_of_mem_zipIdx member))

/-! ### Pages -/

namespace Response

/-- The text of the whole body. -/
def page (response : Response) : Str := decodeBody response.chunks.flatten

/-- A body that is announced or turns out too large, or that breaks off. -/
def Refused (response : Response) : Prop :=
  response.contentLength.any (MAX_LIST_BYTES < ·) = true ∨
    MAX_LIST_BYTES < response.chunks.flatten.length ∨ response.failed.isSome = true

end Response

/-- A successful response that carries a markup page. -/
structure MarkupPage (response : Response) : Prop where
  success : response.isSuccess = true
  opens : (response.page.dropWhile isWhitespace).head? = some '<'

/-- Whatever a host is asked, it answers this. -/
def Answers (response : Response) : World → (op : Op) → Reply op → Prop
  | _, .send _ _, reply => reply = .ok response
  | _, _, _ => True

/-- A fetch that is answered so fails, and leaves the stored copy and its ETag alone. -/
def KeepsList (response : Response) : Prop :=
  ∀ url listDir name world after result,
    Returns effect (Answers response) world
      (fetchWithEtag url (storedPath listDir name) (etagPath listDir name)) after result →
    (∃ reason, result = .error reason) ∧
      after.disk (storedPath listDir name) = world.disk (storedPath listDir name) ∧
      after.disk (etagPath listDir name) = world.disk (etagPath listDir name)

section Receive

variable {body : List UInt8} {chunks : List (List UInt8)}

theorem receive_whole (fits : body.length + chunks.flatten.length ≤ MAX_LIST_BYTES) :
    receive body chunks none = .ok (body ++ chunks.flatten) := by
  induction chunks generalizing body with
  | nil => simp [receive]
  | cons chunk rest ih =>
      rw [List.flatten_cons, List.length_append] at fits
      rw [receive, if_neg (by omega), ih (by rw [List.length_append]; omega), List.flatten_cons,
        List.append_assoc]

theorem receive_refused {failed : Option String}
    (refused : MAX_LIST_BYTES < body.length + chunks.flatten.length ∨ failed.isSome = true)
    (fits : body.length ≤ MAX_LIST_BYTES) :
    ∃ reason, receive body chunks failed = .error reason := by
  induction chunks generalizing body with
  | nil =>
      cases failed with
      | none =>
          simp only [List.flatten_nil, List.length_nil, Option.isSome_none, Bool.false_eq_true,
            or_false] at refused
          omega
      | some err => exact ⟨err, rfl⟩
  | cons chunk rest ih =>
      rw [receive]
      split
      · exact ⟨_, rfl⟩
      · next small =>
        apply ih
        · rw [List.flatten_cons, List.length_append] at refused
          rw [List.length_append]
          exact refused.imp_left (by omega)
        · rw [List.length_append]
          omega

end Receive

section Bodies

variable {response : Response}

theorem Response.body_refused (refused : response.Refused) :
    ∃ reason, response.body = .error reason := by
  simp only [Response.body]
  split
  · exact ⟨_, rfl⟩
  · split
    · exact ⟨_, rfl⟩
    · next fits =>
      apply receive_refused _ (Nat.zero_le _)
      rw [List.length_nil, Nat.zero_add]
      exact refused.resolve_left fits

theorem Response.body_whole (success : response.isSuccess = true) (kept : ¬ response.Refused) :
    response.body = .ok response.chunks.flatten := by
  obtain ⟨announced, rest⟩ := not_or.mp kept
  obtain ⟨fits, whole⟩ := not_or.mp rest
  have complete : response.failed = none := by
    simpa using whole
  simp only [Response.body]
  rw [success, Bool.not_true, if_neg (by decide), if_neg announced, complete, receive_whole]
  · rfl
  · simpa using fits

/-- A body that is refused, or that holds no rule, is an error and no file changes. -/
theorem download_refused (stored etag : Str)
    (condition : response.Refused ∨ ∀ raw ∈ lines response.page, ¬ RuleLine (trim raw)) :
    ∃ reason, download stored etag response = .done (.error reason) := by
  simp only [download]
  cases received : response.body with
  | error reason => exact ⟨reason, rfl⟩
  | ok body =>
      have kept : ¬ response.Refused := by
        intro refused
        obtain ⟨reason, same⟩ := response.body_refused refused
        rw [received] at same
        cases same
      have whole := response.body_whole (response.body_success received) kept
      rw [received] at whole
      cases whole
      have none : (countRules (decodeBody response.chunks.flatten)).rules = 0 :=
        (countRules_zero_iff _).mpr (condition.resolve_left kept)
      dsimp only
      rw [if_pos none]
      exact ⟨_, rfl⟩

theorem not_modified (success : response.isSuccess = true) : response.status ≠ 304 := by
  intro same
  simp [Response.isSuccess, same] at success

theorem fetch_refused (url stored etag : Str) (world : World) (success : response.isSuccess = true)
    (condition : response.Refused ∨ ∀ raw ∈ lines response.page, ¬ RuleLine (trim raw)) :
    Ensures effect (.considering (Answers response))
      (fun after result => (∃ reason, result = .error reason) ∧ Unchanged world after)
      (fetchWithEtag url stored etag) world := by
  apply ensures_bind
  apply ensures_mono _ (unchanged_of_all (all_storedEtag rfl rfl))
  intro asked ifNoneMatch same
  refine ⟨trivial, trivial, ?_⟩
  intro reply middle effected answered
  have reads : ReadsOnly (.send url ifNoneMatch) := rfl
  have unchanged : Unchanged world middle := (unchanged_of_readsOnly reads effected).trans same
  obtain rfl : reply = .ok response := answered
  obtain ⟨reason, refused⟩ := download_refused stored etag condition
  change Ensures _ _ _ (if response.status = 304 then confirm stored
    else download stored etag response) _
  rw [if_neg (not_modified success), refused]
  exact ⟨⟨reason, rfl⟩, unchanged⟩

/-- A page that holds a rule line is taken for a list. -/
theorem fetch_taken (url stored etag : Str) (world : World) (success : response.isSuccess = true)
    (kept : ¬ response.Refused) {raw : Str} (member : raw ∈ lines response.page)
    (rule : RuleLine (trim raw)) :
    Ensures effect (.considering (Answers response))
      (fun _ result => ∃ acquired, result = .ok acquired ∧ acquired.text = response.page)
      (fetchWithEtag url stored etag) world := by
  have some_rule : (countRules (decodeBody response.chunks.flatten)).rules ≠ 0 :=
    fun none => (countRules_zero_iff _).mp none raw member rule
  apply ensures_bind
  apply ensures_mono _ (ensures_free _ world)
  intro asked ifNoneMatch _
  refine ⟨trivial, trivial, ?_⟩
  intro reply middle _ answered
  obtain rfl : reply = .ok response := answered
  change Ensures _ _ _ (if response.status = 304 then confirm stored
    else download stored etag response) _
  rw [if_neg (not_modified success)]
  simp only [download]
  rw [response.body_whole success kept]
  dsimp only
  rw [if_neg some_rule]
  apply ensures_bind
  apply ensures_mono _ (ensures_free _ middle)
  exact fun _ _ _ => ⟨_, rfl, rfl⟩

/-- Whatever the host answers, every operation can go on: the files may all fail. -/
theorem replies (world : World) (op : Op) :
    ∃ reply after, effect world op reply = some after ∧ Answers response world op reply := by
  cases op with
  | isFile path => exact ⟨false, world, rfl, trivial⟩
  | readToString path => exact ⟨.error "unreadable", world, rfl, trivial⟩
  | send url ifNoneMatch => exact ⟨.ok response, _, rfl, rfl⟩
  | touch path => exact ⟨.ok (), world, rfl, trivial⟩
  | ageOf path => exact ⟨none, world, rfl, trivial⟩
  | write path bytes => exact ⟨.error ⟨"full", none⟩, _, rfl, trivial⟩
  | rename source target => exact ⟨.error "denied", world, rfl, trivial⟩
  | remove path => exact ⟨.error "denied", world, rfl, trivial⟩

end Bodies

/-- A markup page never replaces a list, exactly when it is not received whole or none of its
lines stands for a rule. -/
theorem markup_refused_iff {response : Response} (page : MarkupPage response) :
    KeepsList response ↔
      response.Refused ∨ ∀ raw ∈ lines response.page, ¬ RuleLine (trim raw) := by
  constructor
  · intro keeps
    by_contra neither
    obtain ⟨kept, some_line⟩ := not_or.mp neither
    apply some_line
    intro raw member rule
    have taken := fetch_taken [] (storedPath [] []) (etagPath [] []) emptyDir page.success kept
      member rule
    obtain ⟨after, result, returns⟩ := returns_some replies
      (fetchWithEtag [] (storedPath [] []) (etagPath [] [])) emptyDir
    obtain ⟨acquired, ok, _⟩ := post_of_returns taken returns
    obtain ⟨⟨reason, error⟩, _⟩ := keeps [] [] [] emptyDir after result returns
    rw [ok] at error
    cases error
  · intro condition url listDir name world after result returns
    obtain ⟨error, unchanged⟩ := post_of_returns
      (fetch_refused url (storedPath listDir name) (etagPath listDir name) world page.success
        condition) returns
    exact ⟨error, congrFun unchanged _, congrFun unchanged _⟩

/-! ### A sign-in page -/

def signInPage : String := "<html>\n<body>\nPlease sign in to continue\n</body>\n</html>\n"

/-- The same, with the words one below the other. -/
def stackedPage : String := "<html>\n<body>\nLogin\n</body>\n</html>\n"

theorem sign_in_page_refused : KeepsList (bodyServed none signInPage) :=
  (markup_refused_iff ⟨rfl, rfl⟩).mpr (.inr ((countRules_zero_iff _).mp (by decide +kernel)))

def adsStored : World :=
  emptyDir.put (storedPath [] "ads".toList) (some (asBytes "||ads.com^".toList))

/-- The stored blocklist is replaced by a page with one word on a line. -/
theorem stacked_page_replaces :
    MarkupPage (bodyServed none stackedPage) ∧ ¬ KeepsList (bodyServed none stackedPage) ∧
      ∃ after acquired, Returns effect (Answers (bodyServed none stackedPage)) adsStored
          (fetchWithEtag [] (storedPath [] "ads".toList) (etagPath [] "ads".toList)) after
          (.ok acquired) ∧
        after.disk (storedPath [] "ads".toList) = some (asBytes stackedPage.toList) := by
  have replaced : ∃ after acquired, Returns effect (Answers (bodyServed none stackedPage)) adsStored
      (fetchWithEtag [] (storedPath [] "ads".toList) (etagPath [] "ads".toList)) after
      (.ok acquired) ∧
      after.disk (storedPath [] "ads".toList) = some (asBytes stackedPage.toList) := by
    refine ⟨_, _, .perform true rfl trivial (.perform (.error "gone") rfl trivial
      (.perform (.ok (bodyServed none stackedPage)) rfl rfl (.perform (.ok ()) rfl trivial
        (.perform (.ok ()) rfl trivial (.perform (.error "gone") rfl trivial (.done _ _)))))), rfl⟩
  refine ⟨⟨rfl, rfl⟩, fun keeps => ?_, replaced⟩
  obtain ⟨after, acquired, returns, _⟩ := replaced
  obtain ⟨⟨reason, error⟩, _⟩ := keeps _ _ _ _ _ _ returns
  cases error

end Sumidero.Lists
