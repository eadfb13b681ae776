import Sumidero.Server.Answers

namespace Sumidero.Server

open Text Dns Cache Sumidero.Filter

/-! CNAME cloaking: a blocked name behind an alias.  Every answer taken from the cache or
from upstream is checked, except the records of a safe-search endpoint. -/

/-- What the cache or a lookup gives for a name, if anything. -/
def Pipeline.finds (proto : Proto) (pipeline : Pipeline) (request : Message) (qname : Str)
    (qtype : RecordType) (now : Instant) : Option Message :=
  (proto.fromAscii qname).bind fun name =>
    let key := CacheKey.new name qtype (Pipeline.queryClass request)
    match pipeline.lookup key now with
    | .Fresh cached => some cached
    | .Stale cached => some cached
    | .Miss =>
        if (pipeline.failures.held key now).isSome then none
        else pipeline.delivered ((pipeline.lookups key).getD request)

@[simp] theorem Pipeline.idle_policy (policy : Policy) (delivered : Message → Option Message) :
    (idle policy delivered).policy = policy := rfl

theorem Pipeline.finds_idle (proto : Proto) (policy : Policy)
    (delivered : Message → Option Message) (request : Message) (qname : Str) (qtype : RecordType)
    (now : Instant) : (idle policy delivered).finds proto request qname qtype now =
      (proto.fromAscii qname).bind fun _ => delivered request := rfl

/-- Resolution adopts what is found, or else reports a failure of its own. -/
theorem resolveCached_cases (proto : Proto) (pipeline : Pipeline) (request : Message)
    (qname : Str) (qtype : RecordType) (now : Instant) :
    (∃ found, pipeline.finds proto request qname qtype now = some found ∧
        (pipeline.resolveCached proto request qname qtype now).response =
          restamp proto found request) ∨
      pipeline.finds proto request qname qtype now = none ∧
        ∃ code, code ≠ .NoError ∧
          (pipeline.resolveCached proto request qname qtype now).response =
            (responseSkeleton request).withResponseCode code := by
  simp only [Pipeline.finds, Pipeline.resolveCached]
  cases proto.fromAscii qname with
  | none => exact .inr ⟨rfl, .FormErr, by simp, rfl⟩
  | some name =>
      simp only [Option.bind_some]
      generalize CacheKey.new name qtype (Pipeline.queryClass request) = key
      cases pipeline.lookup key now with
      | Fresh cached => exact .inl ⟨cached, rfl, rfl⟩
      | Stale cached => exact .inl ⟨cached, rfl, rfl⟩
      | Miss =>
          dsimp only
          split
          · exact .inr ⟨rfl, .ServFail, by simp, rfl⟩
          · simp only [Pipeline.resolveShared]
            cases pipeline.lookups key with
            | some leader =>
                dsimp only [Option.getD_some]
                cases pipeline.delivered leader with
                | some answer => exact .inl ⟨answer, rfl, rfl⟩
                | none => exact .inr ⟨rfl, .ServFail, by simp, rfl⟩
            | none =>
                dsimp only [Option.getD_none]
                cases pipeline.delivered request with
                | some answer => exact .inl ⟨answer, rfl, rfl⟩
                | none => exact .inr ⟨rfl, .ServFail, by simp, rfl⟩

/-! ### The check -/

/-- Whether the engine blocks a name of a message. -/
def Proto.blocks (proto : Proto) (engine : LoadedEngine) (name : Name) : Prop :=
  (engine.verdict (normalizeQname (proto.toAscii name))).kind = .Block

/-- A CNAME of the answer leads to a blocked name. -/
def Cloaks (proto : Proto) (engine : LoadedEngine) (msg : Message) : Prop :=
  ∃ record ∈ msg.answers, ∃ target, record.data = .CNAME target ∧ proto.blocks engine target

theorem blockedCnameTarget_eq_none {proto : Proto} {engine : LoadedEngine} {msg : Message} :
    blockedCnameTarget proto engine msg = none ↔ ¬ Cloaks proto engine msg := by
  unfold blockedCnameTarget Cloaks Proto.blocks
  rw [List.findSome?_eq_none_iff]
  constructor
  · intro passes cloaked
    obtain ⟨record, member, target, data, blocked⟩ := cloaked
    have passed := passes record member
    rw [data] at passed
    dsimp only at passed
    cases verdict : engine.verdict (normalizeQname (proto.toAscii target)) with
    | Block list rule =>
        rw [verdict] at passed
        cases passed
    | Except list rule =>
        rw [verdict] at blocked
        cases blocked
    | NoMatch =>
        rw [verdict] at blocked
        cases blocked
  · intro uncloaked record member
    split
    · next target data =>
      dsimp only
      cases verdict : engine.verdict (normalizeQname (proto.toAscii target)) with
      | Block list rule =>
          exact absurd ⟨record, member, target, data, by rw [verdict]; rfl⟩ uncloaked
      | Except list rule => rfl
      | NoMatch => rfl
    · rfl

theorem not_cloaks_of_no_answers {proto : Proto} {engine : LoadedEngine} {msg : Message}
    (none : msg.answers = []) : ¬ Cloaks proto engine msg := by
  intro cloaked
  obtain ⟨record, member, _⟩ := cloaked
  rw [none] at member
  cases member

theorem not_cloaks_synthesized {proto : Proto} {engine : LoadedEngine}
    {request response : Message} (synthesized : Synthesized proto request response) :
    ¬ Cloaks proto engine response := by
  apply not_cloaks_of_no_answers
  rcases synthesized with ⟨code, same⟩ | same
  · rw [same]
    simp
  · rw [same]
    simp [synthBlockResponse, Message.addAuthority]

theorem cloaks_restamp {proto : Proto} (documented : proto.Documented) {engine : LoadedEngine}
    {msg request : Message} (asked : request.queries ≠ []) :
    Cloaks proto engine (restamp proto msg request) ↔ Cloaks proto engine msg := by
  simp only [Cloaks]
  rw [restamp_answers documented msg asked]
  constructor
  · intro cloaked
    obtain ⟨record, member, leads⟩ := cloaked
    exact ⟨record, (List.mem_filter.mp member).1, leads⟩
  · intro cloaked
    obtain ⟨record, member, target, data, blocked⟩ := cloaked
    refine ⟨record, List.mem_filter.mpr ⟨member, ?_⟩, target, data, blocked⟩
    have kind : record.recordType = .CNAME := by rw [Record.recordType, data]; rfl
    simp [Proto.handsOn, kind, documented.cname]

/-- What is resolved for a name is handed on, or replaced if the name is unexcepted and a
CNAME leads to a blocked one. -/
theorem answerResolved_cases (proto : Proto) (pipeline : Pipeline) (request : Message)
    (qname : Str) (qtype : RecordType) (log : QueryRecord) (now : Instant) :
    let resolved := (pipeline.resolveCached proto request qname qtype now).response
    let response := (pipeline.answerResolved proto request qname qtype log now).response
    (log.verdict = .Excepted ∨ ¬ Cloaks proto pipeline.policy.engine resolved) ∧
        response = resolved ∨
      (log.verdict ≠ .Excepted ∧ Cloaks proto pipeline.policy.engine resolved) ∧
        response = synthBlockResponse proto request := by
  unfold Pipeline.answerResolved
  dsimp only
  by_cases excepted : log.verdict = .Excepted
  · rw [if_neg (not_not_intro excepted)]
    exact .inl ⟨.inl excepted, rfl⟩
  · rw [if_pos excepted]
    cases checked : blockedCnameTarget proto pipeline.policy.engine
        (pipeline.resolveCached proto request qname qtype now).response with
    | some hit =>
        refine .inr ⟨⟨excepted, ?_⟩, rfl⟩
        by_contra uncloaked
        rw [blockedCnameTarget_eq_none.mpr uncloaked] at checked
        cases checked
    | none => exact .inl ⟨.inr (blockedCnameTarget_eq_none.mp checked), rfl⟩

theorem answerResolved_not_cloaks {proto : Proto} {pipeline : Pipeline} {request : Message}
    {qname : Str} {qtype : RecordType} {log : QueryRecord} {now : Instant}
    (unexcepted : log.verdict ≠ .Excepted) :
    ¬ Cloaks proto pipeline.policy.engine
      (pipeline.answerResolved proto request qname qtype log now).response := by
  rcases answerResolved_cases proto pipeline request qname qtype log now with
    ⟨passes, same⟩ | ⟨_, same⟩
  · rw [same]
    exact passes.resolve_left unexcepted
  · rw [same]
    exact not_cloaks_synthesized (.inr rfl)

/-! ### Safe search -/

/-- The endpoint of a rewrite is blocked, or the answer found for it is an alias of a
blocked name. -/
def Pipeline.EndpointCloaked (proto : Proto) (pipeline : Pipeline) (request : Message)
    (qname : Str) (qtype : RecordType) (target : Str) (now : Instant) : Prop :=
  ∃ owner endpoint, proto.fromAscii (qname ++ ['.']) = some owner ∧
    proto.fromAscii (target ++ ['.']) = some endpoint ∧
    (proto.blocks pipeline.policy.engine endpoint ∨
      ∃ found, pipeline.finds proto (Pipeline.targetQuery request endpoint qtype) target qtype now =
          some found ∧ found.responseCode = .NoError ∧ Cloaks proto pipeline.policy.engine found)

theorem targetQuery_queries (request : Message) (target : Name) (qtype : RecordType) :
    (Pipeline.targetQuery request target qtype).queries = [Query.query target qtype] := rfl

/-- An answer that begins with the CNAME to the endpoint. -/
theorem cloaks_leading {proto : Proto} {engine : LoadedEngine} {msg : Message}
    (owner endpoint : Name) {records : List Record}
    (leads : msg.answers =
      Record.fromRdata owner SAFESEARCH_CNAME_TTL (.CNAME endpoint) :: records) :
    Cloaks proto engine msg ↔ proto.blocks engine endpoint ∨
      ∃ record ∈ records, ∃ target, record.data = .CNAME target ∧ proto.blocks engine target := by
  rw [Cloaks, leads]
  simp [Record.fromRdata]

theorem answerSafesearch_cloaks {proto : Proto} (documented : proto.Documented)
    {pipeline : Pipeline} {request : Message} {qname : Str} {qtype : RecordType} {target : Str}
    {now : Instant} :
    Cloaks proto pipeline.policy.engine
        (pipeline.answerSafesearch proto request qname qtype target now).1 ↔
      pipeline.EndpointCloaked proto request qname qtype target now := by
  simp only [Pipeline.answerSafesearch, Pipeline.EndpointCloaked]
  cases owned : proto.fromAscii (qname ++ ['.']) with
  | none =>
      constructor
      · intro cloaked
        exact absurd cloaked (not_cloaks_of_no_answers (by simp))
      · intro endpoint
        obtain ⟨_, _, absent, _⟩ := endpoint
        cases absent
  | some owner =>
      cases ended : proto.fromAscii (target ++ ['.']) with
      | none =>
          constructor
          · intro cloaked
            exact absurd cloaked (not_cloaks_of_no_answers (by simp))
          · intro endpoint
            obtain ⟨_, _, _, absent, _⟩ := endpoint
            cases absent
      | some endpoint =>
          have asked : (Pipeline.targetQuery request endpoint qtype).queries ≠ [] := by
            simp [targetQuery_queries]
          have alone : (((responseSkeleton request).withResponseCode .NoError).addAnswer
              (Record.fromRdata owner SAFESEARCH_CNAME_TTL (.CNAME endpoint))).answers =
                [Record.fromRdata owner SAFESEARCH_CNAME_TTL (.CNAME endpoint)] := by
            simp only [Message.addAnswer, Message.withResponseCode_answers,
              responseSkeleton_answers, List.nil_append]
          rcases resolveCached_cases proto pipeline
              (Pipeline.targetQuery request endpoint qtype) target qtype now with
            ⟨found, finds, response⟩ | ⟨finds, code, failed, response⟩
          · dsimp only
            rw [response, restamp_responseCode documented found asked]
            by_cases noError : found.responseCode = .NoError
            · have answers : Cloaks proto pipeline.policy.engine found ↔
                  ∃ record ∈ (restamp proto found
                    (Pipeline.targetQuery request endpoint qtype)).answers, ∃ target,
                    record.data = .CNAME target ∧ proto.blocks pipeline.policy.engine target :=
                (cloaks_restamp documented asked).symm
              rw [if_pos noError, cloaks_leading owner endpoint, ← answers]
              · simp [finds, noError]
              · simp only [foldl_addAnswer, alone, List.singleton_append]
            · rw [if_neg noError, cloaks_leading owner endpoint
              ((Message.withResponseCode_answers _ _).trans alone)]
              simp [finds, noError]
          · dsimp only
            rw [response, if_neg (by simpa using failed), cloaks_leading owner endpoint
              ((Message.withResponseCode_answers _ _).trans alone)]
            simp [finds]

/-! ### Every path -/

/-- For an unexcepted name no answer carries a CNAME to a blocked name, unless safe search
rewrites the name and its endpoint is cloaked. -/
theorem chain_blocked_iff {proto : Proto} (documented : proto.Documented) (pipeline : Pipeline)
    (request : Message) (client : Net.IpAddr) (now : Instant)
    (unexcepted : ∀ query, request.queries.head? = some query →
      (pipeline.policy.engine.verdict (proto.qname query)).kind ≠ .Except) :
    ¬ Cloaks proto pipeline.policy.engine
        (pipeline.handleAt proto request client now).response ↔
      ∀ query target, pipeline.Admits proto request client query →
        pipeline.policy.safesearch.rewrite (proto.qname query) = some target →
        ¬ pipeline.EndpointCloaked proto request (proto.qname query) query.queryType target
          now := by
  by_cases admitted : ∃ query, pipeline.Admits proto request client query
  · obtain ⟨query, admits⟩ := admitted
    obtain ⟨log, excepted, handled⟩ :=
      pipeline.handleAt_admitted proto request client now admits
    have plain : log.verdict ≠ .Excepted := fun mark =>
      unexcepted query admits.asked (excepted.mp mark)
    have same : ∀ other, pipeline.Admits proto request client other → other = query := by
      intro other admits_other
      exact Option.some.inj (admits_other.asked.symm.trans admits.asked)
    rw [handled, Pipeline.answerUnblocked]
    cases rewritten : pipeline.policy.safesearch.rewrite (proto.qname query) with
    | none =>
        constructor
        · intro _ other target admits_other rewritten_other
          rw [same other admits_other, rewritten] at rewritten_other
          cases rewritten_other
        · intro _
          exact answerResolved_not_cloaks plain
    | some target =>
        dsimp only [finish]
        rw [answerSafesearch_cloaks documented]
        constructor
        · intro uncloaked other goal admits_other rewritten_other
          rw [same other admits_other] at rewritten_other ⊢
          rw [rewritten] at rewritten_other
          cases rewritten_other
          exact uncloaked
        · intro uncloaked
          exact uncloaked query target admits rewritten
  · have refused : ∀ query, ¬ pipeline.Admits proto request client query := by
      simpa using admitted
    constructor
    · intro _ query target admits
      exact absurd admits (refused query)
    · intro _
      exact not_cloaks_synthesized (pipeline.handleAt_refused proto request client now refused).1

/-- An upstream that answers everything with a CNAME to `tracker.test`. -/
def trackingUpstream (sent : Message) : Option Message :=
  let answer := sent.queries.foldl Message.addQuery (Message.new 0 .Response .Query)
  some (sent.queries.foldl (fun msg query => msg.addAnswer
    (Record.fromRdata query.name 60 (.CNAME (plainName "tracker.test.")))) answer)

theorem trackerEngine : ∃ engine, LoadedEngine.load .insertion ["||tracker.test^".toList] =
    some engine := by
  apply Option.isSome_iff_exists.mp
  decide

def bingQuestion : Query := Query.query (plainName "www.bing.com.") .A

/-- Without safe search the same upstream's alias is caught. -/
theorem tracking_alias_blocked : ∃ engine,
    LoadedEngine.load .insertion ["||tracker.test^".toList] = some engine ∧
      ¬ Cloaks plainProto engine ((Pipeline.idle
        { engine, safesearch := { enabled := 0 }, allow := everyone }
        trackingUpstream).handleAt plainProto (Message.asking 7 bingQuestion) laptop atStart).response := by
  obtain ⟨engine, loaded⟩ := trackerEngine
  have unmatched : (engine.verdict (plainProto.qname bingQuestion)).kind = .NoMatch :=
    (LoadedEngine.kind_of_load loaded _ (.inr (by decide))).trans (by decide)
  refine ⟨engine, loaded, (chain_blocked_iff plainProto_documented _ _ _ _ ?_).mpr ?_⟩
  · intro query asked
    cases asked
    rw [Pipeline.idle_policy, unmatched]
    decide
  · intro query target admits rewritten
    have asked := admits.asked
    cases asked
    have none_rewritten : SafeSearch.rewrite { enabled := 0 } (plainProto.qname bingQuestion) =
        none := by decide
    rw [Pipeline.idle_policy, none_rewritten] at rewritten
    cases rewritten

/-- The enforced endpoint of a search host answers with an alias of a blocked name, and the
client gets it. -/
theorem strict_endpoint_cloaked : ∃ engine,
    LoadedEngine.load .insertion ["||tracker.test^".toList] = some engine ∧
      (engine.verdict (plainProto.qname bingQuestion)).kind = .NoMatch ∧
      Cloaks plainProto engine ((Pipeline.idle
        { engine, safesearch := { enabled := BING }, allow := everyone }
        trackingUpstream).handleAt plainProto (Message.asking 7 bingQuestion) laptop atStart).response := by
  obtain ⟨engine, loaded⟩ := trackerEngine
  have unmatched : (engine.verdict (plainProto.qname bingQuestion)).kind = .NoMatch :=
    (LoadedEngine.kind_of_load loaded _ (.inr (by decide))).trans (by decide)
  have blocked : plainProto.blocks engine (plainName "tracker.test.") :=
    (LoadedEngine.kind_of_load loaded _ (.inr (by decide))).trans (by decide)
  refine ⟨engine, loaded, unmatched, ?_⟩
  have admits : (Pipeline.idle { engine, safesearch := { enabled := BING }, allow := everyone }
      trackingUpstream).Admits plainProto (Message.asking 7 bingQuestion) laptop bingQuestion :=
    { room := Nat.zero_lt_succ _
      asked := rfl
      allowed := rfl
      kind := by decide
      unblocked := by
        rw [Pipeline.idle, unmatched]
        decide }
  obtain ⟨log, _, handled⟩ := Pipeline.handleAt_admitted plainProto _ _ _ _ admits
  have rewritten : SafeSearch.rewrite { enabled := BING } (plainProto.qname bingQuestion) =
      some "strict.bing.com".toList := by decide
  rw [handled, Pipeline.answerUnblocked]
  dsimp only [Pipeline.idle_policy]
  rw [rewritten]
  apply (answerSafesearch_cloaks plainProto_documented).mpr
  refine ⟨plainName "www.bing.com.", plainName "strict.bing.com.", rfl, rfl, .inr ?_⟩
  rw [Pipeline.finds_idle]
  refine ⟨_, rfl, rfl, _, List.mem_cons_self, _, rfl, blocked⟩

end Sumidero.Server
