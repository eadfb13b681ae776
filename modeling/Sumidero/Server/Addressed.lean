import Sumidero.Server.Cloaking

namespace Sumidero.Server

open Text Dns Cache Sumidero.Filter

/-! To whom an answer is addressed.  One message may be adopted for many clients, whose
requests agree only in the key of the cache. -/

/-- A response that a client can take for the answer to its request. -/
structure Addressed (proto : Proto) (request response : Message) : Prop where
  id : response.metadata.id = request.metadata.id
  kind : response.metadata.messageType = .Response
  available : response.metadata.recursionAvailable = true
  desired : response.metadata.recursionDesired = request.metadata.recursionDesired
  questions : response.queries = request.queries
  edns : response.edns.map Edns.dnssecOk = request.edns.map Edns.dnssecOk
  asked : clientWantsDnssec request = false →
    ∀ record ∈ response.answers ++ response.authorities ++ response.additionals,
      proto.isDnssec record.recordType = true →
      ∃ query ∈ request.queries, query.queryType = record.recordType

variable {proto : Proto} {request : Message}

/-! ### Messages of the pipeline's own making -/

theorem responseSkeleton_metadata : (responseSkeleton request).metadata =
    { (Message.new request.metadata.id .Response .Query).metadata with
      recursionDesired := request.metadata.recursionDesired
      recursionAvailable := true } := by
  simp [responseSkeleton, foldl_addQuery]

theorem skeleton_addressed {response : Message} {code : ResponseCode}
    (metadata : response.metadata = { (responseSkeleton request).metadata with
      responseCode := code })
    (questions : response.queries = (responseSkeleton request).queries)
    (edns : response.edns = (responseSkeleton request).edns)
    (asked : ∀ record ∈ response.answers ++ response.authorities ++ response.additionals,
      proto.isDnssec record.recordType = true →
      ∃ query ∈ request.queries, query.queryType = record.recordType) :
    Addressed proto request response where
  id := by simp [metadata, responseSkeleton_metadata, Message.new]
  kind := by simp [metadata, responseSkeleton_metadata, Message.new]
  available := by simp [metadata, responseSkeleton_metadata]
  desired := by simp [metadata, responseSkeleton_metadata]
  questions := questions.trans (responseSkeleton_queries request)
  edns := by rw [edns, responseSkeleton_edns]
  asked := fun _ => asked

theorem synthesized_addressed (documented : proto.Documented) {response : Message}
    (synthesized : Synthesized proto request response) : Addressed proto request response := by
  rcases synthesized with ⟨code, rfl⟩ | rfl
  · apply skeleton_addressed
    case metadata => exact rfl
    case questions => rfl
    case edns => rfl
    case asked => simp [Message.withResponseCode]
  · apply skeleton_addressed
    case metadata => exact rfl
    case questions => rfl
    case edns => rfl
    case asked =>
      simp [synthBlockResponse, Message.addAuthority, Message.withResponseCode,
        Record.fromRdata, Record.recordType, RData.recordType, documented.soa]

/-! ### Adopted messages -/

/-- The question of an adopted message is one of the queried type. -/
def Asks (msg request : Message) (qtype : RecordType) : Prop :=
  (adoptedQueries msg request).head?.map Query.queryType = some qtype

theorem handsOn_asked {msg : Message} {qtype : RecordType} (asks : Asks msg request qtype)
    (wants : clientWantsDnssec request = false) {record : Record}
    (handed : proto.handsOn msg request record = true)
    (dnssec : proto.isDnssec record.recordType = true) : qtype = record.recordType := by
  obtain ⟨query, first, kind⟩ := Option.map_eq_some_iff.mp asks
  simpa [Proto.handsOn, wants, dnssec, first, kind] using handed

/-- An adopted message is addressed to the client exactly if it asks what the client asked. -/
theorem restamp_addressed (documented : proto.Documented) {msg : Message} {query : Query}
    (one : request.queries = [query]) (asks : Asks msg request query.queryType) :
    Addressed proto request (restamp proto msg request) ↔
      adoptedQueries msg request = request.queries := by
  have asked : request.queries ≠ [] := by simp [one]
  have metadata := restamp_metadata documented msg asked
  constructor
  · intro addressed
    rw [← restamp_queries documented msg asked]
    exact addressed.questions
  · intro same
    exact
      { id := by rw [metadata]
        kind := by rw [metadata]
        available := by rw [metadata]
        desired := by rw [metadata]
        questions := by rw [restamp_queries documented msg asked, same]
        edns := restamp_edns msg
        asked := by
          intro wants record member dnssec
          rw [restamp_answers documented msg asked, restamp_authorities documented msg asked,
            restamp_additionals documented msg asked] at member
          simp only [← List.filter_append] at member
          have kind := handsOn_asked asks wants (List.mem_filter.mp member).2 dnssec
          exact ⟨query, by simp [one], kind⟩ }

theorem lookup_queries (pipeline : Pipeline) {key : CacheKey} {now : Instant} {cached : Message}
    (hit : pipeline.lookup key now = .Fresh cached ∨ pipeline.lookup key now = .Stale cached) :
    cached.queries = [] := by
  obtain ⟨after, ran⟩ := pipeline.lookup_run key now
  obtain ⟨entry, ttl, built⟩ := pipeline.cacheSound.get_built ran hit
  rw [built]
  rfl

/-! ### Shared lookups -/

/-- Upstream echoes the questions it is sent. -/
def Pipeline.Echoes (pipeline : Pipeline) : Prop :=
  ∀ sent answer, pipeline.delivered sent = some answer → answer.queries = sent.queries

/-- The request waits for a lookup that another request leads. -/
def Pipeline.Joins (proto : Proto) (pipeline : Pipeline) (request : Message) (qname : Str)
    (qtype : RecordType) (now : Instant) (leader : Message) : Prop :=
  ∃ name, proto.fromAscii qname = some name ∧
    let key := CacheKey.new name qtype (Pipeline.queryClass request)
    pipeline.lookup key now = .Miss ∧ pipeline.failures.held key now = none ∧
      pipeline.lookups key = some leader

/-- A request that finds no lookup for its key leads one. -/
def Pipeline.leading (pipeline : Pipeline) (request : Message) (key : CacheKey)
    (asked : request.queries.head?.map Query.queryType = some key.rtype) : Pipeline :=
  { pipeline with
    lookups := fun other => if other = key then some request else pipeline.lookups other
    led := by
      intro other leader found
      split at found
      · next same =>
        cases found
        rw [same, asked]
      · exact pipeline.led other leader found }

section Lookups

variable {pipeline : Pipeline} {qname : Str} {qtype : RecordType} {now : Instant}
  {leader found : Message}

theorem finds_of_joins (joins : pipeline.Joins proto request qname qtype now leader) :
    pipeline.finds proto request qname qtype now = pipeline.delivered leader := by
  obtain ⟨name, parsed, miss, free, led⟩ := joins
  simp [Pipeline.finds, parsed, miss, free, led]

theorem joins_led (joins : pipeline.Joins proto request qname qtype now leader) :
    leader.queries.head?.map Query.queryType = some qtype := by
  obtain ⟨name, _, _, _, led⟩ := joins
  exact pipeline.led _ _ led

theorem adopted_of_joins (echoes : pipeline.Echoes)
    (joins : pipeline.Joins proto request qname qtype now leader)
    (delivered : pipeline.delivered leader = some found) :
    adoptedQueries found request = leader.queries := by
  have led := joins_led joins
  rw [adoptedQueries, echoes _ _ delivered, if_neg]
  intro empty
  rw [List.isEmpty_iff.mp empty] at led
  cases led

theorem adopted_of_not_joins (echoes : pipeline.Echoes)
    (alone : ∀ leader, ¬ pipeline.Joins proto request qname qtype now leader)
    (finds : pipeline.finds proto request qname qtype now = some found) :
    adoptedQueries found request = request.queries := by
  unfold Pipeline.finds at finds
  unfold adoptedQueries
  obtain ⟨name, parsed, finds⟩ := Option.bind_eq_some_iff.mp finds
  dsimp only at finds
  cases hit : pipeline.lookup (CacheKey.new name qtype (Pipeline.queryClass request)) now with
  | Fresh cached =>
      rw [hit] at finds
      cases finds
      simp [lookup_queries pipeline (.inl hit)]
  | Stale cached =>
      rw [hit] at finds
      cases finds
      simp [lookup_queries pipeline (.inr hit)]
  | Miss =>
      rw [hit] at finds
      dsimp only at finds
      split at finds
      · cases finds
      · next free =>
        cases led : pipeline.lookups (CacheKey.new name qtype (Pipeline.queryClass request)) with
        | some leader =>
            exact absurd ⟨name, parsed, hit, by simpa using free, led⟩ (alone leader)
        | none =>
            rw [led] at finds
            rw [echoes _ _ finds]
            split <;> rfl

/-- What is found is asked in the questions of the request, or of the leader it follows. -/
theorem adopted_iff (echoes : pipeline.Echoes)
    (finds : pipeline.finds proto request qname qtype now = some found) :
    adoptedQueries found request = request.queries ↔
      ∀ leader, pipeline.Joins proto request qname qtype now leader →
        leader.queries = request.queries := by
  constructor
  · intro same leader joins
    rw [finds_of_joins joins] at finds
    rw [← adopted_of_joins echoes joins finds, same]
  · intro agrees
    by_cases joined : ∃ leader, pipeline.Joins proto request qname qtype now leader
    · obtain ⟨leader, joins⟩ := joined
      rw [finds_of_joins joins] at finds
      rw [adopted_of_joins echoes joins finds, agrees leader joins]
    · exact adopted_of_not_joins echoes (by simpa using joined) finds

theorem finds_asks (echoes : pipeline.Echoes)
    (asked : request.queries.head?.map Query.queryType = some qtype)
    (finds : pipeline.finds proto request qname qtype now = some found) :
    Asks found request qtype := by
  simp only [Asks]
  by_cases joined : ∃ leader, pipeline.Joins proto request qname qtype now leader
  · obtain ⟨leader, joins⟩ := joined
    rw [finds_of_joins joins] at finds
    rw [adopted_of_joins echoes joins finds]
    exact joins_led joins
  · rw [adopted_of_not_joins echoes (by simpa using joined) finds]
    exact asked

/-- For a request without the DO bit, resolution answers with no DNSSEC records but those of
the queried type. -/
theorem resolveCached_asked (documented : proto.Documented) (echoes : pipeline.Echoes)
    (asked : request.queries.head?.map Query.queryType = some qtype)
    (wants : clientWantsDnssec request = false) {record : Record}
    (member : record ∈ (pipeline.resolveCached proto request qname qtype now).response.answers)
    (dnssec : proto.isDnssec record.recordType = true) : qtype = record.recordType := by
  rcases resolveCached_cases proto pipeline request qname qtype now with
    ⟨found, finds, response⟩ | ⟨_, code, _, response⟩
  · have some_question : request.queries ≠ [] := by
      intro none
      rw [none] at asked
      cases asked
    rw [response, restamp_answers documented found some_question] at member
    exact handsOn_asked (finds_asks echoes asked finds) wants (List.mem_filter.mp member).2 dnssec
  · rw [response] at member
    simp at member

end Lookups

/-! ### Safe search -/

theorem answerSafesearch_addressed (documented : proto.Documented) {pipeline : Pipeline}
    (echoes : pipeline.Echoes) {query : Query} (one : request.queries = [query]) (qname target : Str)
    (now : Instant) :
    Addressed proto request
      (pipeline.answerSafesearch proto request qname query.queryType target now).1 := by
  simp only [Pipeline.answerSafesearch]
  cases proto.fromAscii (qname ++ ['.']) with
  | none => exact synthesized_addressed documented (.inl ⟨.ServFail, rfl⟩)
  | some owner =>
      cases proto.fromAscii (target ++ ['.']) with
      | none => exact synthesized_addressed documented (.inl ⟨.ServFail, rfl⟩)
      | some endpoint =>
          dsimp only
          generalize sent : Pipeline.targetQuery request endpoint query.queryType = asking
          have asked : asking.queries.head?.map Query.queryType = some query.queryType := by
            rw [← sent]
            rfl
          have wants : clientWantsDnssec asking = false := by
            rw [← sent]
            rfl
          have owned : proto.isDnssec (Record.fromRdata owner SAFESEARCH_CNAME_TTL
              (.CNAME endpoint)).recordType = false := documented.cname
          split
          · rw [foldl_addAnswer]
            apply skeleton_addressed
            case metadata => exact rfl
            case questions => rfl
            case edns => rfl
            case asked =>
              intro record member dnssec
              simp only [Message.withResponseCode, Message.addAnswer, responseSkeleton_answers,
                responseSkeleton_authorities, responseSkeleton_additionals, List.nil_append,
                List.append_nil, List.singleton_append] at member
              refine ⟨query, by simp [one], ?_⟩
              rcases List.mem_cons.mp member with same | found
              · rw [same, owned] at dnssec
                cases dnssec
              · exact resolveCached_asked documented echoes asked wants found dnssec
          · apply skeleton_addressed
            case metadata => exact rfl
            case questions => rfl
            case edns => rfl
            case asked =>
              intro record member dnssec
              simp only [Message.withResponseCode, Message.addAnswer, responseSkeleton_answers,
                responseSkeleton_authorities, responseSkeleton_additionals, List.nil_append,
                List.append_nil, List.mem_singleton] at member
              rw [member, owned] at dnssec
              cases dnssec

/-! ### Every path -/

/-- Resolution answers its own request, unless it hands on what a leader with other
questions got. -/
theorem answerResolved_addressed (documented : proto.Documented) {pipeline : Pipeline}
    (echoes : pipeline.Echoes) {query : Query} (one : request.queries = [query]) {qname : Str}
    {log : QueryRecord} {now : Instant} :
    Addressed proto request
        (pipeline.answerResolved proto request qname query.queryType log now).response ↔
      ∀ leader answer, pipeline.Joins proto request qname query.queryType now leader →
        pipeline.delivered leader = some answer →
        (log.verdict = .Excepted ∨ ¬ Cloaks proto pipeline.policy.engine answer) →
        leader.queries = request.queries := by
  have asked : request.queries.head?.map Query.queryType = some query.queryType := by simp [one]
  have some_question : request.queries ≠ [] := by simp [one]
  have passed := answerResolved_cases proto pipeline request qname query.queryType log now
  rcases resolveCached_cases proto pipeline request qname query.queryType now with
    ⟨found, finds, resolved⟩ | ⟨missing, code, _, resolved⟩
  · have delivers : ∀ leader, pipeline.Joins proto request qname query.queryType now leader →
        pipeline.delivered leader = some found := by
      intro leader joins
      rw [← finds_of_joins joins, finds]
    have cloaked : Cloaks proto pipeline.policy.engine (restamp proto found request) ↔
        Cloaks proto pipeline.policy.engine found := cloaks_restamp documented some_question
    dsimp only at passed
    rw [resolved, cloaked] at passed
    rcases passed with ⟨passes, same⟩ | ⟨⟨plain, hidden⟩, same⟩
    · rw [same, restamp_addressed documented one (finds_asks echoes asked finds),
        adopted_iff echoes finds]
      constructor
      · intro agrees leader _ joins _ _
        exact agrees leader joins
      · intro agrees leader joins
        exact agrees leader found joins (delivers leader joins) passes
    · rw [same]
      constructor
      · intro _ leader answer joins delivered handed
        cases (delivers leader joins).symm.trans delivered
        exact (handed.elim plain fun uncloaked => uncloaked hidden).elim
      · intro _
        exact synthesized_addressed documented (.inr rfl)
  · have own : Synthesized proto request
        (pipeline.answerResolved proto request qname query.queryType log now).response := by
      dsimp only at passed
      rw [resolved] at passed
      rcases passed with ⟨_, same⟩ | ⟨_, same⟩
      · exact .inl ⟨code, same⟩
      · exact .inr same
    constructor
    · intro _ leader answer joins delivered _
      rw [finds_of_joins joins, delivered] at missing
      cases missing
    · intro _
      exact synthesized_addressed documented own

/-- The request's answer is a follower's: another request leads the lookup it waits for, and
what that delivers is handed on. -/
structure Pipeline.Follows (proto : Proto) (pipeline : Pipeline) (request : Message)
    (client : Net.IpAddr) (query : Query) (now : Instant) (leader answer : Message) : Prop where
  admits : pipeline.Admits proto request client query
  unrewritten : pipeline.policy.safesearch.rewrite (proto.qname query) = none
  joins : pipeline.Joins proto request (proto.qname query) query.queryType now leader
  delivered : pipeline.delivered leader = some answer
  handed : (pipeline.policy.engine.verdict (proto.qname query)).kind = .Except ∨
    ¬ Cloaks proto pipeline.policy.engine answer

/-- Every answer is addressed to its own request, unless it is a follower's and the leader
asked in other words. -/
theorem addressed_iff (documented : proto.Documented) (pipeline : Pipeline)
    (echoes : pipeline.Echoes) (client : Net.IpAddr) (now : Instant) {query : Query}
    (one : request.queries = [query]) :
    Addressed proto request (pipeline.handleAt proto request client now).response ↔
      ∀ leader answer, pipeline.Follows proto request client query now leader answer →
        leader.queries = request.queries := by
  by_cases admits : pipeline.Admits proto request client query
  · obtain ⟨log, excepted, handled⟩ :=
      pipeline.handleAt_admitted proto request client now admits
    rw [handled, Pipeline.answerUnblocked]
    cases rewritten : pipeline.policy.safesearch.rewrite (proto.qname query) with
    | some target =>
        constructor
        · intro _ leader answer follows
          rw [follows.unrewritten] at rewritten
          cases rewritten
        · intro _
          exact answerSafesearch_addressed documented echoes one _ _ _
    | none =>
        dsimp only
        rw [answerResolved_addressed documented echoes one]
        constructor
        · intro agrees leader answer follows
          exact agrees leader answer follows.joins follows.delivered
            (follows.handed.imp_left excepted.mpr)
        · intro agrees leader answer joins delivered handed
          exact agrees leader answer
            ⟨admits, rewritten, joins, delivered, handed.imp_left excepted.mp⟩
  · have refused : ∀ other, ¬ pipeline.Admits proto request client other := by
      intro other admits_other
      have asked := admits_other.asked
      rw [one] at asked
      cases asked
      exact admits admits_other
    constructor
    · intro _ leader answer follows
      exact absurd follows.admits admits
    · intro _
      exact synthesized_addressed documented
        (pipeline.handleAt_refused proto request client now refused).1

/-- An upstream that answers with the questions and no record. -/
def echoingUpstream (sent : Message) : Option Message :=
  some { Message.new 0 .Response .Query with queries := sent.queries }

def shoutedQuestion : Query := Query.query (plainName "SHOP.test.") .A

theorem alone_addressed : ∃ engine,
    LoadedEngine.load .insertion ["||tracker.test^".toList] = some engine ∧
      Addressed plainProto (Message.asking 7 shoutedQuestion) ((Pipeline.idle
        { engine, safesearch := { enabled := 0 }, allow := everyone }
        echoingUpstream).handleAt plainProto (Message.asking 7 shoutedQuestion) laptop atStart).response := by
  obtain ⟨engine, loaded⟩ := trackerEngine
  refine ⟨engine, loaded, (addressed_iff plainProto_documented _ ?_ _ _ rfl).mpr ?_⟩
  · intro sent answer delivered
    cases delivered
    rfl
  · intro leader answer follows
    obtain ⟨_, _, _, _, led⟩ := follows.joins
    cases led

/-- Another client's lookup of the name is in flight. -/
def joinedPipeline (engine : LoadedEngine) : Pipeline :=
  (Pipeline.idle { engine, safesearch := { enabled := 0 }, allow := everyone }
    echoingUpstream).leading (Message.asking 7 shopQuestion)
      (CacheKey.new (plainName "shop.test") .A .IN) rfl

/-- A client that shouts gets the question of the one that asked first. -/
theorem follower_misaddressed : ∃ engine,
    LoadedEngine.load .insertion ["||tracker.test^".toList] = some engine ∧
      (joinedPipeline engine).Echoes ∧
      ¬ Addressed plainProto (Message.asking 8 shoutedQuestion)
        ((joinedPipeline engine).handleAt plainProto (Message.asking 8 shoutedQuestion) laptop atStart).response := by
  obtain ⟨engine, loaded⟩ := trackerEngine
  have unmatched : (engine.verdict "shop.test".toList).kind = .NoMatch :=
    (LoadedEngine.kind_of_load loaded _ (.inr (by decide))).trans (by decide)
  have name : plainProto.qname shoutedQuestion = "shop.test".toList := by decide
  have echoes : (joinedPipeline engine).Echoes := by
    intro sent answer delivered
    cases delivered
    rfl
  have admits : (joinedPipeline engine).Admits plainProto (Message.asking 8 shoutedQuestion) laptop
      shoutedQuestion :=
    { room := Nat.zero_lt_succ _
      asked := rfl
      allowed := rfl
      kind := by decide
      unblocked := by
        change (engine.verdict (plainProto.qname shoutedQuestion)).kind ≠ .Block
        rw [name, unmatched]
        decide }
  have rewritten : (joinedPipeline engine).policy.safesearch.rewrite
      (plainProto.qname shoutedQuestion) = none := by
    change SafeSearch.rewrite { enabled := 0 } (plainProto.qname shoutedQuestion) = none
    decide
  refine ⟨engine, loaded, echoes, ?_⟩
  obtain ⟨log, _, handled⟩ := Pipeline.handleAt_admitted plainProto _ _ _ atStart admits
  rw [handled, Pipeline.answerUnblocked, rewritten]
  dsimp only
  rw [answerResolved_addressed plainProto_documented echoes rfl, name]
  intro agrees
  have joins : (joinedPipeline engine).Joins plainProto (Message.asking 8 shoutedQuestion)
      "shop.test".toList shoutedQuestion.queryType atStart
      (Message.asking 7 shopQuestion) := ⟨plainName "shop.test", rfl, rfl, rfl, rfl⟩
  have same := agrees _ _ joins rfl (.inr (not_cloaks_of_no_answers rfl))
  exact absurd same (by decide)

end Sumidero.Server
