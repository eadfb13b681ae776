import Sumidero.Server.Cloaking

namespace Sumidero.Server

open Text Dns Cache Sumidero.Filter

/-! What leaves the house: the messages handed upstream on behalf of one request. -/

/-- The request for a name goes upstream: it leads a lookup, or a serve-stale refresh. -/
def Pipeline.AsksUpstream (proto : Proto) (pipeline : Pipeline) (request : Message) (qname : Str)
    (qtype : RecordType) (now : Instant) : Prop :=
  ∃ name, proto.fromAscii qname = some name ∧
    let key := CacheKey.new name qtype (Pipeline.queryClass request)
    match pipeline.lookup key now with
    | .Fresh _ => False
    | .Stale _ => pipeline.refreshing key = false ∧ pipeline.refreshHeld key = false
    | .Miss => pipeline.failures.held key now = none ∧ pipeline.lookups key = none

/-- A message handed upstream asks a question of the client's whose name the engine blocks. -/
def LeaksBlocked (proto : Proto) (engine : LoadedEngine) (request : Message)
    (forwarded : List Message) : Prop :=
  ∃ sent ∈ forwarded, ∃ question ∈ request.queries,
    question ∈ sent.queries ∧ proto.blocks engine question.name

variable {proto : Proto}

theorem resolveShared_forwarded (pipeline : Pipeline) (request : Message) (key : CacheKey) :
    (pipeline.resolveShared proto request key).forwarded =
      if (pipeline.lookups key).isSome then [] else [request] := by
  simp only [Pipeline.resolveShared]
  cases pipeline.lookups key with
  | some leader =>
      dsimp only
      cases pipeline.delivered leader <;> rfl
  | none =>
      dsimp only
      cases pipeline.delivered request <;> rfl

/-- What resolution hands upstream is the request itself, if anything. -/
theorem mem_resolveCached_forwarded (pipeline : Pipeline) (request : Message) (qname : Str)
    (qtype : RecordType) (now : Instant) (sent : Message) :
    sent ∈ (pipeline.resolveCached proto request qname qtype now).forwarded ↔
      sent = request ∧ pipeline.AsksUpstream proto request qname qtype now := by
  simp only [Pipeline.AsksUpstream, Pipeline.resolveCached]
  cases proto.fromAscii qname with
  | none => simp [ResolvedQuery.unasked]
  | some name =>
      simp only [Option.some.injEq, exists_eq_left']
      generalize CacheKey.new name qtype (Pipeline.queryClass request) = key
      cases pipeline.lookup key now with
      | Fresh cached => simp [ResolvedQuery.unasked]
      | Stale cached =>
          cases running : pipeline.refreshing key <;> cases held : pipeline.refreshHeld key <;>
            simp [Pipeline.spawnRefresh, running, held]
      | Miss =>
          dsimp only
          cases held : pipeline.failures.held key now with
          | some left => simp [ResolvedQuery.unasked]
          | none =>
              simp only [Option.isSome_none, Bool.false_eq_true, if_false, true_and]
              rw [resolveShared_forwarded]
              cases pipeline.lookups key <;> simp

theorem not_leaksBlocked_nil {engine : LoadedEngine} {request : Message} :
    ¬ LeaksBlocked proto engine request [] := by
  intro leaks
  obtain ⟨sent, member, _⟩ := leaks
  cases member

theorem leaksBlocked_resolveCached (pipeline : Pipeline) (request : Message) (qname : Str)
    (qtype : RecordType) (now : Instant) :
    LeaksBlocked proto pipeline.policy.engine request
        (pipeline.resolveCached proto request qname qtype now).forwarded ↔
      pipeline.AsksUpstream proto request qname qtype now ∧
        ∃ question ∈ request.queries, proto.blocks pipeline.policy.engine question.name := by
  simp only [LeaksBlocked]
  simp only [mem_resolveCached_forwarded]
  constructor
  · intro leaks
    obtain ⟨_, ⟨rfl, asks⟩, question, asked, _, blocked⟩ := leaks
    exact ⟨asks, question, asked, blocked⟩
  · intro leaks
    obtain ⟨asks, question, asked, blocked⟩ := leaks
    exact ⟨request, ⟨rfl, asks⟩, question, asked, asked, blocked⟩

theorem answerResolved_forwarded (pipeline : Pipeline) (request : Message) (qname : Str)
    (qtype : RecordType) (log : QueryRecord) (now : Instant) :
    (pipeline.answerResolved proto request qname qtype log now).forwarded =
      (pipeline.resolveCached proto request qname qtype now).forwarded := by
  unfold Pipeline.answerResolved
  dsimp only
  split
  · split <;> rfl
  · rfl

/-- The enforced endpoint that is asked for in the request's place. -/
def Pipeline.AsksEndpoint (proto : Proto) (pipeline : Pipeline) (request : Message)
    (qname : Str) (qtype : RecordType) (target : Str) (endpoint : Name) (now : Instant) : Prop :=
  (proto.fromAscii (qname ++ ['.'])).isSome = true ∧
    proto.fromAscii (target ++ ['.']) = some endpoint ∧
    pipeline.AsksUpstream proto (Pipeline.targetQuery request endpoint qtype) target qtype now

theorem leaksBlocked_answerSafesearch (pipeline : Pipeline) (request : Message) (qname : Str)
    (qtype : RecordType) (target : Str) (now : Instant) :
    LeaksBlocked proto pipeline.policy.engine request
        (pipeline.answerSafesearch proto request qname qtype target now).2 ↔
      ∃ endpoint, pipeline.AsksEndpoint proto request qname qtype target endpoint now ∧
        Query.query endpoint qtype ∈ request.queries ∧
        proto.blocks pipeline.policy.engine endpoint := by
  simp only [Pipeline.answerSafesearch, Pipeline.AsksEndpoint]
  cases proto.fromAscii (qname ++ ['.']) with
  | none => simp [not_leaksBlocked_nil]
  | some owner =>
      cases proto.fromAscii (target ++ ['.']) with
      | none => simp [not_leaksBlocked_nil]
      | some endpoint =>
          dsimp only
          rw [apply_ite Prod.snd, ite_self]
          simp only [LeaksBlocked]
          simp only [mem_resolveCached_forwarded]
          constructor
          · intro leaks
            obtain ⟨_, ⟨rfl, asks⟩, question, asked, sent, blocked⟩ := leaks
            rw [targetQuery_queries, List.mem_singleton] at sent
            subst sent
            exact ⟨endpoint, ⟨rfl, rfl, asks⟩, asked, blocked⟩
          · intro leaks
            obtain ⟨_, ⟨_, same, asks⟩, asked, blocked⟩ := leaks
            cases same
            exact ⟨_, ⟨rfl, asks⟩, _, asked, List.mem_singleton_self _, blocked⟩

/-- A blocked question leaves the house exactly if a lookup is started for the request
while one of its questions is blocked, or safe search asks for an endpoint that is itself
such a question. -/
theorem blocked_stays_home_iff (pipeline : Pipeline) (request : Message) (client : Net.IpAddr)
    (now : Instant) :
    ¬ LeaksBlocked proto pipeline.policy.engine request
        (pipeline.handleAt proto request client now).forwarded ↔
      ∀ query, pipeline.Admits proto request client query →
        (pipeline.policy.safesearch.rewrite (proto.qname query) = none →
          pipeline.AsksUpstream proto request (proto.qname query) query.queryType now →
          ∀ question ∈ request.queries, ¬ proto.blocks pipeline.policy.engine question.name) ∧
        ∀ target, pipeline.policy.safesearch.rewrite (proto.qname query) = some target →
          ∀ endpoint,
            pipeline.AsksEndpoint proto request (proto.qname query) query.queryType target
              endpoint now →
            Query.query endpoint query.queryType ∈ request.queries →
            ¬ proto.blocks pipeline.policy.engine endpoint := by
  by_cases admitted : ∃ query, pipeline.Admits proto request client query
  · obtain ⟨query, admits⟩ := admitted
    obtain ⟨log, _, handled⟩ := pipeline.handleAt_admitted proto request client now admits
    have only : ∀ (motive : Query → Prop),
        (∀ other, pipeline.Admits proto request client other → motive other) ↔ motive query := by
      intro motive
      constructor
      · intro all
        exact all query admits
      · intro holds other admits_other
        have same := admits_other.asked.symm.trans admits.asked
        cases same
        exact holds
    rw [handled, Pipeline.answerUnblocked, only]
    cases pipeline.policy.safesearch.rewrite (proto.qname query) with
    | some target =>
        dsimp only [finish]
        rw [leaksBlocked_answerSafesearch]
        simp
    | none =>
        dsimp only
        rw [answerResolved_forwarded, leaksBlocked_resolveCached]
        simp
  · have refused : ∀ query, ¬ pipeline.Admits proto request client query := by
      simpa using admitted
    rw [(pipeline.handleAt_refused proto request client now refused).2]
    constructor
    · intro _ query admits
      exact absurd admits (refused query)
    · intro _
      exact not_leaksBlocked_nil

/-- One query that asks for an unblocked name first and for a blocked one second. -/
def twoQuestions : Message :=
  (Message.asking 7 shopQuestion).addQuery
    (Query.query (plainName "tracker.test.") .A)

/-- Only the first question is judged; the lookup asks both. -/
theorem second_question_leaks : ∃ engine,
    LoadedEngine.load .insertion ["||tracker.test^".toList] = some engine ∧
      LeaksBlocked plainProto engine twoQuestions ((Pipeline.idle
        { engine, safesearch := { enabled := 0 }, allow := everyone }
        trackingUpstream).handleAt plainProto twoQuestions laptop atStart).forwarded := by
  obtain ⟨engine, loaded⟩ := trackerEngine
  have unmatched : (engine.verdict "shop.test".toList).kind = .NoMatch :=
    (LoadedEngine.kind_of_load loaded _ (.inr (by decide))).trans (by decide)
  have blocked : plainProto.blocks engine (plainName "tracker.test.") :=
    (LoadedEngine.kind_of_load loaded _ (.inr (by decide))).trans (by decide)
  have admits : (Pipeline.idle { engine, safesearch := { enabled := 0 }, allow := everyone }
      trackingUpstream).Admits plainProto twoQuestions laptop shopQuestion :=
    { room := Nat.zero_lt_succ _
      asked := rfl
      allowed := rfl
      kind := by decide
      unblocked := by
        have name : plainProto.qname shopQuestion = "shop.test".toList := by decide
        rw [Pipeline.idle_policy, name, unmatched]
        decide }
  obtain ⟨log, _, handled⟩ := Pipeline.handleAt_admitted plainProto _ _ _ _ admits
  have rewritten : SafeSearch.rewrite { enabled := 0 } (plainProto.qname shopQuestion) = none := by
    decide
  refine ⟨engine, loaded, ?_⟩
  rw [handled, Pipeline.answerUnblocked]
  dsimp only [Pipeline.idle_policy]
  rw [rewritten]
  dsimp only
  rw [answerResolved_forwarded]
  apply (leaksBlocked_resolveCached _ _ _ _ _).mpr
  exact ⟨⟨_, rfl, rfl, rfl⟩, _, List.mem_cons_of_mem _ List.mem_cons_self, blocked⟩

end Sumidero.Server
