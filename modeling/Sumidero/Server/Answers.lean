import Sumidero.Server.Pipeline

namespace Sumidero.Server

open Text Dns Cache Sumidero.Filter

/-! What the pipeline's responses are made of, and the ways a request is answered. -/

/-- The documented behaviour of the record filter: a message with a question loses, when the
client did not ask for DNSSEC, the DNSSEC records of other types than the queried one. -/
structure Proto.Documented (proto : Proto) : Prop where
  keeps : ∀ msg, proto.maybeStripDnssecRecords msg true = msg
  strips : ∀ msg query, msg.queries.head? = some query →
    proto.maybeStripDnssecRecords msg false =
      let kept := fun record : Record =>
        !proto.isDnssec record.recordType || record.recordType = query.queryType
      { msg with
        answers := msg.answers.filter kept
        authorities := msg.authorities.filter kept
        additionals := msg.additionals.filter kept }
  cname : proto.isDnssec .CNAME = false
  soa : proto.isDnssec .SOA = false

/-- The library on names without escapes, with one DNSSEC type (RRSIG). -/
def plainProto : Proto where
  toAscii name :=
    ['.'].intercalate (name.labels.map fun label => label.map fun byte => Char.ofNat byte.toNat) ++
      if name.isFqdn then ['.'] else []
  fromAscii text :=
    let body := (stripSuffix text ['.']).getD text
    some
      { labels := (body.splitOn '.').map fun label => label.map fun c => c.toNat.toUInt8
        isFqdn := (stripSuffix text ['.']).isSome }
  isDnssec kind := kind = .Unknown 46
  maybeStripDnssecRecords msg wanted :=
    match wanted, msg.queries.head? with
    | false, some query =>
        let kept := fun record : Record =>
          !decide (record.recordType = .Unknown 46) || record.recordType = query.queryType
        { msg with
          answers := msg.answers.filter kept
          authorities := msg.authorities.filter kept
          additionals := msg.additionals.filter kept }
    | _, _ => msg
  mname := rfl
  rname := rfl

theorem plainProto_documented : plainProto.Documented where
  keeps := fun _ => rfl
  strips := by
    intro msg query asked
    simp only [plainProto, asked]
  cname := rfl
  soa := rfl

def plainName (text : String) : Name := (plainProto.fromAscii text.toList).get rfl

def shopQuestion : Query := Query.query (plainName "shop.test.") .A

def everyone : List IpNet := [{ contains := fun _ => true }]

def laptop : Net.IpAddr := .V4 [192, 168, 1, 7]

theorem origin_inRange : 0 < 2 ^ 63 * 1000000000 := by decide

def atStart : Instant := ⟨0, origin_inRange⟩

/-! ### Skeletons -/

theorem foldl_addQuery (queries : List Query) (msg : Message) :
    queries.foldl Message.addQuery msg = { msg with queries := msg.queries ++ queries } := by
  induction queries generalizing msg with
  | nil => simp
  | cons query rest ih => simp [ih, Message.addQuery]

theorem foldl_addAnswer (records : List Record) (msg : Message) :
    records.foldl Message.addAnswer msg = { msg with answers := msg.answers ++ records } := by
  induction records generalizing msg with
  | nil => simp
  | cons record rest ih => simp [ih, Message.addAnswer]

section Edns

variable (resp request : Message)

@[simp] theorem applyEdns_metadata : (applyEdns resp request).metadata = resp.metadata := by
  simp only [applyEdns]
  split <;> rfl

@[simp] theorem applyEdns_queries : (applyEdns resp request).queries = resp.queries := by
  simp only [applyEdns]
  split <;> rfl

@[simp] theorem applyEdns_answers : (applyEdns resp request).answers = resp.answers := by
  simp only [applyEdns]
  split <;> rfl

@[simp] theorem applyEdns_authorities :
    (applyEdns resp request).authorities = resp.authorities := by
  simp only [applyEdns]
  split <;> rfl

@[simp] theorem applyEdns_additionals :
    (applyEdns resp request).additionals = resp.additionals := by
  simp only [applyEdns]
  split <;> rfl

theorem applyEdns_edns : (applyEdns resp request).edns.map Edns.dnssecOk =
    request.edns.map Edns.dnssecOk := by
  simp only [applyEdns]
  cases edns : request.edns with
  | none => simp
  | some opt => simp [clientWantsDnssec, edns]

end Edns

@[simp] theorem responseSkeleton_queries (request : Message) :
    (responseSkeleton request).queries = request.queries := by
  simp [responseSkeleton, foldl_addQuery, Message.new]

@[simp] theorem responseSkeleton_answers (request : Message) :
    (responseSkeleton request).answers = [] := by
  simp [responseSkeleton, foldl_addQuery, Message.new]

@[simp] theorem responseSkeleton_authorities (request : Message) :
    (responseSkeleton request).authorities = [] := by
  simp [responseSkeleton, foldl_addQuery, Message.new]

@[simp] theorem responseSkeleton_additionals (request : Message) :
    (responseSkeleton request).additionals = [] := by
  simp [responseSkeleton, foldl_addQuery, Message.new]

theorem responseSkeleton_edns (request : Message) :
    (responseSkeleton request).edns.map Edns.dnssecOk = request.edns.map Edns.dnssecOk :=
  applyEdns_edns _ _

/-! ### Adopted messages -/

/-- The questions of an adopted message. -/
def adoptedQueries (msg request : Message) : List Query :=
  if msg.queries.isEmpty then request.queries else msg.queries

/-- Whether a record of an adopted message goes to the client. -/
def Proto.handsOn (proto : Proto) (msg request : Message) (record : Record) : Bool :=
  clientWantsDnssec request || !proto.isDnssec record.recordType ||
    (adoptedQueries msg request).head?.any fun query => query.queryType = record.recordType

theorem adoptedQueries_ne_nil {request : Message} (msg : Message) (asked : request.queries ≠ []) :
    adoptedQueries msg request ≠ [] := by
  simp only [adoptedQueries]
  split
  · exact asked
  · next some_query => simpa using some_query

section Restamp

variable {proto : Proto} {request : Message}

theorem restamp_eq (documented : proto.Documented) (msg : Message)
    (asked : request.queries ≠ []) :
    restamp proto msg request = applyEdns
      { msg with
        metadata := { msg.metadata with
          id := request.metadata.id
          messageType := .Response
          recursionDesired := request.metadata.recursionDesired
          recursionAvailable := true }
        queries := adoptedQueries msg request
        answers := msg.answers.filter (proto.handsOn msg request)
        authorities := msg.authorities.filter (proto.handsOn msg request)
        additionals := msg.additionals.filter (proto.handsOn msg request) } request := by
  let stamped : Message := { msg with
    metadata := { msg.metadata with
      id := request.metadata.id
      messageType := .Response
      recursionDesired := request.metadata.recursionDesired
      recursionAvailable := true } }
  have questions : (if stamped.queries.isEmpty then request.queries.foldl Message.addQuery stamped
      else stamped) = { stamped with queries := adoptedQueries msg request } := by
    simp only [adoptedQueries]
    by_cases empty : msg.queries.isEmpty
    · rw [if_pos empty, if_pos empty, foldl_addQuery]
      simp [stamped, List.isEmpty_iff.mp empty]
    · rw [if_neg empty, if_neg empty]
  obtain ⟨query, rest, first⟩ := List.exists_cons_of_ne_nil (adoptedQueries_ne_nil msg asked)
  unfold restamp
  dsimp only
  rw [questions]
  congr 1
  cases wants : clientWantsDnssec request with
  | true =>
      have all : proto.handsOn msg request = fun _ => true := by
        funext record
        simp [Proto.handsOn, wants]
      rw [documented.keeps, all]
      simp [stamped]
  | false =>
      have some_kept : proto.handsOn msg request = fun record : Record =>
          !proto.isDnssec record.recordType || record.recordType = query.queryType := by
        funext record
        simp [Proto.handsOn, wants, first, eq_comm]
      rw [documented.strips _ query (by rw [first]; rfl), some_kept]

theorem restamp_metadata (documented : proto.Documented) (msg : Message)
    (asked : request.queries ≠ []) : (restamp proto msg request).metadata =
      { msg.metadata with
        id := request.metadata.id
        messageType := .Response
        recursionDesired := request.metadata.recursionDesired
        recursionAvailable := true } := by
  rw [restamp_eq documented msg asked, applyEdns_metadata]

theorem restamp_queries (documented : proto.Documented) (msg : Message)
    (asked : request.queries ≠ []) :
    (restamp proto msg request).queries = adoptedQueries msg request := by
  rw [restamp_eq documented msg asked, applyEdns_queries]

theorem restamp_answers (documented : proto.Documented) (msg : Message)
    (asked : request.queries ≠ []) : (restamp proto msg request).answers =
      msg.answers.filter (proto.handsOn msg request) := by
  rw [restamp_eq documented msg asked, applyEdns_answers]

theorem restamp_authorities (documented : proto.Documented) (msg : Message)
    (asked : request.queries ≠ []) : (restamp proto msg request).authorities =
      msg.authorities.filter (proto.handsOn msg request) := by
  rw [restamp_eq documented msg asked, applyEdns_authorities]

theorem restamp_additionals (documented : proto.Documented) (msg : Message)
    (asked : request.queries ≠ []) : (restamp proto msg request).additionals =
      msg.additionals.filter (proto.handsOn msg request) := by
  rw [restamp_eq documented msg asked, applyEdns_additionals]

theorem restamp_edns (msg : Message) : (restamp proto msg request).edns.map Edns.dnssecOk =
    request.edns.map Edns.dnssecOk := applyEdns_edns _ _

theorem restamp_responseCode (documented : proto.Documented) (msg : Message)
    (asked : request.queries ≠ []) :
    (restamp proto msg request).responseCode = msg.responseCode := by
  rw [Message.responseCode, restamp_metadata documented msg asked]
  rfl

end Restamp

/-! ### The ways a request is answered -/

/-- A response of the pipeline's own making. -/
def Synthesized (proto : Proto) (request response : Message) : Prop :=
  (∃ code, response = (responseSkeleton request).withResponseCode code) ∨
    response = synthBlockResponse proto request

/-- The normalized name of a question. -/
def Proto.qname (proto : Proto) (query : Query) : Str := normalizeQname (proto.toAscii query.name)

namespace Pipeline

variable (proto : Proto) (pipeline : Pipeline) (request : Message) (client : Net.IpAddr)

/-- The request's first question passes every check before safe search. -/
structure Admits (query : Query) : Prop where
  room : pipeline.inFlight < MAX_IN_FLIGHT_QUERIES
  asked : request.queries.head? = some query
  allowed : clientAllowed pipeline.policy.allow client = true
  kind : query.queryType ≠ .ANY
  unblocked : (pipeline.policy.engine.verdict (proto.qname query)).kind ≠ .Block

/-- What is answered without a look at cache or upstream. -/
theorem handleAt_refused (now : Instant)
    (refused : ∀ query, ¬ pipeline.Admits proto request client query) :
    Synthesized proto request (pipeline.handleAt proto request client now).response ∧
      (pipeline.handleAt proto request client now).forwarded = [] := by
  simp only [handleAt]
  split
  · exact ⟨.inl ⟨_, rfl⟩, rfl⟩
  · next room =>
    cases asked : request.queries.head? with
    | none => exact ⟨.inl ⟨_, rfl⟩, rfl⟩
    | some query =>
        dsimp only
        split
        · exact ⟨.inl ⟨_, rfl⟩, rfl⟩
        · next allowed =>
          split
          · exact ⟨.inl ⟨_, rfl⟩, rfl⟩
          · next kind =>
            split
            · exact ⟨.inr rfl, rfl⟩
            · next list rule excepted =>
              refine absurd ⟨by omega, asked, by simpa using allowed, kind, ?_⟩ (refused query)
              rw [Proto.qname, excepted]
              simp [Verdict.kind]
            · next unmatched =>
              refine absurd ⟨by omega, asked, by simpa using allowed, kind, ?_⟩ (refused query)
              rw [Proto.qname, unmatched]
              simp [Verdict.kind]

/-- What is admitted is answered by safe search or resolution, and counts as excepted
exactly if an exception covers its name. -/
theorem handleAt_admitted {query : Query} (now : Instant)
    (admits : pipeline.Admits proto request client query) :
    ∃ log : QueryRecord,
      (log.verdict = .Excepted ↔
        (pipeline.policy.engine.verdict (proto.qname query)).kind = .Except) ∧
      pipeline.handleAt proto request client now =
        pipeline.answerUnblocked proto request (proto.qname query) query.queryType log now := by
  have unblocked := admits.unblocked
  simp only [handleAt]
  rw [if_neg (Nat.not_le.mpr admits.room), admits.asked]
  dsimp only
  rw [if_neg (by simp [admits.allowed]), if_neg admits.kind]
  unfold Proto.qname at unblocked ⊢
  cases verdict : pipeline.policy.engine.verdict (normalizeQname (proto.toAscii query.name)) with
  | Block list rule =>
      rw [verdict] at unblocked
      exact absurd rfl unblocked
  | Except list rule => exact ⟨_, by simp [Verdict.kind], rfl⟩
  | NoMatch => exact ⟨_, by simp [Verdict.kind, newLog], rfl⟩

end Pipeline

end Sumidero.Server
