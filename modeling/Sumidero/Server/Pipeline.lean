import Sumidero.Cache.Refinement
import Sumidero.Filter.Total
import Sumidero.Server.Failures
import Sumidero.Server.SafeSearch

namespace Sumidero.Server

open Text Dns Cache Sumidero.Filter

/-! The request pipeline: one query from its admission to its answer, with the messages
handed upstream for it.  Timestamps and durations of the log are left out. -/

/-- Hard cap on queries being handled at once. -/
def MAX_IN_FLIGHT_QUERIES : Nat := 512

def BLOCK_SOA_MNAME : Str := "sumidero.invalid.".toList
def BLOCK_SOA_RNAME : Str := "nobody.sumidero.invalid.".toList
def BLOCK_SOA_TTL : UInt32 := 300

/-- TTL for synthesized safe-search CNAME records. -/
def SAFESEARCH_CNAME_TTL : UInt32 := 300

/-- What the pipeline uses of the DNS library; the two static names are valid. -/
structure Proto where
  toAscii : Name → Str
  fromAscii : Str → Option Name
  isDnssec : RecordType → Bool
  maybeStripDnssecRecords : Message → Bool → Message
  mname : (fromAscii BLOCK_SOA_MNAME).isSome = true
  rname : (fromAscii BLOCK_SOA_RNAME).isSome = true

/-- A network, by the addresses it contains. -/
structure IpNet where
  contains : Net.IpAddr → Bool

/-- Everything that decides an answer, swapped as one value. -/
structure Policy where
  engine : LoadedEngine
  safesearch : SafeSearch
  allow : List IpNet

inductive ResponseSource where
  | Synth
  | Cache
  | Stale
  | Upstream
  | Failed
  | FailureCached
deriving Repr, DecidableEq

inductive VerdictKind where
  | Allowed
  | Blocked
  | Excepted
  | Rewritten
deriving Repr, DecidableEq

structure QueryRecord where
  client : Net.IpAddr
  qname : Str
  qtype : Option RecordType
  verdict : VerdictKind
  rule : Option Str
  list : Option Nat
  source : ResponseSource
  rcode : ResponseCode
deriving Repr, DecidableEq

/-- What the pipeline's shared state shows one query, each part at the moment the query
reads it. -/
structure Pipeline where
  policy : Policy
  /-- Queries already inside `handle_at`. -/
  inFlight : Nat
  cache : Inner
  cacheSound : cache.Sound
  failures : FailureCache
  /-- Lookups in flight, by the request that leads each. -/
  lookups : CacheKey → Option Message
  /-- Keys with a serve-stale refresh already running. -/
  refreshing : CacheKey → Bool
  /-- Whether a refresh finds its key held down when it starts. -/
  refreshHeld : CacheKey → Bool
  /-- What the lookup led by a request delivers; `none` when every upstream failed or the
  leader died. -/
  delivered : Message → Option Message
  /-- A lookup is led by a request for its key. -/
  led : ∀ key leader, lookups key = some leader →
    leader.queries.head?.map Query.queryType = some key.rtype

def clientAllowed (allow : List IpNet) (client : Net.IpAddr) : Bool :=
  allow.any fun net => net.contains client

/-! ### Building responses -/

/-- Whether the client asked for DNSSEC records (EDNS DO bit). -/
def clientWantsDnssec (request : Message) : Bool := request.edns.any fun edns => edns.dnssecOk

/-- A client that sent no OPT record gets no OPT back, and the DO bit is the client's. -/
def applyEdns (resp request : Message) : Message :=
  if request.edns.isNone then { resp with edns := none }
  else
    let edns := resp.edns.getD { Edns.new with maxPayload := 1232 }
    { resp with edns := some { edns with dnssecOk := clientWantsDnssec request } }

/-- Same id, question copied, RD echoed, RA set. -/
def responseSkeleton (request : Message) : Message :=
  let resp := Message.new request.metadata.id .Response .Query
  let resp := request.queries.foldl Message.addQuery resp
  applyEdns { resp with metadata := { resp.metadata with
    recursionDesired := request.metadata.recursionDesired
    recursionAvailable := true } } request

variable (proto : Proto)

/-- NXDOMAIN and a synthetic SOA in authority. -/
def synthBlockResponse (request : Message) : Message :=
  let resp := (responseSkeleton request).withResponseCode .NXDomain
  let mname := (proto.fromAscii BLOCK_SOA_MNAME).get proto.mname
  let rname := (proto.fromAscii BLOCK_SOA_RNAME).get proto.rname
  let soa : SOA := { mname, rname, serial := 1, refresh := 3600, retry := 900, expire := 604800,
                     minimum := BLOCK_SOA_TTL }
  resp.addAuthority (Record.fromRdata mname BLOCK_SOA_TTL (.SOA soa))

def synthRefused (request : Message) : Message :=
  (responseSkeleton request).withResponseCode .Refused

def synthServfail (request : Message) : Message :=
  (responseSkeleton request).withResponseCode .ServFail

/-- Lowercase, strip one trailing dot. -/
def normalizeQname (name : Str) : Str :=
  let lower := toAsciiLowercase name
  (stripSuffix lower ['.']).getD lower

/-- Adopt a cached or upstream message as the answer to a request. -/
def restamp (msg request : Message) : Message :=
  let msg := { msg with metadata := { msg.metadata with
    id := request.metadata.id
    messageType := .Response
    recursionDesired := request.metadata.recursionDesired
    recursionAvailable := true } }
  let msg := if msg.queries.isEmpty then request.queries.foldl Message.addQuery msg else msg
  applyEdns (proto.maybeStripDnssecRecords msg (clientWantsDnssec request)) request

/-! ### Cache, then upstream -/

/-- A response, where it came from, and what was handed upstream for it. -/
structure ResolvedQuery where
  response : Message
  source : ResponseSource
  forwarded : List Message
deriving Repr, DecidableEq

/-- Answered without asking upstream. -/
def ResolvedQuery.unasked (response : Message) (source : ResponseSource) : ResolvedQuery :=
  { response, source, forwarded := [] }

namespace Pipeline

/-- Room for one answer, that is never served stale. -/
def oneEntry : Limits where
  capacity := 1
  maxBytes := 65536
  serveStaleSecs := 0
  capacity_pos := by decide
  capacity_le := by decide
  maxBytes_pos := by decide

/-- Nothing cached, held or in flight. -/
def idle (policy : Policy) (delivered : Message → Option Message) : Pipeline where
  policy
  inFlight := 0
  cache := .withLimits oneEntry
  cacheSound := ⟨[], withLimits_holds _⟩
  failures := ∅
  lookups := fun _ => none
  refreshing := fun _ => false
  refreshHeld := fun _ => false
  delivered
  led := by
    intro key leader found
    cases found

theorem get_isSome (pipeline : Pipeline) (key : CacheKey) (now : Instant) :
    (pipeline.cache.get key now).isSome = true := by
  obtain ⟨_, _, found, _⟩ := pipeline.cacheSound.get key now
  rw [found]
  rfl

/-- `cache.get`. -/
def lookup (pipeline : Pipeline) (key : CacheKey) (now : Instant) : Lookup :=
  ((pipeline.cache.get key now).get (pipeline.get_isSome key now)).2

theorem lookup_run (pipeline : Pipeline) (key : CacheKey) (now : Instant) :
    ∃ after, pipeline.cache.get key now = some (after, pipeline.lookup key now) :=
  ⟨_, (Option.some_get (pipeline.get_isSome key now)).symm⟩

/-- What a serve-stale refresh hands upstream. -/
def spawnRefresh (pipeline : Pipeline) (request : Message) (key : CacheKey) : List Message :=
  if pipeline.refreshing key then []
  else if pipeline.refreshHeld key then []
  else [request]

/-- One upstream lookup per key, shared by every concurrent miss: the first leads. -/
def resolveShared (pipeline : Pipeline) (request : Message) (key : CacheKey) : ResolvedQuery :=
  let (delivered, forwarded) := match pipeline.lookups key with
    | some leader => (pipeline.delivered leader, [])
    | none => (pipeline.delivered request, [request])
  match delivered with
  | some answer => { response := restamp proto answer request, source := .Upstream, forwarded }
  | none => { response := synthServfail request, source := .Failed, forwarded }

/-- The class the key takes from the request. -/
def queryClass (request : Message) : DNSClass :=
  (request.queries.head?.map Query.queryClass).getD .IN

def resolveCached (pipeline : Pipeline) (request : Message) (qname : Str) (qtype : RecordType)
    (now : Instant) : ResolvedQuery :=
  match proto.fromAscii qname with
  | none => .unasked ((responseSkeleton request).withResponseCode .FormErr) .Synth
  | some name =>
      let key := CacheKey.new name qtype (queryClass request)
      match pipeline.lookup key now with
      | .Fresh cached => .unasked (restamp proto cached request) .Cache
      | .Stale cached =>
          { response := restamp proto cached request
            source := .Stale
            forwarded := pipeline.spawnRefresh request key }
      | .Miss =>
          if (pipeline.failures.held key now).isSome then
            .unasked (synthServfail request) .FailureCached
          else pipeline.resolveShared proto request key

/-- The query for a safe-search endpoint. -/
def targetQuery (request : Message) (target : Name) (qtype : RecordType) : Message :=
  let query := (Message.new request.metadata.id .Query .Query).addQuery (Query.query target qtype)
  { query with metadata := { query.metadata with recursionDesired := true } }

/-- CNAME to the safe-search endpoint plus the endpoint's own records. -/
def answerSafesearch (pipeline : Pipeline) (request : Message) (qname : Str)
    (qtype : RecordType) (target : Str) (now : Instant) : Message × List Message :=
  let resp := (responseSkeleton request).withResponseCode .NoError
  match proto.fromAscii (qname ++ ['.']), proto.fromAscii (target ++ ['.']) with
  | some qnameName, some targetName =>
      let resp := resp.addAnswer (Record.fromRdata qnameName SAFESEARCH_CNAME_TTL (.CNAME targetName))
      let resolved := pipeline.resolveCached proto (targetQuery request targetName qtype) target
        qtype now
      if resolved.response.responseCode = .NoError then
        (resolved.response.answers.foldl Message.addAnswer resp, resolved.forwarded)
      else (resp.withResponseCode resolved.response.responseCode, resolved.forwarded)
  | _, _ => (resp.withResponseCode .ServFail, [])

end Pipeline

/-- The first CNAME target that the engine blocks, with the list and the rule's text. -/
def blockedCnameTarget (engine : LoadedEngine) (resp : Message) : Option (Str × Nat × Str) :=
  resp.answers.findSome? fun record =>
    match record.data with
    | .CNAME target =>
        let target := normalizeQname (proto.toAscii target)
        match engine.verdict target with
        | .Block list rule => some (target, list, rule.text)
        | .Except _ _ => none
        | .NoMatch => none
    | _ => none

/-! ### Answering one request -/

/-- A response, its log record, and what was handed upstream on the request's behalf. -/
structure Handled where
  response : Message
  log : QueryRecord
  forwarded : List Message
deriving Repr, DecidableEq

/-- Stamp the response code into the log record. -/
def finish (log : QueryRecord) (response : Message) (forwarded : List Message) : Handled :=
  { response, log := { log with rcode := response.responseCode }, forwarded }

/-- A log record before the verdict. -/
def newLog (client : Net.IpAddr) (qname : Str) (qtype : Option RecordType)
    (source : ResponseSource) : QueryRecord :=
  { client, qname, qtype, verdict := .Allowed, rule := none, list := none, source,
    rcode := .NoError }

namespace Pipeline

def shedOverload (request : Message) (client : Net.IpAddr) : Handled :=
  let qname := (request.queries.head?.map fun q => normalizeQname (proto.toAscii q.name)).getD []
  finish (newLog client qname (request.queries.head?.map Query.queryType) .Failed)
    (synthServfail request) []

/-- A name that is neither blocked nor rewritten: cache, upstream, then the CNAME check. -/
def answerResolved (pipeline : Pipeline) (request : Message) (qname : Str) (qtype : RecordType)
    (log : QueryRecord) (now : Instant) : Handled :=
  let resolved := pipeline.resolveCached proto request qname qtype now
  let log := { log with source := resolved.source }
  if log.verdict ≠ .Excepted then
    match blockedCnameTarget proto pipeline.policy.engine resolved.response with
    | some (target, list, rule) =>
        finish { log with
          verdict := .Blocked
          rule := some (rule ++ " (CNAME target ".toList ++ target ++ [')'])
          list := some list } (synthBlockResponse proto request) resolved.forwarded
    | none => finish log resolved.response resolved.forwarded
  else finish log resolved.response resolved.forwarded

/-- A name that the engine does not block: safe search, or resolution. -/
def answerUnblocked (pipeline : Pipeline) (request : Message) (qname : Str) (qtype : RecordType)
    (log : QueryRecord) (now : Instant) : Handled :=
  match pipeline.policy.safesearch.rewrite qname with
  | some target =>
      let log := { log with
        verdict := .Rewritten
        rule := some ("safe-search -> ".toList ++ target) }
      let (resp, forwarded) := pipeline.answerSafesearch proto request qname qtype target now
      finish log resp forwarded
  | none => pipeline.answerResolved proto request qname qtype log now

/-- Answer one request: every failure maps to a DNS response. -/
def handleAt (pipeline : Pipeline) (request : Message) (client : Net.IpAddr) (now : Instant) :
    Handled :=
  if MAX_IN_FLIGHT_QUERIES ≤ pipeline.inFlight then shedOverload proto request client
  else
    match request.queries.head? with
    | none =>
        finish (newLog client [] none .Synth)
          ((responseSkeleton request).withResponseCode .FormErr) []
    | some query =>
        let qname := normalizeQname (proto.toAscii query.name)
        let qtype := query.queryType
        let log := newLog client qname (some qtype) .Synth
        if !clientAllowed pipeline.policy.allow client then finish log (synthRefused request) []
        else if qtype = .ANY then finish log (synthRefused request) []
        else
          match pipeline.policy.engine.verdict qname with
          | .Block list rule =>
              finish { log with verdict := .Blocked, rule := some rule.text, list := some list }
                (synthBlockResponse proto request) []
          | .Except list rule =>
              pipeline.answerUnblocked proto request qname qtype
                { log with verdict := .Excepted, rule := some rule.text, list := some list } now
          | .NoMatch => pipeline.answerUnblocked proto request qname qtype log now

end Pipeline

end Sumidero.Server
