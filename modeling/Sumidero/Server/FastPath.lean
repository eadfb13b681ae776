import Sumidero.Server.Answers

namespace Sumidero.Server

open Text Dns Cache

/-! The cache's answer against the answer of the lookup that filled it. -/

/-- Two responses say the same, questions, ids and EDNS aside. -/
structure SameAnswer (first second : Message) : Prop where
  responseCode : first.responseCode = second.responseCode
  authoritative : first.metadata.authoritative = second.metadata.authoritative
  authenticData : first.metadata.authenticData = second.metadata.authenticData
  answers : first.answers = second.answers
  authorities : first.authorities = second.authorities

/-- No DNSSEC record of a message is of a type that only one of its own question and the
request asks for, or the request wants them all. -/
def SameKept (proto : Proto) (msg request : Message) : Prop :=
  clientWantsDnssec request = true ∨
    ∀ record ∈ msg.answers ++ msg.authorities, proto.isDnssec record.recordType = true →
      ((adoptedQueries msg request).head?.map Query.queryType = some record.recordType ↔
        request.queries.head?.map Query.queryType = some record.recordType)

theorem restore_originals (records : List Record) :
    (originals records).map (fun original : OriginalRecord =>
      { original.record with ttl := id original.originalTtl }) = records := by
  simp only [originals]
  rw [List.map_map]
  exact List.map_id records

theorem buildResponse_stored {msg : Message} {now : Instant} {entry : Entry}
    (stored : entryOf msg now = some entry) : buildResponse entry id =
      { (Message.new 0 .Response .Query).withResponseCode msg.responseCode with
        answers := msg.answers
        authorities := msg.authorities } := by
  obtain ⟨answers, authorities, code, _⟩ := entryOf_records stored
  simp only [buildResponse]
  rw [answers, authorities, code]
  simp only [restore_originals]

variable {proto : Proto}

theorem filter_eq_iff {α : Type} {p q : α → Bool} {items : List α} :
    items.filter p = items.filter q ↔ ∀ item ∈ items, p item = q item := by
  constructor
  · intro same item member
    have kept : item ∈ items.filter p ↔ item ∈ items.filter q := by rw [same]
    simpa [member] using kept
  · exact List.filter_congr

/-- A DNSSEC record goes to a client that does not want them all if its type is asked for. -/
theorem handsOn_dnssec {msg request : Message} {record : Record}
    (wants : clientWantsDnssec request = false)
    (dnssec : proto.isDnssec record.recordType = true) :
    proto.handsOn msg request record = true ↔
      (adoptedQueries msg request).head?.map Query.queryType = some record.recordType := by
  simp only [Proto.handsOn]
  rw [wants, dnssec]
  cases (adoptedQueries msg request).head? <;> simp

theorem sameKept_iff {msg request : Message} : SameKept proto msg request ↔
    ∀ record ∈ msg.answers ++ msg.authorities, proto.handsOn msg request record =
      proto.handsOn (Message.new 0 .Response .Query) request record := by
  simp only [SameKept]
  cases wants : clientWantsDnssec request with
  | true => simp [Proto.handsOn, wants]
  | false =>
      simp only [Bool.false_eq_true, false_or]
      refine forall₂_congr fun record member => ?_
      cases dnssec : proto.isDnssec record.recordType with
      | false => simp [Proto.handsOn, dnssec]
      | true =>
          have own : adoptedQueries (Message.new 0 .Response .Query) request =
            request.queries := rfl
          have kept : proto.handsOn msg request record =
              proto.handsOn (Message.new 0 .Response .Query) request record ↔
                ((adoptedQueries msg request).head?.map Query.queryType =
                    some record.recordType ↔
                  request.queries.head?.map Query.queryType = some record.recordType) := by
            rw [Bool.eq_iff_iff, handsOn_dnssec wants dnssec, handsOn_dnssec wants dnssec, own]
          rw [kept]
          simp

/-- A message rebuilt from the cache has no flags of its own, and its records are sifted by
the request's question. -/
theorem sameAnswer_iff (documented : proto.Documented) {msg request : Message}
    (asked : request.queries ≠ []) :
    SameAnswer
        (restamp proto
          { (Message.new 0 .Response .Query).withResponseCode msg.responseCode with
            answers := msg.answers
            authorities := msg.authorities } request)
        (restamp proto msg request) ↔
      (msg.metadata.authoritative = false ∧ msg.metadata.authenticData = false) ∧
        SameKept proto msg request := by
  generalize rebuilt : ({ (Message.new 0 .Response .Query).withResponseCode msg.responseCode with
    answers := msg.answers
    authorities := msg.authorities } : Message) = cached
  have kept : proto.handsOn cached request =
      proto.handsOn (Message.new 0 .Response .Query) request := by
    rw [← rebuilt]
    rfl
  have records : cached.answers = msg.answers ∧ cached.authorities = msg.authorities := by
    rw [← rebuilt]
    exact ⟨rfl, rfl⟩
  have flags : cached.metadata.authoritative = false ∧ cached.metadata.authenticData = false ∧
      cached.responseCode = msg.responseCode := by
    rw [← rebuilt]
    exact ⟨rfl, rfl, rfl⟩
  have sifted : ∀ part : List Record, part ⊆ msg.answers ++ msg.authorities →
      SameKept proto msg request →
      part.filter (proto.handsOn (Message.new 0 .Response .Query) request) =
        part.filter (proto.handsOn msg request) := by
    intro part within same
    exact filter_eq_iff.mpr fun record member =>
      (sameKept_iff.mp same record (within member)).symm
  constructor
  · intro same
    have authoritative := same.authoritative
    have authentic := same.authenticData
    have answers := same.answers
    have authorities := same.authorities
    rw [restamp_metadata documented _ asked, restamp_metadata documented _ asked]
      at authoritative authentic
    rw [restamp_answers documented _ asked, restamp_answers documented _ asked, kept,
      records.1, filter_eq_iff] at answers
    rw [restamp_authorities documented _ asked, restamp_authorities documented _ asked, kept,
      records.2, filter_eq_iff] at authorities
    refine ⟨⟨authoritative.symm.trans flags.1, authentic.symm.trans flags.2.1⟩,
      sameKept_iff.mpr ?_⟩
    intro record member
    rcases List.mem_append.mp member with inAnswers | inAuthorities
    · exact (answers record inAnswers).symm
    · exact (authorities record inAuthorities).symm
  · intro holds
    obtain ⟨⟨plain, unproven⟩, same⟩ := holds
    exact
      { responseCode := by
          rw [restamp_responseCode documented _ asked, restamp_responseCode documented _ asked,
            flags.2.2]
        authoritative := by
          rw [restamp_metadata documented _ asked, restamp_metadata documented _ asked]
          exact flags.1.trans plain.symm
        authenticData := by
          rw [restamp_metadata documented _ asked, restamp_metadata documented _ asked]
          exact flags.2.1.trans unproven.symm
        answers := by
          rw [restamp_answers documented _ asked, restamp_answers documented _ asked, kept,
            records.1]
          exact sifted _ (List.subset_append_left _ _) same
        authorities := by
          rw [restamp_authorities documented _ asked, restamp_authorities documented _ asked,
            kept, records.2]
          exact sifted _ (List.subset_append_right _ _) same }

/-- A fresh hit at elapsed 0 answers as the lookup that filled the cache does, exactly if
the upstream message is neither authoritative nor authentic and its question sifts its
records as the request's does. -/
theorem fast_path_agrees_iff (documented : proto.Documented) {inner : Inner}
    (sound : inner.Sound) (wireLen : Message → Option Nat) (key : CacheKey) {msg : Message}
    {now later : Instant} {entry : Entry} (stored : entryOf msg now = some entry)
    (lives : 0 < entry.effectiveTtlSecs) (elapsed : later.secsSince now = 0) {request : Message}
    (asked : request.queries.head?.map Query.queryType = some key.rtype) :
    ∃ filled after cached, inner.insert wireLen key msg now = some filled ∧
      filled.get key later = some (after, .Fresh cached) ∧
      (SameAnswer (restamp proto cached request) (restamp proto msg request) ↔
        (msg.metadata.authoritative = false ∧ msg.metadata.authenticData = false) ∧
          SameKept proto msg request) := by
  obtain ⟨filled, after, inserted, found⟩ :=
    sound.get_insert wireLen key stored lives elapsed
  have some_question : request.queries ≠ [] := by
    intro none
    rw [none] at asked
    cases asked
  refine ⟨filled, after, _, inserted, found, ?_⟩
  rw [buildResponse_stored stored]
  exact sameAnswer_iff documented some_question

/-- A validated answer with one address, or the same without the flag. -/
def addressAnswer (authentic : Bool) : Message :=
  let msg := (Message.new 0 .Response .Query).addQuery shopQuestion
  let address := Record.fromRdata shopQuestion.name 60 (.A [192, 0, 2, 1])
  { msg.addAnswer address with metadata := { msg.metadata with authenticData := authentic } }

def newCache : Inner := .withLimits Pipeline.oneEntry

def plainKey : CacheKey := CacheKey.new shopQuestion.name .A .IN

theorem addressAnswer_stored (authentic : Bool) :
    ∃ entry, entryOf (addressAnswer authentic) atStart = some entry ∧
      0 < entry.effectiveTtlSecs := by
  cases authentic <;> exact ⟨_, rfl, by decide⟩

theorem unflagged_answer_agrees : ∃ filled after cached,
    newCache.insert (fun _ => none) plainKey (addressAnswer false) atStart = some filled ∧
      filled.get plainKey atStart = some (after, .Fresh cached) ∧
      SameAnswer (restamp plainProto cached (Message.asking 7 shopQuestion))
        (restamp plainProto (addressAnswer false) (Message.asking 7 shopQuestion)) := by
  obtain ⟨entry, stored, lives⟩ := addressAnswer_stored false
  have elapsed : atStart.secsSince atStart = 0 := by decide
  have asked : (Message.asking 7 shopQuestion).queries.head?.map Query.queryType =
    some plainKey.rtype := rfl
  obtain ⟨filled, after, cached, inserted, found, agrees⟩ :=
    fast_path_agrees_iff plainProto_documented ⟨[], withLimits_holds _⟩ (fun _ => none) plainKey
      stored lives elapsed asked
  refine ⟨filled, after, cached, inserted, found, agrees.mpr ⟨⟨rfl, rfl⟩, .inr ?_⟩⟩
  intro record _ _
  exact Iff.rfl

/-- The first client is told the answer is validated, the next one is not. -/
theorem authentic_flag_forgotten : ∃ filled after cached,
    newCache.insert (fun _ => none) plainKey (addressAnswer true) atStart = some filled ∧
      filled.get plainKey atStart = some (after, .Fresh cached) ∧
      ¬ SameAnswer (restamp plainProto cached (Message.asking 7 shopQuestion))
        (restamp plainProto (addressAnswer true) (Message.asking 7 shopQuestion)) := by
  obtain ⟨entry, stored, lives⟩ := addressAnswer_stored true
  have sound : newCache.Sound := ⟨[], withLimits_holds _⟩
  have elapsed : atStart.secsSince atStart = 0 := by decide
  obtain ⟨filled, after, inserted, found⟩ :=
    sound.get_insert (fun _ => none) plainKey stored lives elapsed
  refine ⟨filled, after, _, inserted, found, ?_⟩
  intro same
  cases same.authenticData

end Sumidero.Server
