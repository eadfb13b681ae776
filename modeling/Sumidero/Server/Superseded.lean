import Sumidero.Cache.Lifetimes
import Sumidero.Server.SingleFlight

namespace Sumidero.Server

open Sumidero.Cache Sumidero.Dns Sumidero.Data

/-! Which answer a key's lookups return once a newer one has been filed for it. -/

/-- The answer an event files, and its key. -/
def Event.files? (flight : Flight) : Event → Option (CacheKey × Message)
  | .storeLeader leader =>
      (flight.leaders[leader]?).bind fun task =>
        match task.phase with
        | .storing answer => some (task.key, answer)
        | _ => none
  | .storeRefresh refresh =>
      (flight.refreshes[refresh]?).bind fun task =>
        match task.phase with
        | .storing _ answer => some (task.key, answer)
        | _ => none
  | _ => none

/-- NOERROR and NXDOMAIN say what the name has; other codes are failures. -/
def Authoritative (answer : Message) : Prop :=
  answer.responseCode = .NoError ∨ answer.responseCode = .NXDomain

instance (answer : Message) : Decidable (Authoritative answer) :=
  inferInstanceAs (Decidable (_ ∨ _))

/-- History: for each key the newest authoritative answer filed. -/
def noteFiled (newest : CacheKey → Option Message) (flight : Flight) (event : Event) :
    CacheKey → Option Message :=
  match event.files? flight with
  | some (key, answer) =>
      if Authoritative answer then Function.update newest key (some answer) else newest
  | none => newest

/-- No lookup still to come finds the entry: it is past its stale window now, and was
when each query that is about to look it up arrived. -/
structure Unservable (flight : Flight) (key : CacheKey) (entry : Entry) : Prop where
  fromNow : entry.lookup flight.cache.limits.serveStaleSecs flight.clock = .Miss
  asked : ∀ client query, flight.clients client = .asking query → query.key = key →
    entry.lookup flight.cache.limits.serveStaleSecs query.now = .Miss

/-- An authoritative answer is filed with a record to live by, or over nothing that could
still be served. -/
def FiledWithRecords (before : Flight) (event : Event) (_ : Flight) : Prop :=
  ∀ key answer, event.files? before = some (key, answer) → Authoritative answer →
    ¬ (answer.answers = [] ∧ answer.authorities = []) ∨
      ∀ entry, before.cache.entryAt key = some entry → Unservable before key entry

/-- The lookup returns nothing but records of this answer. -/
def ReturnsOnly (lookup : Lookup) (answer : Message) : Prop :=
  ∀ msg, lookup = .Fresh msg ∨ lookup = .Stale msg →
    ∃ now entry ttl, entryOf answer now = some entry ∧ msg = buildResponse entry ttl

/-- What an event does to the cache: it looks a query up, files an answer, or neither. -/
inductive CacheMove (wireLen : Message → Option Nat) (before after : Flight) (event : Event) : Prop
  | looked {query : Asking} {lookup : Lookup} (files : event.files? before = none)
      (got : before.cache.get query.key query.now = some (after.cache, lookup))
  | filed {key : CacheKey} {answer : Message} {now : Instant}
      (files : event.files? before = some (key, answer))
      (inserted : before.cache.insert wireLen key answer now = some after.cache)
  | kept (files : event.files? before = none) (same : after.cache = before.cache)

theorem spawnRefresh_cache (flight : Flight) (query : Asking) :
    (flight.spawnRefresh query).cache = flight.cache := by
  simp only [Flight.spawnRefresh]
  split <;> rfl

theorem subscribe_cache (flight : Flight) (client : Nat) (query : Asking) :
    (flight.subscribe client query).cache = flight.cache := by
  simp only [Flight.subscribe]
  split <;> rfl

theorem step_cacheMove {wireLen : Message → Option Nat} {before after : Flight} {event : Event}
    (stepped : step wireLen before event = some after) : CacheMove wireLen before after event := by
  cases event with
  | lookup client =>
      simp only [step] at stepped
      split at stepped
      · obtain ⟨⟨cache, lookup⟩, ran, moved⟩ := Option.bind_eq_some_iff.mp stepped
        cases moved
        exact .looked rfl ran
      · contradiction
  | storeLeader leader =>
      obtain ⟨task, found, moved⟩ := Option.bind_eq_some_iff.mp stepped
      split at moved
      · rename_i answer phase
        obtain ⟨cache, ran, moved⟩ := Option.bind_eq_some_iff.mp moved
        cases moved
        exact .filed (by simp only [Event.files?, found, Option.bind_some, phase]) ran
      · contradiction
  | storeRefresh refresh =>
      obtain ⟨task, found, moved⟩ := Option.bind_eq_some_iff.mp stepped
      split at moved
      · rename_i now answer phase
        obtain ⟨cache, ran, moved⟩ := Option.bind_eq_some_iff.mp moved
        cases moved
        exact .filed (by simp only [Event.files?, found, Option.bind_some, phase]) ran
      · contradiction
  | tick later =>
      simp only [step] at stepped
      split at stepped
      · cases stepped
        exact .kept rfl rfl
      · contradiction
  | concludeLeader leader result victim =>
      obtain ⟨task, found, moved⟩ := Option.bind_eq_some_iff.mp stepped
      split at moved
      · obtain ⟨⟨next, stored⟩, concluded, moved⟩ := Option.bind_eq_some_iff.mp moved
        cases moved
        obtain ⟨failures, pledges, rfl⟩ := conclude_eq concluded
        exact .kept rfl rfl
      · contradiction
  | concludeRefresh refresh result victim =>
      obtain ⟨task, found, moved⟩ := Option.bind_eq_some_iff.mp stepped
      split at moved
      · obtain ⟨⟨next, stored⟩, concluded, moved⟩ := Option.bind_eq_some_iff.mp moved
        cases moved
        obtain ⟨failures, pledges, rfl⟩ := conclude_eq concluded
        exact .kept rfl rfl
      · contradiction
  | arrive | checkHeld | cancel =>
      simp only [step] at stepped
      split at stepped
      · cases stepped
        exact .kept rfl rfl
      · contradiction
  | refreshSection client =>
      simp only [step] at stepped
      split at stepped
      · cases stepped
        exact .kept rfl (spawnRefresh_cache _ _)
      · contradiction
  | join client =>
      simp only [step] at stepped
      split at stepped
      · cases stepped
        exact .kept rfl (subscribe_cache _ _ _)
      · contradiction
  | recv client =>
      simp only [step] at stepped
      split at stepped
      · obtain ⟨outcome, received, moved⟩ := Option.bind_eq_some_iff.mp stepped
        cases moved
        exact .kept rfl rfl
      · contradiction
  | startLeader | publish | checkRefresh | startRefresh =>
      obtain ⟨task, found, moved⟩ := Option.bind_eq_some_iff.mp stepped
      split at moved
      · cases moved
        exact .kept rfl rfl
      · contradiction
  | dropGuard | dropTx =>
      obtain ⟨task, found, moved⟩ := Option.bind_eq_some_iff.mp stepped
      split at moved
      · cases moved
        exact .kept rfl rfl
      · cases moved
        exact .kept rfl rfl
      · contradiction
  | crashLeader leader =>
      obtain ⟨task, found, moved⟩ := Option.bind_eq_some_iff.mp stepped
      split at moved
      · contradiction
      · contradiction
      · contradiction
      · cases moved
        exact .kept rfl rfl
  | endRefresh refresh =>
      obtain ⟨task, found, moved⟩ := Option.bind_eq_some_iff.mp stepped
      split at moved
      · contradiction
      · cases moved
        exact .kept rfl rfl

theorem step_limits {wireLen : Message → Option Nat} {before after : Flight} {event : Event}
    (sound : before.cache.Sound) (stepped : step wireLen before event = some after) :
    after.cache.limits = before.cache.limits := by
  cases step_cacheMove stepped with
  | looked _ got => exact (sound.get_spec got).2.1
  | filed _ inserted => exact (sound.insert_spec inserted).2.1
  | kept _ same => rw [same]

theorem asking_moved {before : Flight} {client other : Nat} {new : ClientPhase} {query : Asking}
    (arrived : ∀ query, new = .asking query → query.now = before.clock)
    (asks : Function.update before.clients client new other = .asking query) :
    before.clients other = .asking query ∨ query.now = before.clock := by
  by_cases same : other = client
  · subst same
    rw [Function.update_self] at asks
    exact .inr (arrived query asks)
  · rw [Function.update_of_ne same] at asks
    exact .inl asks

theorem ClientMove.arrived {flight : Flight} {old new : ClientPhase}
    (moved : ClientMove flight old new) {query : Asking} (asks : new = .asking query) :
    query.now = flight.clock := by
  cases moved <;> cases asks
  rfl

theorem subscribe_asking {flight : Flight} {client other : Nat} {query asked : Asking}
    (asks : (flight.subscribe client query).clients other = .asking asked) :
    flight.clients other = .asking asked ∨ asked.now = flight.clock := by
  simp only [Flight.subscribe] at asks
  split at asks
  · exact asking_moved (fun _ same => by cases same) asks
  · exact asking_moved (fun _ same => by cases same) asks

theorem subscribe_clock (flight : Flight) (client : Nat) (query : Asking) :
    (flight.subscribe client query).clock = flight.clock := by
  simp only [Flight.subscribe]
  split <;> rfl

theorem spawnRefresh_clock (flight : Flight) (query : Asking) :
    (flight.spawnRefresh query).clock = flight.clock := by
  simp only [Flight.spawnRefresh]
  split <;> rfl

/-- A query asks with the instant it arrived, and the clock does not go back. -/
theorem step_asking {wireLen : Message → Option Nat} {before after : Flight} {event : Event}
    (stepped : step wireLen before event = some after) :
    before.clock.nanos ≤ after.clock.nanos ∧ ∀ client query,
      after.clients client = .asking query →
        before.clients client = .asking query ∨ query.now = before.clock := by
  cases step_move stepped with
  | tick forward => exact ⟨forward, fun _ _ asks => .inl asks⟩
  | client cache sound waiting moved =>
      exact ⟨Nat.le_refl _, fun _ _ asks => asking_moved (fun _ => moved.arrived) asks⟩
  | subscribe waiting =>
      exact ⟨Nat.le_of_eq (congrArg Instant.nanos (subscribe_clock _ _ _)).symm,
        fun _ _ asks => subscribe_asking asks⟩
  | refreshSection waiting =>
      refine ⟨Nat.le_of_eq (congrArg Instant.nanos (spawnRefresh_clock _ _)).symm, ?_⟩
      intro client query asks
      simp only [Flight.setClient, Flight.spawnRefresh_clients] at asks
      exact asking_moved (fun _ same => by cases same) asks
  | concludeLeader found resolving concluded =>
      obtain ⟨failures, pledges, rfl⟩ := conclude_eq concluded
      exact ⟨Nat.le_refl _, fun _ _ asks => .inl asks⟩
  | concludeRefresh found resolving concluded =>
      obtain ⟨failures, pledges, rfl⟩ := conclude_eq concluded
      exact ⟨Nat.le_refl _, fun _ _ asks => .inl asks⟩
  | _ => exact ⟨Nat.le_refl _, fun _ _ asks => .inl asks⟩

/-- An entry past its stale window stays past it. -/
theorem lookup_miss_later {entry : Entry} {stale : Nat} {now later : Instant}
    (forward : now.nanos ≤ later.nanos) (miss : entry.lookup stale now = .Miss) :
    entry.lookup stale later = .Miss := by
  have elapsed : now.secsSince entry.insertedAt ≤ later.secsSince entry.insertedAt := by
    simp only [Instant.secsSince]
    exact Nat.div_le_div_right (Nat.sub_le_sub_right forward _)
  unfold Entry.lookup at miss ⊢
  dsimp only at miss ⊢
  split at miss
  · rename_i past
    exact if_pos (Nat.le_trans past elapsed)
  · split at miss <;> contradiction

/-- The entry of a key is the newest answer's, or nothing to serve any more. -/
structure Newest (newest : CacheKey → Option Message) (flight : Flight) : Prop where
  sound : flight.cache.Sound
  entries : ∀ key answer entry, newest key = some answer →
    flight.cache.entryAt key = some entry →
      (∃ now, entryOf answer now = some entry) ∨ Unservable flight key entry

theorem stored_of_records {answer : Message} (now : Instant) (code : Authoritative answer)
    (records : ¬ (answer.answers = [] ∧ answer.authorities = [])) :
    ∃ entry, entryOf answer now = some entry := by
  obtain ⟨secs, lives⟩ := lifetime_of_records records
  obtain ⟨entry, stored, _⟩ := entryOf_of_lifetime code lives now
  exact ⟨entry, stored⟩

section Steps

variable {wireLen : Message → Option Nat} {before after : Flight} {event : Event}

theorem Unservable.step {key : CacheKey} {entry : Entry} (past : Unservable before key entry)
    (sound : before.cache.Sound) (stepped : Server.step wireLen before event = some after) :
    Unservable after key entry := by
  obtain ⟨forward, asking⟩ := step_asking stepped
  constructor
  · rw [step_limits sound stepped]
    exact lookup_miss_later forward past.fromNow
  · intro client query asks same
    rw [step_limits sound stepped]
    rcases asking client query asks with already | arrived
    · exact past.asked client query already same
    · rw [arrived]
      exact past.fromNow

theorem newest_step {newest : CacheKey → Option Message} (inv : Newest newest before)
    (stepped : step wireLen before event = some after)
    (records : FiledWithRecords before event after) :
    Newest (noteFiled newest before event) after := by
  have kept : ∀ key answer entry, newest key = some answer →
      before.cache.entryAt key = some entry →
        (∃ now, entryOf answer now = some entry) ∨ Unservable after key entry := by
    intro key answer entry last found
    exact (inv.entries key answer entry last found).imp_right fun past => past.step inv.sound stepped
  cases step_cacheMove stepped with
  | looked files got =>
      obtain ⟨sound, _, _, still⟩ := inv.sound.get_spec got
      refine ⟨sound, fun key answer entry last found => ?_⟩
      simp only [noteFiled, files] at last
      exact kept key answer entry last (still key entry found)
  | kept files same =>
      refine ⟨same ▸ inv.sound, fun key answer entry last found => ?_⟩
      simp only [noteFiled, files] at last
      exact kept key answer entry last (same ▸ found)
  | @filed key answer now files inserted =>
      obtain ⟨sound, _, refused, filled, others⟩ := inv.sound.insert_spec inserted
      refine ⟨sound, fun other newer entry last found => ?_⟩
      simp only [noteFiled, files] at last
      by_cases apart : other = key
      · subst apart
        cases stored : entryOf answer now with
        | some fresh =>
            have code : Authoritative answer := (entryOf_eq_some stored).2
            rw [if_pos code, Function.update_self] at last
            cases last
            rw [filled fresh stored] at found
            cases found
            exact .inl ⟨now, stored⟩
        | none =>
            rw [refused stored] at found
            by_cases code : Authoritative answer
            · have empty : answer.answers = [] ∧ answer.authorities = [] := by
                by_contra some_record
                obtain ⟨fresh, again⟩ := stored_of_records now code some_record
                cases stored.symm.trans again
              have past := (records other answer files code).resolve_left (not_not.mpr empty)
              exact .inr ((past entry found).step inv.sound stepped)
            · rw [if_neg code] at last
              exact kept other newer entry last found
      · have before := others other entry apart found
        split at last
        · rw [Function.update_of_ne apart] at last
          exact kept other newer entry last before
        · exact kept other newer entry last before

end Steps

/-- In a run whose authoritative answers are filed with records, a lookup returns nothing
but records of the newest one. -/
theorem newest_answer_returned {wireLen : Message → Option Nat} {start flight : Flight}
    {events : List Event} (initial : Initial start)
    (records : Along (step wireLen) FiledWithRecords start events)
    (ran : run (step wireLen) start events = some flight) {client : Nat} {query : Asking}
    (asks : flight.clients client = .asking query) {cache : Inner} {lookup : Lookup}
    (got : flight.cache.get query.key query.now = some (cache, lookup)) {answer : Message}
    (newest : history (step wireLen) noteFiled (fun _ => none) start events query.key =
      some answer) : ReturnsOnly lookup answer := by
  have fresh : Newest (fun _ => none) start := ⟨initial.cache, fun _ _ _ last => by cases last⟩
  have inv : Newest (history (step wireLen) noteFiled (fun _ => none) start events) flight := by
    refine invariant_of_admitted_history ?_ fresh records ran
    exact fun _ _ _ _ inv stepped records => newest_step inv stepped records
  intro msg hit
  have found : lookup ≠ .Miss := by
    intro miss
    rw [miss] at hit
    simp at hit
  obtain ⟨entry, held, rfl⟩ := inv.sound.get_hit got found
  rcases inv.entries query.key answer entry newest held with ⟨now, stored⟩ | past
  · obtain ⟨ttl, made⟩ := lookup_hit hit
    exact ⟨now, entry, ttl, stored, made⟩
  · exact absurd (past.asked client query asks rfl) found

/-- The address of the name that is asked for, for a minute. -/
def oldAddress : Message :=
  (Message.new 1 .Response .Query).addAnswer
    (.fromRdata { labels := [[119, 119, 119]], isFqdn := true } 60 (.A [192, 0, 2, 1]))

/-- A lookup that brings the address, up to its filing. -/
def resolved : List Event :=
  missing 0 ++ [.startLeader 0, .concludeLeader 0 (some oldAddress) exampleKey]

/-- A lookup files the address; a minute later it is stale, and the refresh behind it
brings this answer. -/
def refreshed (answer : Message) : List Event :=
  resolved ++ [.storeLeader 0, .dropGuard 0, .publish 0, .recv 0, .tick ⟨secs 100, by decide⟩,
    .arrive 1 (.new 2 .Query .Query) exampleKey, .lookup 1, .refreshSection 1, .checkRefresh 0,
    .startRefresh 0, .concludeRefresh 0 (some answer) exampleKey, .storeRefresh 0, .endRefresh 0,
    .arrive 2 (.new 3 .Query .Query) exampleKey]

/-- What the cache returns to a query about to look up, and the newest answer filed for it. -/
def returned (events : List Event) (client : Nat) : Option (Lookup × Option Message) := do
  let flight ← run (step fun _ => none) quiet events
  match flight.clients client with
  | .asking query => do
      let (_, lookup) ← flight.cache.get query.key query.now
      return (lookup, history (step fun _ => none) noteFiled (fun _ => none) quiet events query.key)
  | _ => none

theorem returned_eq_some {events : List Event} {client : Nat} {lookup : Lookup}
    {newest : Option Message} (found : returned events client = some (lookup, newest)) :
    ∃ flight query cache, run (step fun _ => none) quiet events = some flight ∧
      flight.clients client = .asking query ∧
      flight.cache.get query.key query.now = some (cache, lookup) ∧
      history (step fun _ => none) noteFiled (fun _ => none) quiet events query.key = newest := by
  obtain ⟨flight, ran, observed⟩ := Option.bind_eq_some_iff.mp found
  split at observed
  · rename_i query asks
    obtain ⟨⟨cache, got⟩, looked, same⟩ := Option.bind_eq_some_iff.mp observed
    cases same
    exact ⟨flight, query, cache, ran, asks, looked, rfl⟩
  · contradiction

/-- An address filed in a lookup is what the next query gets. -/
theorem address_returned :
    ∃ (flight : Flight) (query : Asking) (cache : Inner) (lookup : Lookup),
      run (step fun _ => none) quiet
        (resolved ++ [.storeLeader 0] ++ [.arrive 1 (.new 2 .Query .Query) exampleKey]) =
          some flight ∧
      flight.cache.get query.key query.now = some (cache, lookup) ∧ lookup ≠ .Miss ∧
      ReturnsOnly lookup oldAddress := by
  have found : returned
      (resolved ++ [.storeLeader 0] ++ [.arrive 1 (.new 2 .Query .Query) exampleKey]) 1 =
      some (.Fresh { (Message.new 0 .Response .Query) with answers := oldAddress.answers },
        some oldAddress) := by decide +kernel
  have files : (run (step fun _ => none) quiet resolved).bind
      (fun flight => Event.files? flight (.storeLeader 0)) = some (exampleKey, oldAddress) := by
    decide +kernel
  obtain ⟨flight, query, cache, ran, asks, got, newest⟩ := returned_eq_some found
  refine ⟨flight, query, cache, _, ran, got, (fun miss => by cases miss), ?_⟩
  refine newest_answer_returned quiet_initial ?_ ran asks got newest
  refine along_snoc (along_snoc (along_of_forall ?_ quiet) ?_) ?_
  · intro event member before after key answer filed
    simp only [resolved, missing, List.cons_append, List.nil_append, List.mem_cons,
      List.not_mem_nil, or_false] at member
    rcases member with rfl | rfl | rfl | rfl | rfl | rfl <;> cases filed
  · intro before after reached _ key answer filed _
    rw [reached, Option.bind_some, filed] at files
    cases files
    exact .inl (by decide)
  · intro before after _ _ key answer filed
    cases filed

/-- The refresh brings a NOERROR without records: the name has no address any more.  The
next query still gets the old one. -/
theorem address_outlives_its_removal :
    ∃ flight query cache stale,
      run (step fun _ => none) quiet (refreshed (.new 2 .Response .Query)) = some flight ∧
      flight.clients 2 = .asking query ∧
      flight.cache.get query.key query.now = some (cache, .Stale stale) ∧
      history (step fun _ => none) noteFiled (fun _ => none) quiet
        (refreshed (.new 2 .Response .Query)) query.key = some (.new 2 .Response .Query) ∧
      stale.answers = oldAddress.answers.map (fun record => { record with ttl := 30 }) ∧
      Authoritative (.new 2 .Response .Query) ∧
      ¬ ReturnsOnly (.Stale stale) (.new 2 .Response .Query) := by
  have found : returned (refreshed (.new 2 .Response .Query)) 2 =
      some (.Stale { (Message.new 0 .Response .Query) with
        answers := oldAddress.answers.map (fun record => { record with ttl := 30 }) },
        some (.new 2 .Response .Query)) := by decide +kernel
  obtain ⟨flight, query, cache, ran, asks, got, newest⟩ := returned_eq_some found
  refine ⟨flight, query, cache, _, ran, asks, got, newest, rfl, .inl rfl, fun only => ?_⟩
  obtain ⟨now, entry, _, stored, _⟩ := only _ (.inr rfl)
  exact entryOf_records_ne_nil stored (by
    obtain ⟨answers, authorities, _⟩ := entryOf_records stored
    rw [answers, authorities]
    rfl)

end Sumidero.Server
