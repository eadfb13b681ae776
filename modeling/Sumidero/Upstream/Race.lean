import Mathlib.Data.List.Nodup
import Mathlib.Data.List.Perm.Subperm
import Sumidero.Data.Runs
import Sumidero.Data.Shares
import Sumidero.Upstream.Sending

namespace Sumidero.Upstream

open Text Dns Data Program
open Sending (SendOp SendReply)

/-! `UpstreamPool::resolve`: every query goes to all upstreams, each leg a task of its own, and
the first usable answer wins.  A step is one operation of one leg, or of one call. -/

/-- The counters of one upstream. -/
structure Counters where
  queries : UInt64
  failures : UInt64
  consecutiveFailures : UInt64
deriving Repr, DecidableEq

def Counters.new : Counters where
  queries := 0
  failures := 0
  consecutiveFailures := 0

def Counters.perform (counters : Counters) : SendOp → Counters
  | .countQuery => { counters with queries := counters.queries + 1 }
  | .countFailure => { counters with failures := counters.failures + 1 }
  | .countConsecutive =>
      { counters with consecutiveFailures := counters.consecutiveFailures + 1 }
  | .clearConsecutive => { counters with consecutiveFailures := 0 }
  | _ => counters

inductive LegPhase where
  | running (program : Sending (Except Str Message))
  /-- At `tx.send`. -/
  | sending (result : Except Str Message)
  | finished (result : Except Str Message)

/-- One leg, with the history of its own operations. -/
structure Leg where
  phase : LegPhase
  account : Account

inductive CallPhase where
  | receiving (errors : List Str)
  /-- An answer is counted; the failures in a row are not cleared yet. -/
  | answered (response : Message)
  /-- The failure is counted; it is not yet counted as one in a row. -/
  | failed (errors : List Str)
  | returned (result : Except (List Str) Message)
  /-- Whoever called has given up. -/
  | cancelled

/-- One call of `resolve`: its legs, one an upstream, what they have sent, each with the number
of its leg, and how much of it was received. -/
structure Call where
  query : Message
  legs : List Leg
  sent : List (Nat × Except Str Message)
  received : Nat
  phase : CallPhase

structure UpstreamPool where
  upstreams : List Sender
  counters : List Counters
  calls : List Call
  resolved : UInt64
  allFailedTotal : UInt64
  consecutiveAllFailed : UInt64

inductive Race where
  | resolve (query : Message)
  /-- An operation of a leg, and what it gives. -/
  | leg (call leg : Nat) (answers : ∀ op, SendReply op)
  | send (call leg : Nat)
  | receive (call : Nat)
  | count (call : Nat)
  | cancel (call : Nat)

/-- The query as it is sent: recursion desired, DNSSEC wanted. -/
def outgoing (query : Message) : Message :=
  { query with
    metadata := { query.metadata with recursionDesired := true }
    edns := some { query.edns.getD Edns.new with dnssecOk := true } }

/-- The answer with the id of the original query. -/
def stamped (query response : Message) : Message :=
  { response with metadata := { response.metadata with id := query.metadata.id } }

def LegPhase.next : Sending (Except Str Message) → LegPhase
  | .done result => .sending result
  | program => .running program

def Leg.start (self : Sender) (query : Message) : Leg where
  phase := .next (self.send (outgoing query))
  account := .opened

def LegPhase.isFinished : LegPhase → Bool
  | .finished _ => true
  | _ => false

namespace UpstreamPool

def new (upstreams : List Sender) : UpstreamPool where
  upstreams
  counters := upstreams.map fun _ => .new
  calls := []
  resolved := 0
  allFailedTotal := 0
  consecutiveAllFailed := 0

def setCall (pool : UpstreamPool) (index : Nat) (call : Call) : UpstreamPool :=
  { pool with calls := pool.calls.set index call }

end UpstreamPool

def Call.setLeg (call : Call) (index : Nat) (leg : Leg) : Call :=
  { call with legs := call.legs.set index leg }

/-- The channel has a place for every leg. -/
def Call.hasRoom (call : Call) : Bool :=
  match call.phase with
  | .receiving _ => call.sent.length - call.received < call.legs.length
  | _ => true

/-- `rx.recv`: the next result, or none when every leg is over. -/
def UpstreamPool.receive (pool : UpstreamPool) (index : Nat) (call : Call) (errors : List Str) :
    Option UpstreamPool :=
  match call.sent[call.received]? with
  | some (_, .ok response) =>
      some { pool.setCall index { call with
          received := call.received + 1, phase := .answered (stamped call.query response) } with
        resolved := pool.resolved + 1 }
  | some (_, .error err) =>
      some (pool.setCall index { call with
        received := call.received + 1, phase := .receiving (errors ++ [err]) })
  | none =>
      if call.legs.all fun leg => leg.phase.isFinished then
        some { pool.setCall index { call with phase := .failed errors } with
          allFailedTotal := pool.allFailedTotal + 1 }
      else none

def UpstreamPool.step (pool : UpstreamPool) : Race → Option UpstreamPool
  | .resolve query =>
      some { pool with
        calls := pool.calls ++ [{
          query
          legs := pool.upstreams.map fun upstream => .start upstream query
          sent := []
          received := 0
          phase := .receiving [] }] }
  | .leg index number answers => do
      let call ← pool.calls[index]?
      let leg ← call.legs[number]?
      match leg.phase with
      | .running (.perform op next) =>
          let after : Leg :=
            { phase := .next (next (answers op)), account := leg.account.note op (answers op) }
          return { pool.setCall index (call.setLeg number after) with
            counters := pool.counters.modify number (·.perform op) }
      | _ => none
  | .send index number => do
      let call ← pool.calls[index]?
      let leg ← call.legs[number]?
      match leg.phase with
      | .sending result =>
          if call.hasRoom then
            return pool.setCall index {
              call.setLeg number { leg with phase := .finished result } with
              sent := call.sent ++ [(number, result)] }
          else none
      | _ => none
  | .receive index => do
      let call ← pool.calls[index]?
      match call.phase with
      | .receiving errors => pool.receive index call errors
      | _ => none
  | .count index => do
      let call ← pool.calls[index]?
      match call.phase with
      | .answered response =>
          return { pool.setCall index { call with phase := .returned (.ok response) } with
            consecutiveAllFailed := 0 }
      | .failed errors =>
          return { pool.setCall index { call with phase := .returned (.error errors) } with
            consecutiveAllFailed := pool.consecutiveAllFailed + 1 }
      | _ => none
  | .cancel index => do
      let call ← pool.calls[index]?
      match call.phase with
      | .receiving _ => return pool.setCall index { call with phase := .cancelled }
      | _ => none

/-! ### Everything a step can do -/

inductive PoolMove (before : UpstreamPool) : Race → UpstreamPool → Prop
  | resolve (query : Message) :
      PoolMove before (.resolve query)
        { before with
          calls := before.calls ++ [{
            query
            legs := before.upstreams.map fun upstream => .start upstream query
            sent := []
            received := 0
            phase := .receiving [] }] }
  | leg {index number : Nat} {answers : ∀ op, SendReply op} {call : Call} {leg : Leg} {op : SendOp}
      {next : SendReply op → Sending (Except Str Message)}
      (found : before.calls[index]? = some call)
      (held : call.legs[number]? = some leg) (running : leg.phase = .running (.perform op next)) :
      PoolMove before (.leg index number answers)
        { before.setCall index (call.setLeg number
            { phase := .next (next (answers op))
              account := leg.account.note op (answers op) }) with
          counters := before.counters.modify number (·.perform op) }
  | send {index number : Nat} {call : Call} {leg : Leg} {result : Except Str Message}
      (found : before.calls[index]? = some call) (held : call.legs[number]? = some leg)
      (sending : leg.phase = .sending result) :
      PoolMove before (.send index number)
        (before.setCall index { call.setLeg number { leg with phase := .finished result } with
          sent := call.sent ++ [(number, result)] })
  | answer {index number : Nat} {call : Call} {errors : List Str} {response : Message}
      (found : before.calls[index]? = some call) (receiving : call.phase = .receiving errors)
      (next : call.sent[call.received]? = some (number, .ok response)) :
      PoolMove before (.receive index)
        { before.setCall index { call with
            received := call.received + 1, phase := .answered (stamped call.query response) } with
          resolved := before.resolved + 1 }
  | error {index number : Nat} {call : Call} {errors : List Str} {err : Str}
      (found : before.calls[index]? = some call) (receiving : call.phase = .receiving errors)
      (next : call.sent[call.received]? = some (number, .error err)) :
      PoolMove before (.receive index)
        (before.setCall index { call with
          received := call.received + 1, phase := .receiving (errors ++ [err]) })
  | fail {index : Nat} {call : Call} {errors : List Str}
      (found : before.calls[index]? = some call) (receiving : call.phase = .receiving errors)
      (drained : call.sent[call.received]? = none)
      (ended : ∀ leg ∈ call.legs, leg.phase.isFinished = true) :
      PoolMove before (.receive index)
        { before.setCall index { call with phase := .failed errors } with
          allFailedTotal := before.allFailedTotal + 1 }
  | returnOk {index : Nat} {call : Call} {response : Message}
      (found : before.calls[index]? = some call) (answered : call.phase = .answered response) :
      PoolMove before (.count index)
        { before.setCall index { call with phase := .returned (.ok response) } with
          consecutiveAllFailed := 0 }
  | returnError {index : Nat} {call : Call} {errors : List Str}
      (found : before.calls[index]? = some call) (failed : call.phase = .failed errors) :
      PoolMove before (.count index)
        { before.setCall index { call with phase := .returned (.error errors) } with
          consecutiveAllFailed := before.consecutiveAllFailed + 1 }
  | cancel {index : Nat} {call : Call} {errors : List Str}
      (found : before.calls[index]? = some call) (receiving : call.phase = .receiving errors) :
      PoolMove before (.cancel index)
        (before.setCall index { call with phase := .cancelled })

section Moves

variable {before after : UpstreamPool} {event : Race}

theorem receive_move {index : Nat} {call : Call} {errors : List Str}
    (found : before.calls[index]? = some call) (receiving : call.phase = .receiving errors)
    (stepped : before.receive index call errors = some after) :
    PoolMove before (.receive index) after := by
  simp only [UpstreamPool.receive] at stepped
  split at stepped
  · next number response next =>
    cases stepped
    exact .answer found receiving next
  · next number err next =>
    cases stepped
    exact .error found receiving next
  · next drained =>
    split at stepped
    · next ended =>
      cases stepped
      exact .fail found receiving drained (List.all_eq_true.mp ended)
    · cases stepped

theorem pool_move (stepped : before.step event = some after) : PoolMove before event after := by
  cases event with
  | resolve query =>
      cases stepped
      exact .resolve query
  | leg index number answers =>
      obtain ⟨call, found, stepped⟩ := Option.bind_eq_some_iff.mp stepped
      obtain ⟨leg, held, stepped⟩ := Option.bind_eq_some_iff.mp stepped
      split at stepped
      · next op next running =>
        cases stepped
        exact .leg found held running
      · cases stepped
  | send index number =>
      obtain ⟨call, found, stepped⟩ := Option.bind_eq_some_iff.mp stepped
      obtain ⟨leg, held, stepped⟩ := Option.bind_eq_some_iff.mp stepped
      split at stepped
      · next result sending =>
        split at stepped
        · cases stepped
          exact .send found held sending
        · cases stepped
      · cases stepped
  | receive index =>
      obtain ⟨call, found, stepped⟩ := Option.bind_eq_some_iff.mp stepped
      split at stepped
      · next errors receiving => exact receive_move found receiving stepped
      · cases stepped
  | count index =>
      obtain ⟨call, found, stepped⟩ := Option.bind_eq_some_iff.mp stepped
      split at stepped
      · next response answered =>
        cases stepped
        exact .returnOk found answered
      · next errors failed =>
        cases stepped
        exact .returnError found failed
      · cases stepped
  | cancel index =>
      obtain ⟨call, found, stepped⟩ := Option.bind_eq_some_iff.mp stepped
      split at stepped
      · next errors receiving =>
        cases stepped
        exact .cancel found receiving
      · cases stepped

end Moves

/-! ### One call -/

/-- A leg between two operations: what it has done is that of a `send` under way, or over. -/
def LegSound (leg : Leg) : Prop :=
  match leg.phase with
  | .running program => Ensures noted anything Settled program leg.account
  | .sending result | .finished result => Settled leg.account result

/-- The response is the first answer received, with the id of the query; all before it were
failures. -/
def Won (call : Call) (response : Message) : Prop :=
  ∃ (errors : List Str) (number : Nat) (answer : Message),
    (call.sent.take errors.length).map Prod.snd = errors.map Except.error ∧
      call.sent[errors.length]? = some (number, Except.ok answer) ∧
      response = stamped call.query answer

/-- Every leg is over, and failed. -/
def Lost (call : Call) (errors : List Str) : Prop :=
  (∀ leg ∈ call.legs, leg.phase.isFinished = true) ∧
    call.sent.map Prod.snd = errors.map Except.error

/-- What the receiver has made of the results it took. -/
def PhaseSound (call : Call) : Prop :=
  match call.phase with
  | .receiving errors =>
      (call.sent.take call.received).map Prod.snd = errors.map Except.error
  | .answered response => Won call response
  | .failed errors => Lost call errors
  | .returned (.ok response) => Won call response
  | .returned (.error errors) => Lost call errors
  | .cancelled => True

structure CallSound (upstreams : Nat) (call : Call) : Prop where
  legs : call.legs.length = upstreams
  each : ∀ leg ∈ call.legs, LegSound leg
  /-- What was sent is what the legs that are over returned, once each. -/
  sent : ∀ number result, (number, result) ∈ call.sent ↔
    ∃ leg, call.legs[number]? = some leg ∧ leg.phase = .finished result
  once : (call.sent.map Prod.fst).Nodup
  received : call.received ≤ call.sent.length
  phase : PhaseSound call

section Call

variable {upstreams : Nat} {call : Call}

theorem legSound_next {program : Sending (Except Str Message)} {account : Account}
    (ensured : Ensures noted anything Settled program account) :
    LegSound { phase := .next program, account } := by
  cases program with
  | done result => exact ensured
  | perform op next => exact ensured

theorem callSound_new (senders : List Sender) (query : Message) :
    CallSound senders.length {
      query
      legs := senders.map fun upstream => .start upstream query
      sent := []
      received := 0
      phase := .receiving [] } where
  legs := List.length_map _
  each := by
    intro leg member
    obtain ⟨sender, _, rfl⟩ := List.mem_map.mp member
    exact legSound_next (send_settles sender (outgoing query))
  sent := by
    intro number result
    constructor
    · exact fun absent => nomatch absent
    · rintro ⟨leg, found, finished⟩
      obtain ⟨sender, _, rfl⟩ := List.mem_map.mp (List.mem_of_getElem? found)
      cases finished
  once := List.nodup_nil
  received := Nat.le_refl 0
  phase := rfl

/-- A leg that is not over takes a step that does not end it. -/
theorem CallSound.leg (sound : CallSound upstreams call) {number : Nat} {leg : Leg} {op : SendOp}
    {next : SendReply op → Sending (Except Str Message)} (held : call.legs[number]? = some leg)
    (running : leg.phase = .running (.perform op next)) (reply : SendReply op) :
    CallSound upstreams (call.setLeg number
      { phase := .next (next reply), account := leg.account.note op reply }) := by
  have inside : number < call.legs.length := (List.getElem?_eq_some_iff.mp held).1
  have step : LegSound { phase := .next (next reply), account := leg.account.note op reply } := by
    have here := sound.each leg (List.mem_of_getElem? held)
    simp only [LegSound, running] at here
    exact legSound_next (here.2.2 reply _ rfl trivial)
  have unfinished : ∀ result, LegPhase.next (next reply) ≠ .finished result := by
    intro result
    cases next reply <;> exact fun absent => nomatch absent
  refine ⟨?_, ?_, ?_, sound.once, sound.received, ?_⟩
  · rw [Call.setLeg, List.length_set]
    exact sound.legs
  · intro other member
    rcases List.mem_or_eq_of_mem_set member with old | rfl
    · exact sound.each other old
    · exact step
  · intro place result
    rw [show (call.setLeg number _).sent = call.sent from rfl, sound.sent]
    by_cases same : place = number
    · subst same
      rw [Call.setLeg, List.getElem?_set_self inside, held]
      constructor
      · rintro ⟨other, ⟨⟩, finished⟩
        rw [running] at finished
        cases finished
      · rintro ⟨other, ⟨⟩, finished⟩
        exact absurd finished (unfinished result)
    · rw [Call.setLeg, List.getElem?_set_ne (Ne.symm same)]
  · have phase := sound.phase
    have ended : (∀ leg ∈ call.legs, leg.phase.isFinished = true) → False := by
      intro every
      have finished := every leg (List.mem_of_getElem? held)
      rw [running] at finished
      cases finished
    simp only [PhaseSound, Call.setLeg] at phase ⊢
    split at phase
    · exact phase
    · exact phase
    · exact absurd phase.1 ended
    · exact phase
    · exact absurd phase.1 ended
    · trivial

/-- What was sent later changes nothing for a call that has its answer. -/
theorem Won.more {response : Message} {after : Call} (won : Won call response)
    (query : after.query = call.query) {more : List (Nat × Except Str Message)}
    (sent : after.sent = call.sent ++ more) : Won after response := by
  obtain ⟨errors, number, answer, failures, first, same⟩ := won
  have inside : errors.length < call.sent.length := (List.getElem?_eq_some_iff.mp first).1
  refine ⟨errors, number, answer, ?_, ?_, ?_⟩
  · rw [sent, List.take_append_of_le_length (Nat.le_of_lt inside)]
    exact failures
  · rw [sent, List.getElem?_append_left inside]
    exact first
  · rw [query]
    exact same

/-- A leg that sends its result is over; none of its kind was sent before. -/
theorem CallSound.send (sound : CallSound upstreams call) {number : Nat} {leg : Leg}
    {result : Except Str Message} (held : call.legs[number]? = some leg)
    (sending : leg.phase = .sending result) :
    CallSound upstreams { call.setLeg number { leg with phase := .finished result } with
      sent := call.sent ++ [(number, result)] } := by
  have inside : number < call.legs.length := (List.getElem?_eq_some_iff.mp held).1
  have unsent : ∀ other, (number, other) ∉ call.sent := by
    intro other member
    obtain ⟨same, found, finished⟩ := (sound.sent number other).mp member
    rw [held] at found
    cases found
    rw [sending] at finished
    cases finished
  have unfinished : (∀ leg ∈ call.legs, leg.phase.isFinished = true) → False := by
    intro every
    have ended := every leg (List.mem_of_getElem? held)
    rw [sending] at ended
    cases ended
  refine ⟨?_, ?_, ?_, ?_, ?_, ?_⟩
  · rw [Call.setLeg, List.length_set]
    exact sound.legs
  · intro other member
    rcases List.mem_or_eq_of_mem_set member with old | rfl
    · exact sound.each other old
    · have here := sound.each leg (List.mem_of_getElem? held)
      simp only [LegSound, sending] at here
      exact here
  · intro place other
    rw [List.mem_append, List.mem_singleton, sound.sent, Prod.mk.injEq, Call.setLeg]
    by_cases same : place = number
    · subst same
      rw [List.getElem?_set_self inside]
      constructor
      · rintro (⟨there, found, finished⟩ | ⟨_, rfl⟩)
        · exact absurd ((sound.sent place other).mpr ⟨there, found, finished⟩) (unsent other)
        · exact ⟨_, rfl, rfl⟩
      · rintro ⟨there, ⟨⟩, ⟨⟩⟩
        exact .inr ⟨rfl, rfl⟩
    · rw [List.getElem?_set_ne (Ne.symm same)]
      constructor
      · rintro (there | ⟨rfl, _⟩)
        · exact there
        · exact absurd rfl same
      · exact .inl
  · rw [List.map_append, List.map_singleton]
    apply List.Nodup.append sound.once (List.nodup_singleton _)
    rintro place among (member : place ∈ [number])
    cases List.mem_singleton.mp member
    obtain ⟨⟨same, other⟩, there, rfl⟩ := List.mem_map.mp among
    exact unsent other there
  · rw [List.length_append]
    have received := sound.received
    dsimp only [Call.setLeg]
    omega
  · have phase := sound.phase
    simp only [PhaseSound, Call.setLeg] at phase ⊢
    split at phase
    · rw [List.take_append_of_le_length sound.received]
      exact phase
    · exact phase.more rfl rfl
    · exact absurd phase.1 unfinished
    · exact phase.more rfl rfl
    · exact absurd phase.1 unfinished
    · trivial

theorem CallSound.answer (sound : CallSound upstreams call) {errors : List Str} {number : Nat}
    {response : Message} (receiving : call.phase = .receiving errors)
    (next : call.sent[call.received]? = some (number, .ok response)) :
    CallSound upstreams { call with
      received := call.received + 1, phase := .answered (stamped call.query response) } := by
  have inside : call.received < call.sent.length := (List.getElem?_eq_some_iff.mp next).1
  have phase := sound.phase
  simp only [PhaseSound, receiving] at phase
  have length : call.received = errors.length := by
    have lengths := congrArg List.length phase
    rw [List.length_map, List.length_map, List.length_take] at lengths
    omega
  refine ⟨sound.legs, sound.each, sound.sent, sound.once, inside, ?_⟩
  refine ⟨errors, number, response, ?_, ?_, rfl⟩
  · rw [← length]
    exact phase
  · rw [← length]
    exact next

theorem CallSound.error (sound : CallSound upstreams call) {errors : List Str} {number : Nat}
    {err : Str} (receiving : call.phase = .receiving errors)
    (next : call.sent[call.received]? = some (number, .error err)) :
    CallSound upstreams { call with
      received := call.received + 1, phase := .receiving (errors ++ [err]) } := by
  have inside : call.received < call.sent.length := (List.getElem?_eq_some_iff.mp next).1
  have phase := sound.phase
  simp only [PhaseSound, receiving] at phase
  refine ⟨sound.legs, sound.each, sound.sent, sound.once, inside, ?_⟩
  simp only [PhaseSound, List.take_add_one, next, Option.toList_some, List.map_append, phase,
    List.map_cons, List.map_nil]

theorem CallSound.fail (sound : CallSound upstreams call) {errors : List Str}
    (receiving : call.phase = .receiving errors)
    (drained : call.sent[call.received]? = none)
    (ended : ∀ leg ∈ call.legs, leg.phase.isFinished = true) :
    CallSound upstreams { call with phase := .failed errors } := by
  have phase := sound.phase
  simp only [PhaseSound, receiving] at phase
  have all : call.sent.length ≤ call.received := List.getElem?_eq_none_iff.mp drained
  rw [List.take_of_length_le all] at phase
  exact ⟨sound.legs, sound.each, sound.sent, sound.once, sound.received, ended, phase⟩

theorem CallSound.returnOk (sound : CallSound upstreams call) {response : Message}
    (answered : call.phase = .answered response) :
    CallSound upstreams { call with phase := .returned (.ok response) } := by
  have phase := sound.phase
  simp only [PhaseSound, answered] at phase
  exact ⟨sound.legs, sound.each, sound.sent, sound.once, sound.received, phase⟩

theorem CallSound.returnError (sound : CallSound upstreams call) {errors : List Str}
    (failed : call.phase = .failed errors) :
    CallSound upstreams { call with phase := .returned (.error errors) } := by
  have phase := sound.phase
  simp only [PhaseSound, failed] at phase
  exact ⟨sound.legs, sound.each, sound.sent, sound.once, sound.received, phase⟩

theorem CallSound.cancel (sound : CallSound upstreams call) :
    CallSound upstreams { call with phase := .cancelled } :=
  ⟨sound.legs, sound.each, sound.sent, sound.once, sound.received, trivial⟩

/-- The legs that were heard of are at most those that are over. -/
theorem CallSound.room (sound : CallSound upstreams call) {number : Nat} {leg : Leg}
    {result : Except Str Message} (held : call.legs[number]? = some leg)
    (sending : leg.phase = .sending result) : call.sent.length < call.legs.length := by
  have inside : number < call.legs.length := (List.getElem?_eq_some_iff.mp held).1
  have distinct : (number :: call.sent.map Prod.fst).Nodup := by
    apply List.nodup_cons.mpr ⟨_, sound.once⟩
    intro among
    obtain ⟨⟨same, other⟩, there, rfl⟩ := List.mem_map.mp among
    obtain ⟨found, atNumber, finished⟩ := (sound.sent same other).mp there
    rw [held] at atNumber
    cases atNumber
    rw [sending] at finished
    cases finished
  have bounded : number :: call.sent.map Prod.fst ⊆ List.range call.legs.length := by
    intro place among
    rw [List.mem_range]
    rcases List.mem_cons.mp among with rfl | sent
    · exact inside
    · obtain ⟨⟨same, other⟩, there, rfl⟩ := List.mem_map.mp sent
      obtain ⟨found, atNumber, _⟩ := (sound.sent same other).mp there
      exact (List.getElem?_eq_some_iff.mp atNumber).1
  have fewer := (List.subperm_of_subset distinct bounded).length_le
  rw [List.length_cons, List.length_map, List.length_range] at fewer
  exact fewer

end Call

/-! ### The pool -/

/-- What a call has put into a counter of one upstream. -/
def Call.spent (number : Nat) (kind : Account → Nat) (call : Call) : Nat :=
  ((call.legs[number]?).map fun leg => kind leg.account).getD 0

def Call.wins (call : Call) : Nat :=
  match call.phase with
  | .answered _ | .returned (.ok _) => 1
  | _ => 0

def Call.losses (call : Call) : Nat :=
  match call.phase with
  | .failed _ | .returned (.error _) => 1
  | _ => 0

/-- The outcomes of calls, as they were counted: true for an answer. -/
def noteOutcome (outcomes : List Bool) (before : UpstreamPool) : Race → List Bool
  | .count index =>
      match before.calls[index]?.map Call.phase with
      | some (.answered _) => outcomes ++ [true]
      | some (.failed _) => outcomes ++ [false]
      | _ => outcomes
  | _ => outcomes

/-- How many calls failed since the last answer. -/
def failuresInARow (outcomes : List Bool) : Nat := (outcomes.reverse.takeWhile (!·)).length

theorem failuresInARow_answer (outcomes : List Bool) : failuresInARow (outcomes ++ [true]) = 0 := by
  simp [failuresInARow]

theorem failuresInARow_failure (outcomes : List Bool) :
    failuresInARow (outcomes ++ [false]) = failuresInARow outcomes + 1 := by
  simp [failuresInARow]

structure PoolSound (upstreams : List Sender) (outcomes : List Bool) (pool : UpstreamPool) :
    Prop where
  senders : pool.upstreams = upstreams
  calls : ∀ call ∈ pool.calls, CallSound upstreams.length call
  queries : ∀ number counters, pool.counters[number]? = some counters →
    counters.queries = UInt64.ofNat (total (Call.spent number Account.queries) pool.calls)
  failures : ∀ number counters, pool.counters[number]? = some counters →
    counters.failures = UInt64.ofNat (total (Call.spent number Account.failures) pool.calls)
  resolved : pool.resolved = UInt64.ofNat (total Call.wins pool.calls)
  allFailed : pool.allFailedTotal = UInt64.ofNat (total Call.losses pool.calls)
  inARow : pool.consecutiveAllFailed = UInt64.ofNat (failuresInARow outcomes)

section Pool

variable {upstreams : List Sender} {outcomes : List Bool} {before after : UpstreamPool}
  {event : Race} {index : Nat} {call next : Call}

theorem poolSound_new (upstreams : List Sender) :
    PoolSound upstreams [] (UpstreamPool.new upstreams) where
  senders := rfl
  calls := fun _ absent => nomatch absent
  queries := by
    intro number counters found
    obtain ⟨_, _, rfl⟩ := List.mem_map.mp (List.mem_of_getElem? found)
    rfl
  failures := by
    intro number counters found
    obtain ⟨_, _, rfl⟩ := List.mem_map.mp (List.mem_of_getElem? found)
    rfl
  resolved := rfl
  allFailed := rfl
  inARow := rfl

theorem calls_set (sound : ∀ call ∈ before.calls, CallSound upstreams.length call)
    (moved : CallSound upstreams.length next) :
    ∀ call ∈ before.calls.set index next, CallSound upstreams.length call := by
  intro call member
  rcases List.mem_or_eq_of_mem_set member with old | rfl
  · exact sound call old
  · exact moved

/-- A call moves on without an operation of a leg. -/
theorem PoolSound.move (sound : PoolSound upstreams outcomes before)
    (found : before.calls[index]? = some call) (moved : CallSound upstreams.length next)
    (spent : ∀ number kind, next.spent number kind = call.spent number kind)
    {resolved allFailedTotal consecutiveAllFailed : UInt64} {later : List Bool}
    (wins : resolved = UInt64.ofNat (total Call.wins (before.calls.set index next)))
    (losses : allFailedTotal = UInt64.ofNat (total Call.losses (before.calls.set index next)))
    (inARow : consecutiveAllFailed = UInt64.ofNat (failuresInARow later)) :
    PoolSound upstreams later { before.setCall index next with
      resolved, allFailedTotal, consecutiveAllFailed } where
  senders := sound.senders
  calls := calls_set sound.calls moved
  queries := by
    intro number counters here
    rw [sound.queries number counters here]
    exact congrArg _ (total_set_same found (spent number _)).symm
  failures := by
    intro number counters here
    rw [sound.failures number counters here]
    exact congrArg _ (total_set_same found (spent number _)).symm
  resolved := wins
  allFailed := losses
  inARow := inARow

theorem wins_same (found : before.calls[index]? = some call) (same : next.wins = call.wins)
    (sound : PoolSound upstreams outcomes before) :
    before.resolved = UInt64.ofNat (total Call.wins (before.calls.set index next)) := by
  rw [total_set_same found same]
  exact sound.resolved

theorem losses_same (found : before.calls[index]? = some call) (same : next.losses = call.losses)
    (sound : PoolSound upstreams outcomes before) :
    before.allFailedTotal = UInt64.ofNat (total Call.losses (before.calls.set index next)) := by
  rw [total_set_same found same]
  exact sound.allFailed

/-- The share of the leg that moves changes as its account does, the others' stay. -/
theorem spent_setLeg {number : Nat} {leg other : Leg} (held : call.legs[number]? = some leg)
    (place : Nat) (kind : Account → Nat) :
    (call.setLeg number other).spent place kind =
      if place = number then kind other.account else call.spent place kind := by
  have inside : number < call.legs.length := (List.getElem?_eq_some_iff.mp held).1
  simp only [Call.spent, Call.setLeg]
  by_cases same : place = number
  · subst same
    rw [List.getElem?_set_self inside, if_pos rfl]
    rfl
  · rw [List.getElem?_set_ne (Ne.symm same), if_neg same]

theorem spent_leg {number : Nat} {leg : Leg} (held : call.legs[number]? = some leg)
    (kind : Account → Nat) : call.spent number kind = kind leg.account := by
  simp only [Call.spent, held, Option.map_some, Option.getD_some]

theorem perform_queries (counters : Counters) (account : Account) (op : SendOp)
    (reply : SendReply op) {sum : Nat} (shown : counters.queries = UInt64.ofNat (sum + account.queries)) :
    (counters.perform op).queries = UInt64.ofNat (sum + (account.note op reply).queries) := by
  cases op with
  | countQuery =>
      simp only [Counters.perform, Account.note, shown, UInt64.ofNat_add, UInt64.add_assoc]
      rfl
  | _ => exact shown

theorem perform_failures (counters : Counters) (account : Account) (op : SendOp)
    (reply : SendReply op) {sum : Nat} (shown : counters.failures = UInt64.ofNat (sum + account.failures)) :
    (counters.perform op).failures = UInt64.ofNat (sum + (account.note op reply).failures) := by
  cases op with
  | countFailure =>
      simp only [Counters.perform, Account.note, shown, UInt64.ofNat_add, UInt64.add_assoc]
      rfl
  | _ => exact shown

theorem PoolSound.leg {number : Nat} {leg : Leg} {op : SendOp}
    {rest : SendReply op → Sending (Except Str Message)}
    (sound : PoolSound upstreams outcomes before)
    (found : before.calls[index]? = some call) (held : call.legs[number]? = some leg)
    (running : leg.phase = .running (.perform op rest)) (reply : SendReply op) :
    PoolSound upstreams outcomes
      { before.setCall index (call.setLeg number
          { phase := .next (rest reply), account := leg.account.note op reply }) with
        counters := before.counters.modify number (·.perform op) } := by
  have each := sound.calls call (List.mem_of_getElem? found)
  have spent := @spent_setLeg call number leg
    { phase := .next (rest reply), account := leg.account.note op reply } held
  refine ⟨sound.senders, calls_set sound.calls (each.leg held running reply), ?_, ?_,
    wins_same found rfl sound, losses_same found rfl sound, sound.inARow⟩
  · intro place counters here
    obtain ⟨others, old, new⟩ := @total_split _ (Call.spent place Account.queries) _ _ _ found
      (call.setLeg number
        { phase := .next (rest reply), account := leg.account.note op reply })
    dsimp only [UpstreamPool.setCall] at here ⊢
    rw [List.getElem?_modify] at here
    obtain ⟨counters, there, rfl⟩ := Option.map_eq_some_iff.mp here
    have shown := sound.queries place counters there
    rw [new, spent]
    rw [old] at shown
    by_cases same : place = number
    · subst same
      rw [spent_leg held] at shown
      rw [if_pos rfl, if_pos rfl]
      exact perform_queries counters leg.account op reply shown
    · rw [if_neg same, if_neg (Ne.symm same)]
      exact shown
  · intro place counters here
    obtain ⟨others, old, new⟩ := @total_split _ (Call.spent place Account.failures) _ _ _ found
      (call.setLeg number
        { phase := .next (rest reply), account := leg.account.note op reply })
    dsimp only [UpstreamPool.setCall] at here ⊢
    rw [List.getElem?_modify] at here
    obtain ⟨counters, there, rfl⟩ := Option.map_eq_some_iff.mp here
    have shown := sound.failures place counters there
    rw [new, spent]
    rw [old] at shown
    by_cases same : place = number
    · subst same
      rw [spent_leg held] at shown
      rw [if_pos rfl, if_pos rfl]
      exact perform_failures counters leg.account op reply shown
    · rw [if_neg same, if_neg (Ne.symm same)]
      exact shown

theorem spent_new (senders : List Sender) (query : Message) (number : Nat) {kind : Account → Nat}
    (none : kind .opened = 0) :
    Call.spent number kind {
      query
      legs := senders.map fun upstream => .start upstream query
      sent := []
      received := 0
      phase := .receiving [] } = 0 := by
  simp only [Call.spent, List.getElem?_map, Option.map_map]
  cases senders[number]? with
  | none => rfl
  | some sender => exact none

theorem PoolSound.resolve (sound : PoolSound upstreams outcomes before) (query : Message) :
    PoolSound upstreams outcomes { before with
      calls := before.calls ++ [{
        query
        legs := before.upstreams.map fun upstream => .start upstream query
        sent := []
        received := 0
        phase := .receiving [] }] } := by
  refine ⟨sound.senders, ?_, ?_, ?_, ?_, ?_, sound.inARow⟩
  · intro call member
    rcases List.mem_append.mp member with old | new
    · exact sound.calls call old
    · cases List.mem_singleton.mp new
      rw [sound.senders]
      exact callSound_new upstreams query
  · intro number counters here
    rw [total_snoc, spent_new _ _ _ rfl]
    exact sound.queries number counters here
  · intro number counters here
    rw [total_snoc, spent_new _ _ _ rfl]
    exact sound.failures number counters here
  · rw [total_snoc]
    exact sound.resolved
  · rw [total_snoc]
    exact sound.allFailed

theorem poolSound_step (sound : PoolSound upstreams outcomes before)
    (stepped : before.step event = some after) :
    PoolSound upstreams (noteOutcome outcomes before event) after := by
  cases pool_move stepped with
  | resolve query => exact sound.resolve query
  | leg found held running => exact sound.leg found held running _
  | @send index number call leg result found held sending =>
      have each := sound.calls call (List.mem_of_getElem? found)
      have spent : ∀ place kind, Call.spent place kind
          { call.setLeg number { leg with phase := .finished result } with
            sent := call.sent ++ [(number, result)] } = call.spent place kind := by
        intro place kind
        have moved := @spent_setLeg call number leg { leg with phase := .finished result } held
          place kind
        by_cases same : place = number
        · subst same
          rw [if_pos rfl] at moved
          rw [spent_leg held]
          exact moved
        · rw [if_neg same] at moved
          exact moved
      exact sound.move found (each.send held sending) spent (wins_same found rfl sound)
        (losses_same found rfl sound) sound.inARow
  | @answer index number call errors response found receiving next =>
      have each := sound.calls call (List.mem_of_getElem? found)
      have before : call.wins = 0 := by simp only [Call.wins, receiving]
      have lost : call.losses = 0 := by simp only [Call.losses, receiving]
      apply sound.move found (each.answer receiving next) (fun _ _ => rfl) _
        (losses_same found lost.symm sound) sound.inARow
      rw [total_set_succ found (by rw [before]; rfl), sound.resolved, UInt64.ofNat_add]
      rfl
  | @error index number call errors err found receiving next =>
      have each := sound.calls call (List.mem_of_getElem? found)
      have won : call.wins = 0 := by simp only [Call.wins, receiving]
      have lost : call.losses = 0 := by simp only [Call.losses, receiving]
      exact sound.move found (each.error receiving next) (fun _ _ => rfl)
        (wins_same found won.symm sound) (losses_same found lost.symm sound) sound.inARow
  | @fail index call errors found receiving drained ended =>
      have each := sound.calls call (List.mem_of_getElem? found)
      have won : call.wins = 0 := by simp only [Call.wins, receiving]
      have lost : call.losses = 0 := by simp only [Call.losses, receiving]
      apply sound.move found (each.fail receiving drained ended) (fun _ _ => rfl)
        (wins_same found won.symm sound) _ sound.inARow
      rw [total_set_succ found (by rw [lost]; rfl), sound.allFailed, UInt64.ofNat_add]
      rfl
  | @returnOk index call response found answered =>
      have each := sound.calls call (List.mem_of_getElem? found)
      have won : call.wins = 1 := by simp only [Call.wins, answered]
      have lost : call.losses = 0 := by simp only [Call.losses, answered]
      apply sound.move found (each.returnOk answered) (fun _ _ => rfl)
        (wins_same found won.symm sound) (losses_same found lost.symm sound)
      simp only [noteOutcome, found, Option.map_some, answered, failuresInARow_answer]
      rfl
  | @returnError index call errors found failed =>
      have each := sound.calls call (List.mem_of_getElem? found)
      have won : call.wins = 0 := by simp only [Call.wins, failed]
      have lost : call.losses = 1 := by simp only [Call.losses, failed]
      apply sound.move found (each.returnError failed) (fun _ _ => rfl)
        (wins_same found won.symm sound) (losses_same found lost.symm sound)
      simp only [noteOutcome, found, Option.map_some, failed, failuresInARow_failure, sound.inARow,
        UInt64.ofNat_add]
      rfl
  | @cancel index call errors found receiving =>
      have each := sound.calls call (List.mem_of_getElem? found)
      have won : call.wins = 0 := by simp only [Call.wins, receiving]
      have lost : call.losses = 0 := by simp only [Call.losses, receiving]
      exact sound.move found each.cancel (fun _ _ => rfl) (wins_same found won.symm sound)
        (losses_same found lost.symm sound) sound.inARow

/-- No leg ever waits for a place in the channel, whatever became of the call. -/
theorem send_enabled (sound : PoolSound upstreams outcomes before)
    (found : before.calls[index]? = some call) {number : Nat} {leg : Leg}
    {result : Except Str Message} (held : call.legs[number]? = some leg)
    (sending : leg.phase = .sending result) :
    ∃ after, before.step (.send index number) = some after := by
  have room := (sound.calls call (List.mem_of_getElem? found)).room held sending
  have free : call.hasRoom = true := by
    simp only [Call.hasRoom]
    split
    · rw [decide_eq_true_eq]
      omega
    · rfl
  simp only [UpstreamPool.step, found, held, sending, free, Option.bind_eq_bind, Option.bind_some,
    if_true]
  exact ⟨_, rfl⟩

/-- Once every leg of a call is over, the call returns after a few steps of its own. -/
theorem call_returns (found : before.calls[index]? = some call) {errors : List Str}
    (receiving : call.phase = .receiving errors)
    (ended : ∀ leg ∈ call.legs, leg.phase.isFinished = true) :
    ∃ own after result, run UpstreamPool.step before own = some after ∧
      (∀ event ∈ own, event = .receive index ∨ event = .count index) ∧
      after.calls[index]?.map Call.phase = some (.returned result) := by
  have inside : index < before.calls.length := (List.getElem?_eq_some_iff.mp found).1
  have counted : ∀ (pool : UpstreamPool) (last : Call), pool.calls[index]? = some last →
      (∃ response, last.phase = .answered response) ∨ (∃ errors, last.phase = .failed errors) →
      ∃ after result, pool.step (.count index) = some after ∧
        after.calls[index]?.map Call.phase = some (.returned result) := by
    intro pool last there decided
    have within : index < pool.calls.length := (List.getElem?_eq_some_iff.mp there).1
    rcases decided with ⟨response, answered⟩ | ⟨errors, failed⟩
    · refine ⟨{ pool.setCall index { last with phase := .returned (.ok response) } with
        consecutiveAllFailed := 0 }, .ok response, ?_, ?_⟩
      · simp only [UpstreamPool.step, there, answered, Option.bind_eq_bind, Option.bind_some]
        rfl
      · simp only [UpstreamPool.setCall, List.getElem?_set_self within, Option.map_some]
    · refine ⟨{ pool.setCall index { last with phase := .returned (.error errors) } with
        consecutiveAllFailed := pool.consecutiveAllFailed + 1 }, .error errors, ?_, ?_⟩
      · simp only [UpstreamPool.step, there, failed, Option.bind_eq_bind, Option.bind_some]
        rfl
      · simp only [UpstreamPool.setCall, List.getElem?_set_self within, Option.map_some]
  generalize left : call.sent.length - call.received = waiting
  induction waiting generalizing before call errors with
  | zero =>
      have drained : call.sent[call.received]? = none := by
        apply List.getElem?_eq_none_iff.mpr
        omega
      have received : before.step (.receive index) = some
          { before.setCall index { call with phase := .failed errors } with
            allFailedTotal := before.allFailedTotal + 1 } := by
        simp only [UpstreamPool.step, UpstreamPool.receive, found, receiving, drained,
          Option.bind_eq_bind, Option.bind_some, List.all_eq_true.mpr ended, if_true]
      obtain ⟨after, result, stepped, phase⟩ := counted
        { before.setCall index { call with phase := .failed errors } with
            allFailedTotal := before.allFailedTotal + 1 } { call with phase := .failed errors }
        (List.getElem?_set_self inside) (.inr ⟨errors, rfl⟩)
      refine ⟨[.receive index, .count index], after, result, ?_, by simp, phase⟩
      rw [run_cons_of_step _ received, run_cons_of_step _ stepped]
      rfl
  | succ waiting ih =>
      have inChannel : call.received < call.sent.length := by omega
      obtain ⟨⟨number, sent⟩, next⟩ : ∃ item, call.sent[call.received]? = some item :=
        ⟨_, List.getElem?_eq_getElem inChannel⟩
      cases sent with
      | ok response =>
          have received : before.step (.receive index) = some
              { before.setCall index { call with
                  received := call.received + 1
                  phase := .answered (stamped call.query response) } with
                resolved := before.resolved + 1 } := by
            simp only [UpstreamPool.step, UpstreamPool.receive, found, receiving, next,
              Option.bind_eq_bind, Option.bind_some]
          obtain ⟨after, result, stepped, phase⟩ := counted
            { before.setCall index { call with
                received := call.received + 1
                phase := .answered (stamped call.query response) } with
              resolved := before.resolved + 1 } _
            (List.getElem?_set_self inside) (.inl ⟨_, rfl⟩)
          refine ⟨[.receive index, .count index], after, result, ?_, by simp, phase⟩
          rw [run_cons_of_step _ received, run_cons_of_step _ stepped]
          rfl
      | error err =>
          have received : before.step (.receive index) = some
              (before.setCall index { call with
                received := call.received + 1, phase := .receiving (errors ++ [err]) }) := by
            simp only [UpstreamPool.step, UpstreamPool.receive, found, receiving, next,
              Option.bind_eq_bind, Option.bind_some]
          have later := @ih (before.setCall index { call with
              received := call.received + 1, phase := .receiving (errors ++ [err]) })
            { call with received := call.received + 1, phase := .receiving (errors ++ [err]) }
            (List.getElem?_set_self inside) (errors ++ [err]) rfl ended
            (by rw [UpstreamPool.setCall, List.length_set]; exact inside) (by dsimp only; omega)
          obtain ⟨own, after, result, ran, mine, phase⟩ := later
          refine ⟨.receive index :: own, after, result, ?_, ?_, phase⟩
          · rw [run_cons_of_step _ received]
            exact ran
          · intro event member
            rcases List.mem_cons.mp member with rfl | among
            · exact .inl rfl
            · exact mine event among

end Pool

/-! ### Every run -/

/-- What a call that returned has returned. -/
structure Fair (upstreams : Nat) (call : Call) : Prop where
  /-- A response is a usable answer of one of the legs, with the id of the query. -/
  answer : ∀ response, call.phase = .returned (.ok response) →
    ∃ leg answer, leg ∈ call.legs ∧ leg.phase = .finished (.ok answer) ∧ ¬ Unusable answer ∧
      response = stamped call.query answer
  /-- A failure is that of every leg, each reported once. -/
  failure : ∀ errors, call.phase = .returned (.error errors) → errors.length = upstreams ∧
    (∀ leg ∈ call.legs, ∃ err ∈ errors, leg.phase = .finished (.error err))

/-- No leg of any call is under way. -/
def AtRest (pool : UpstreamPool) : Prop :=
  ∀ call ∈ pool.calls, ∀ leg ∈ call.legs, leg.phase.isFinished = true

/-- The leg of this number failed. -/
def Call.legFailed (number : Nat) (call : Call) : Bool :=
  match call.legs[number]?.map Leg.phase with
  | some (.finished (.error _)) => true
  | _ => false

section Runs

variable {upstreams : List Sender} {outcomes : List Bool} {pool : UpstreamPool} {call : Call}

theorem finished_cases {leg : Leg} (ended : leg.phase.isFinished = true) :
    ∃ result, leg.phase = .finished result := by
  cases here : leg.phase with
  | finished result => exact ⟨result, rfl⟩
  | running program =>
      rw [here] at ended
      cases ended
  | sending result =>
      rw [here] at ended
      cases ended

/-- Every leg that is over was heard of once. -/
theorem sent_length {number : Nat} (sound : CallSound number call)
    (ended : ∀ leg ∈ call.legs, leg.phase.isFinished = true) : call.sent.length = number := by
  have every : (call.sent.map Prod.fst).Perm (List.range number) := by
    apply (List.perm_ext_iff_of_nodup sound.once List.nodup_range).mpr
    intro place
    rw [List.mem_range, List.mem_map]
    constructor
    · rintro ⟨⟨same, result⟩, among, rfl⟩
      obtain ⟨leg, found, _⟩ := (sound.sent same result).mp among
      rw [← sound.legs]
      exact (List.getElem?_eq_some_iff.mp found).1
    · intro inside
      rw [← sound.legs] at inside
      obtain ⟨result, finished⟩ := finished_cases (ended _ (List.getElem_mem inside))
      exact ⟨(place, result), (sound.sent place result).mpr
        ⟨_, List.getElem?_eq_getElem inside, finished⟩, rfl⟩
  have lengths := every.length_eq
  rw [List.length_map, List.length_range] at lengths
  exact lengths

theorem CallSound.fair {number : Nat} (sound : CallSound number call) : Fair number call := by
  have phase := sound.phase
  constructor
  · intro response returned
    simp only [PhaseSound, returned] at phase
    obtain ⟨errors, place, answer, _, first, same⟩ := phase
    obtain ⟨leg, found, finished⟩ :=
      (sound.sent place (.ok answer)).mp (List.mem_of_getElem? first)
    have settled := sound.each leg (List.mem_of_getElem? found)
    simp only [LegSound, finished] at settled
    exact ⟨leg, answer, List.mem_of_getElem? found, finished, (settled.answered answer rfl).1, same⟩
  · intro errors returned
    simp only [PhaseSound, returned] at phase
    obtain ⟨ended, failures⟩ := phase
    constructor
    · have lengths := congrArg List.length failures
      rw [List.length_map, List.length_map, sent_length sound ended] at lengths
      exact lengths.symm
    · intro leg member
      obtain ⟨result, finished⟩ := finished_cases (ended leg member)
      obtain ⟨place, found⟩ := List.getElem?_of_mem member
      have heard : result ∈ call.sent.map Prod.snd :=
        List.mem_map.mpr
          ⟨(place, result), (sound.sent place result).mpr ⟨leg, found, finished⟩, rfl⟩
      rw [failures] at heard
      obtain ⟨err, among, rfl⟩ := List.mem_map.mp heard
      exact ⟨err, among, finished⟩

/-- With nothing under way, each upstream was asked once for every call, and its failures are
its legs that failed. -/
theorem counters_at_rest (sound : PoolSound upstreams outcomes pool) (rest : AtRest pool)
    {number : Nat} {counters : Counters} (here : pool.counters[number]? = some counters)
    (known : number < upstreams.length) :
    counters.queries = UInt64.ofNat pool.calls.length ∧
      counters.failures = UInt64.ofNat (pool.calls.countP (Call.legFailed number)) := by
  have settled : ∀ call ∈ pool.calls, ∃ leg result, call.legs[number]? = some leg ∧
      leg.phase = .finished result ∧ Settled leg.account result := by
    intro call member
    have each := sound.calls call member
    have inside : number < call.legs.length := by
      rw [each.legs]
      exact known
    obtain ⟨result, finished⟩ := finished_cases (rest call member _ (List.getElem_mem inside))
    have here := each.each _ (List.getElem_mem inside)
    simp only [LegSound, finished] at here
    exact ⟨_, result, List.getElem?_eq_getElem inside, finished, here⟩
  rw [sound.queries number counters here, sound.failures number counters here]
  constructor
  · have every : total (Call.spent number Account.queries) pool.calls =
        pool.calls.countP fun _ => true := by
      apply total_eq_countP
      intro call member
      obtain ⟨leg, result, found, _, done⟩ := settled call member
      rw [spent_leg found, done.once]
      rfl
    rw [every, List.countP_true]
  · have failed : total (Call.spent number Account.failures) pool.calls =
        pool.calls.countP (Call.legFailed number) := by
      apply total_eq_countP
      intro call member
      obtain ⟨leg, result, found, finished, done⟩ := settled call member
      rw [spent_leg found, done.counted.1]
      simp only [Call.legFailed, found, Option.map_some, finished]
      cases result <;> rfl
    rw [failed]

/-- A connection that gives this for what is sent on it. -/
def replying (sent : Sent) : ∀ op, SendReply op
  | .acquire => .ok 1
  | .sendQuery _ _ => sent
  | .countQuery => ()
  | .invalidate _ _ => ()
  | .countFailure => ()
  | .countConsecutive => ()
  | .clearConsecutive => ()
  | .stampSuccess => ()
  | .resetBackoff => ()
  | .prove => ()

def sampleUpstreams : List Sender :=
  [{ label := "https://one.test/dns-query".toList, display := fun _ => "Server Failure".toList },
   { label := "quic://two.test".toList, display := fun _ => "Server Failure".toList }]

def sampleResponse (code : ResponseCode) : Message :=
  (Message.new 0 .Response .Query).withResponseCode code

/-- One upstream answers SERVFAIL, the other NXDOMAIN a little later. -/
def slowerWins : List Race :=
  .resolve (Message.new 7 .Query .Query) ::
    List.replicate 5 (.leg 0 0 (replying (.answer (sampleResponse .ServFail)))) ++
    [.send 0 0, .receive 0] ++
    List.replicate 7 (.leg 0 1 (replying (.answer (sampleResponse .NXDomain)))) ++
    [.send 0 1, .receive 0, .count 0]

end Runs

end Sumidero.Upstream
