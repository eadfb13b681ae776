import Mathlib.Logic.Function.Basic
import Sumidero.Cache.Refinement
import Sumidero.Data.Runs
import Sumidero.Server.Failures

namespace Sumidero.Server

open Sumidero.Cache Sumidero.Dns Sumidero.Data

/-! The lookups a pipeline has in flight: any number of clients, the leader tasks
that resolve for them and the refresh tasks behind stale answers.  Each mutex
section, with the guard built and the task spawned after it, and each step of a
task or client between two awaits is one step.  A task may be dropped or panic
anywhere; its guard and its sender then go in either order. -/

/-- What `upstream.resolve` returned; `none` when every leg failed. -/
abbrev Resolved := Option Message

inductive LeaderPhase where
  | spawned
  | resolving
  | storing (answer : Message)
  | settled (answer : Resolved)
  | unguarded (answer : Resolved)
  | published
  | unwinding (guard tx : Bool)
  | ended
deriving Repr, DecidableEq

/-- A spawned leader and the broadcast channel it made; `sent` is what it published. -/
structure Leader where
  key : CacheKey
  request : Message
  now : Instant
  phase : LeaderPhase
  sent : Option Resolved
deriving Repr, DecidableEq

inductive RefreshPhase where
  | spawned
  | checked (now : Instant)
  | resolving (now : Instant)
  | storing (now : Instant) (answer : Message)
  | settled
  | ended
deriving Repr, DecidableEq

structure Refresh where
  key : CacheKey
  request : Message
  phase : RefreshPhase
deriving Repr, DecidableEq

/-- One query inside `resolve_cached`; `now` is the instant it arrived. -/
structure Asking where
  request : Message
  key : CacheKey
  now : Instant
deriving Repr, DecidableEq

def Leader.spawn (query : Asking) : Leader where
  key := query.key
  request := query.request
  now := query.now
  phase := .spawned
  sent := none

def Refresh.spawn (query : Asking) : Refresh where
  key := query.key
  request := query.request
  phase := .spawned

inductive Outcome where
  | answer (msg : Message)
  | servfail
deriving Repr, DecidableEq

/-- A query's answer comes from the cache, or from the leader it waited for.  A
receiver made after its leader published is `late`, and never sees that value. -/
inductive ClientPhase where
  | absent
  | asking (query : Asking)
  | missed (query : Asking)
  | unheld (query : Asking)
  | stale (query : Asking) (cached : Message)
  | waiting (leader : Nat) (late : Bool)
  | answered (outcome : Outcome)
  | served (leader : Nat) (outcome : Outcome)
  | cancelled
deriving Repr, DecidableEq

def LeaderPhase.guardAlive : LeaderPhase → Bool
  | .spawned | .resolving | .storing _ | .settled _ => true
  | .unwinding guard _ => guard
  | _ => false

def LeaderPhase.txAlive : LeaderPhase → Bool
  | .unwinding _ tx => tx
  | .ended => false
  | _ => true

/-- After `resolve`: an answer to store, or nothing more to file. -/
def LeaderPhase.concluded (result : Resolved) : Option Message → LeaderPhase
  | some answer => .storing answer
  | none => .settled result

def RefreshPhase.concluded (now : Instant) : Option Message → RefreshPhase
  | some answer => .storing now answer
  | none => .settled

def RefreshPhase.guardAlive : RefreshPhase → Bool
  | .ended => false
  | _ => true

structure Flight where
  clock : Instant
  cache : Inner
  failures : FailureCache
  lookups : CacheKey → Option Nat
  refreshing : CacheKey → Bool
  leaders : List Leader
  refreshes : List Refresh
  clients : Nat → ClientPhase
  /-- History: keys that failed, and the instant until which the hold recorded
  for the failure should last from the moment it was known. -/
  pledges : List (CacheKey × Nat)

inductive Event where
  | tick (later : Instant)
  | arrive (client : Nat) (request : Message) (key : CacheKey)
  | lookup (client : Nat)
  | refreshSection (client : Nat)
  | checkHeld (client : Nat)
  | join (client : Nat)
  | recv (client : Nat)
  | cancel (client : Nat)
  | startLeader (leader : Nat)
  | concludeLeader (leader : Nat) (result : Resolved) (victim : CacheKey)
  | storeLeader (leader : Nat)
  | dropGuard (leader : Nat)
  | publish (leader : Nat)
  | dropTx (leader : Nat)
  | crashLeader (leader : Nat)
  | checkRefresh (refresh : Nat)
  | startRefresh (refresh : Nat)
  | concludeRefresh (refresh : Nat) (result : Resolved) (victim : CacheKey)
  | storeRefresh (refresh : Nat)
  | endRefresh (refresh : Nat)

namespace Flight

def setClient (flight : Flight) (client : Nat) (phase : ClientPhase) : Flight :=
  { flight with clients := Function.update flight.clients client phase }

def setLeader (flight : Flight) (leader : Nat) (task : Leader) (phase : LeaderPhase) : Flight :=
  { flight with leaders := flight.leaders.set leader { task with phase } }

def setRefresh (flight : Flight) (refresh : Nat) (task : Refresh) (phase : RefreshPhase) : Flight :=
  { flight with refreshes := flight.refreshes.set refresh { task with phase } }

/-- Is a sender of the leader's channel left, its own or the one in the map? -/
def senderAlive (flight : Flight) (leader : Nat) : Prop :=
  ∃ task, flight.leaders[leader]? = some task ∧
    (task.phase.txAlive = true ∨ flight.lookups task.key = some leader)

/-- Become the key's leader: a new channel in the map, a guard, a spawned task. -/
def lead (flight : Flight) (client : Nat) (query : Asking) : Flight :=
  { flight with
    lookups := Function.update flight.lookups query.key (some flight.leaders.length)
    leaders := flight.leaders ++ [.spawn query]
    clients := Function.update flight.clients client (.waiting flight.leaders.length false) }

/-- The section in `lookups`: subscribe to the key's leader, or become it. -/
def subscribe (flight : Flight) (client : Nat) (query : Asking) : Flight :=
  match flight.lookups query.key with
  | some leader =>
      flight.setClient client (.waiting leader
        ((flight.leaders[leader]?.bind Leader.sent).isSome))
  | none => flight.lead client query

/-- `spawn_refresh`'s section: nothing when the key is already being refreshed. -/
def spawnRefresh (flight : Flight) (query : Asking) : Flight :=
  if flight.refreshing query.key then flight
  else
    { flight with
      refreshing := Function.update flight.refreshing query.key true
      refreshes := flight.refreshes ++ [.spawn query] }

@[simp] theorem spawnRefresh_clients (flight : Flight) (query : Asking) :
    (flight.spawnRefresh query).clients = flight.clients := by
  simp only [spawnRefresh]
  split <;> rfl

@[simp] theorem spawnRefresh_pledges (flight : Flight) (query : Asking) :
    (flight.spawnRefresh query).pledges = flight.pledges := by
  simp only [spawnRefresh]
  split <;> rfl

@[simp] theorem subscribe_pledges (flight : Flight) (client : Nat) (query : Asking) :
    (flight.subscribe client query).pledges = flight.pledges := by
  simp only [subscribe]
  split <;> rfl

/-- A resolution that failed at the clock: `record` gets the instant the task was
given, the hold should run from now. -/
def recordFailure (flight : Flight) (key : CacheKey) (now : Instant) (victim : CacheKey) :
    Option Flight := do
  let (failures, hold) ← flight.failures.record key now victim
  return { flight with
    failures
    pledges := (key, flight.clock.nanos + hold) :: flight.pledges }

def clearFailures (flight : Flight) (key : CacheKey) : Flight :=
  { flight with
    failures := flight.failures.clear key
    pledges := flight.pledges.filter fun pledge => pledge.1 ≠ key }

/-- The first half of what follows `resolve`, up to the answer to store: a failed
resolution or an upstream SERVFAIL is recorded, anything else clears the key. -/
def conclude (flight : Flight) (key : CacheKey) (now : Instant) (result : Resolved)
    (victim : CacheKey) : Option (Flight × Option Message) :=
  match result with
  | none => do return (← flight.recordFailure key now victim, none)
  | some answer =>
      if answer.responseCode = .ServFail then do
        return (← flight.recordFailure key now victim, none)
      else some (flight.clearFailures key, some answer)

end Flight

/-- What the client gets when it polls its receiver: the published answer, or the
closed channel once every sender is gone. -/
def Flight.receive (flight : Flight) (leader : Nat) (late : Bool) : Option Outcome := do
  let task ← flight.leaders[leader]?
  match task.sent, late with
  | some (some answer), false => return .answer answer
  | some none, false => return .servfail
  | _, _ =>
      if task.phase.txAlive = true ∨ flight.lookups task.key = some leader then none
      else return .servfail

def step (wireLen : Message → Option Nat) (flight : Flight) : Event → Option Flight
  | .tick later =>
      if flight.clock.nanos ≤ later.nanos then some { flight with clock := later } else none
  | .arrive client request key =>
      match flight.clients client with
      | .absent => some (flight.setClient client (.asking { request, key, now := flight.clock }))
      | _ => none
  | .lookup client =>
      match flight.clients client with
      | .asking query => do
          let (cache, lookup) ← flight.cache.get query.key query.now
          let flight := { flight with cache }
          return flight.setClient client (match lookup with
            | .Fresh cached => .answered (.answer cached)
            | .Stale cached => .stale query cached
            | .Miss => .missed query)
      | _ => none
  | .refreshSection client =>
      match flight.clients client with
      | .stale query cached =>
          some ((flight.spawnRefresh query).setClient client (.answered (.answer cached)))
      | _ => none
  | .checkHeld client =>
      match flight.clients client with
      | .missed query =>
          some (flight.setClient client
            (if (flight.failures.held query.key query.now).isSome then .answered .servfail
              else .unheld query))
      | _ => none
  | .join client =>
      match flight.clients client with
      | .unheld query => some (flight.subscribe client query)
      | _ => none
  | .recv client =>
      match flight.clients client with
      | .waiting leader late => do
          let outcome ← flight.receive leader late
          return flight.setClient client (.served leader outcome)
      | _ => none
  | .cancel client =>
      match flight.clients client with
      | .waiting _ _ => some (flight.setClient client .cancelled)
      | _ => none
  | .startLeader leader => do
      let task ← flight.leaders[leader]?
      match task.phase with
      | .spawned => return flight.setLeader leader task .resolving
      | _ => none
  | .concludeLeader leader result victim => do
      let task ← flight.leaders[leader]?
      match task.phase with
      | .resolving =>
          let (flight, stored) ← flight.conclude task.key task.now result victim
          return flight.setLeader leader task (.concluded result stored)
      | _ => none
  | .storeLeader leader => do
      let task ← flight.leaders[leader]?
      match task.phase with
      | .storing answer =>
          let cache ← flight.cache.insert wireLen task.key answer task.now
          return { flight with cache }.setLeader leader task (.settled (some answer))
      | _ => none
  | .dropGuard leader => do
      let task ← flight.leaders[leader]?
      let flight := { flight with lookups := Function.update flight.lookups task.key none }
      match task.phase with
      | .settled answer => return flight.setLeader leader task (.unguarded answer)
      | .unwinding true tx => return flight.setLeader leader task (.unwinding false tx)
      | _ => none
  | .publish leader => do
      let task ← flight.leaders[leader]?
      match task.phase with
      | .unguarded answer =>
          return flight.setLeader leader { task with sent := some answer } .published
      | _ => none
  | .dropTx leader => do
      let task ← flight.leaders[leader]?
      match task.phase with
      | .published => return flight.setLeader leader task .ended
      | .unwinding guard true => return flight.setLeader leader task (.unwinding guard false)
      | _ => none
  | .crashLeader leader => do
      let task ← flight.leaders[leader]?
      match task.phase with
      | .published | .unwinding _ _ | .ended => none
      | phase => return flight.setLeader leader task (.unwinding phase.guardAlive true)
  | .checkRefresh refresh => do
      let task ← flight.refreshes[refresh]?
      match task.phase with
      | .spawned =>
          return flight.setRefresh refresh task
            (if (flight.failures.held task.key flight.clock).isSome then .settled
              else .checked flight.clock)
      | _ => none
  | .startRefresh refresh => do
      let task ← flight.refreshes[refresh]?
      match task.phase with
      | .checked now => return flight.setRefresh refresh task (.resolving now)
      | _ => none
  | .concludeRefresh refresh result victim => do
      let task ← flight.refreshes[refresh]?
      match task.phase with
      | .resolving now =>
          let (flight, stored) ← flight.conclude task.key now result victim
          return flight.setRefresh refresh task (.concluded now stored)
      | _ => none
  | .storeRefresh refresh => do
      let task ← flight.refreshes[refresh]?
      match task.phase with
      | .storing now answer =>
          let cache ← flight.cache.insert wireLen task.key answer now
          return { flight with cache }.setRefresh refresh task .settled
      | _ => none
  | .endRefresh refresh => do
      let task ← flight.refreshes[refresh]?
      match task.phase with
      | .ended => none
      | _ =>
          return { flight with refreshing := Function.update flight.refreshing task.key false }
            |>.setRefresh refresh task .ended

/-- A pipeline that has not been asked anything yet. -/
structure Initial (flight : Flight) : Prop where
  lookups : ∀ key, flight.lookups key = none
  refreshing : ∀ key, flight.refreshing key = false
  leaders : flight.leaders = []
  refreshes : flight.refreshes = []
  clients : ∀ client, flight.clients client = .absent
  cache : flight.cache.Sound
  failures : flight.failures = ∅
  pledges : flight.pledges = []

end Sumidero.Server
