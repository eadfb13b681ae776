import Sumidero.Data.Runs
import Mathlib.Logic.Function.Basic

namespace Sumidero.Upstream

open Sumidero.Data

/-! One `ReconnectingUpstream`.  Each section on the `ConnState` mutex, each
access to a shared atomic and each await that ends is one step; the event says
which query or build task moves.  Instants and backoffs are milliseconds. -/

abbrev Instant := Nat

def MIN_RECONNECT_BACKOFF : Nat := 500
def MAX_RECONNECT_BACKOFF : Nat := 30000
def MAX_PROBATION : Nat := 5000

/-- The transport of a `connected` state is named by its generation: every
install draws a new one. -/
inductive ConnState where
  | down (retryAt : Instant) (lastError : String)
  | connecting
  | connected (generation : Nat) (probationUntil : Option Instant)
deriving Repr, DecidableEq

/-- Where one spawned `repair` task stands.  `Concluded` runs its drop section
from `settled`, or from `building` when the task is dropped at its await. -/
inductive BuildPhase where
  | building
  | built (result : Except String Nat) (backoff : Nat)
  | installed (nextBackoff : Nat)
  | settled
  | notifying
  | ended

inductive Attempt where
  | first
  | second
deriving Repr, DecidableEq

/-- Where one query stands inside `send`.  `seen` is the `repair_done` version
its `subscribe` read; `generation` is the connection it was sent on. -/
inductive QueryPhase where
  | idle
  | acquiring (attempt : Attempt)
  | subscribed (attempt : Attempt) (seen : Nat)
  | triggering (attempt : Attempt) (seen : Nat)
  | parked (attempt : Attempt) (seen : Nat)
  | sent (attempt : Attempt) (generation : Nat)
  | succeeding (generation : Nat)
  | proving (generation : Nat)
  | invalidating (generation : Nat) (why : String) (retry : Bool)
  | rebuilding (retry : Bool)
  | done

structure ReconnectingUpstream where
  now : Instant
  state : ConnState
  builds : Nat
  backoffMs : Nat
  repairDone : Nat
  tasks : List BuildPhase
  queries : Nat → QueryPhase
  /-- History: the build that wrote the current `connecting` or `connected`. -/
  owner : Option Nat
  /-- History: connections on which a query was answered usably. -/
  answered : List Nat

namespace ReconnectingUpstream

def new (initial : ConnState) (now : Instant) : ReconnectingUpstream where
  now := now
  state := initial
  builds := match initial with
    | .connected _ _ => 1
    | _ => 0
  backoffMs := MIN_RECONNECT_BACKOFF
  repairDone := 0
  tasks := []
  queries := fun _ => .idle
  owner := none
  answered := []

def setQuery (upstream : ReconnectingUpstream) (query : Nat) (phase : QueryPhase) :
    ReconnectingUpstream :=
  { upstream with queries := Function.update upstream.queries query phase }

def setTask (upstream : ReconnectingUpstream) (task : Nat) (phase : BuildPhase) :
    ReconnectingUpstream :=
  { upstream with tasks := upstream.tasks.set task phase }

/-- `Down` and due becomes `Connecting`, and the build is spawned; anything
else is left alone. -/
def triggerRepair (upstream : ReconnectingUpstream) : ReconnectingUpstream :=
  match upstream.state with
  | .down retryAt _ =>
      if retryAt ≤ upstream.now then
        { upstream with
          state := .connecting
          tasks := upstream.tasks ++ [.building]
          owner := some upstream.tasks.length }
      else upstream
  | _ => upstream

/-- The end of the awaited build: its result, the backoff in force and, for a
success, the generation drawn from `builds`. -/
def finishBuild (upstream : ReconnectingUpstream) (task : Nat) (result : Except String Unit) :
    ReconnectingUpstream :=
  match result with
  | .ok _ =>
      { upstream with builds := upstream.builds + 1 }.setTask task
        (.built (.ok (upstream.builds + 1)) upstream.backoffMs)
  | .error err => upstream.setTask task (.built (.error err) upstream.backoffMs)

/-- `repair`'s section on the state: install the connection or the failure. -/
def install (upstream : ReconnectingUpstream) (task : Nat) (result : Except String Nat)
    (backoff : Nat) : ReconnectingUpstream :=
  match result with
  | .ok generation =>
      { upstream with
        state := .connected generation (some (upstream.now + min backoff MAX_PROBATION))
        owner := some task }.setTask task (.installed (min (backoff * 2) MAX_PROBATION))
  | .error err =>
      { upstream with state := .down (upstream.now + backoff) err }.setTask task
        (.installed (min (backoff * 2) MAX_RECONNECT_BACKOFF))

/-- The section of `Concluded`'s drop. -/
def conclude (upstream : ReconnectingUpstream) (task : Nat) : ReconnectingUpstream :=
  match upstream.state with
  | .connecting =>
      { upstream with state := .down upstream.now "connection build abandoned" }.setTask task
        .notifying
  | _ => upstream.setTask task .notifying

/-- The section of `invalidate`, and whether it dropped the connection. -/
def invalidate (upstream : ReconnectingUpstream) (generation : Nat) (why : String) :
    ReconnectingUpstream × Bool :=
  match upstream.state with
  | .connected current probationUntil =>
      if current = generation then
        ({ upstream with state := .down (probationUntil.getD upstream.now) why }, true)
      else (upstream, false)
  | _ => (upstream, false)

/-- The section of `record_success`. -/
def recordSuccess (upstream : ReconnectingUpstream) : ReconnectingUpstream :=
  match upstream.state with
  | .connected generation _ => { upstream with state := .connected generation none }
  | _ => upstream

/-- After `invalidate`: a fatal error of the first attempt acquires again, a
timeout and the second attempt are over. -/
def afterInvalidate (retry : Bool) : QueryPhase :=
  if retry then .acquiring .second else .done

end ReconnectingUpstream

inductive Event where
  | tick (elapsed : Nat)
  | begin (query : Nat)
  | subscribe (query : Nat)
  | inspect (query : Nat)
  | trigger (query : Nat)
  | wake (query : Nat)
  | giveUp (query : Nat)
  | answer (query : Nat) (usable : Bool)
  | resetBackoff (query : Nat)
  | prove (query : Nat)
  | queryError (query : Nat)
  | fatal (query : Nat) (err : String)
  | timeout (query : Nat)
  | invalidate (query : Nat)
  | finishBuild (task : Nat) (result : Except String Unit)
  | install (task : Nat)
  | storeBackoff (task : Nat)
  | drop (task : Nat)
  | conclude (task : Nat)
  | notify (task : Nat)

open ReconnectingUpstream in
/-- One step of one query or build task.  Deadlines are not modelled: a query
may time out wherever the source bounds its wait. -/
def step (upstream : ReconnectingUpstream) : Event → Option ReconnectingUpstream
  | .tick elapsed => some { upstream with now := upstream.now + elapsed }
  | .begin query =>
      match upstream.queries query with
      | .idle => some (upstream.setQuery query (.acquiring .first))
      | _ => none
  | .subscribe query =>
      match upstream.queries query with
      | .acquiring attempt =>
          some (upstream.setQuery query (.subscribed attempt upstream.repairDone))
      | _ => none
  | .inspect query =>
      match upstream.queries query with
      | .subscribed attempt seen =>
          match upstream.state with
          | .connected generation _ => some (upstream.setQuery query (.sent attempt generation))
          | .down retryAt _ =>
              if upstream.now < retryAt then some (upstream.setQuery query .done)
              else some (upstream.setQuery query (.triggering attempt seen))
          | .connecting => some (upstream.setQuery query (.triggering attempt seen))
      | _ => none
  | .trigger query =>
      match upstream.queries query with
      | .triggering attempt seen =>
          some (upstream.triggerRepair.setQuery query (.parked attempt seen))
      | .rebuilding retry => some (upstream.triggerRepair.setQuery query (afterInvalidate retry))
      | _ => none
  | .wake query =>
      match upstream.queries query with
      | .parked attempt seen =>
          if upstream.repairDone ≠ seen then
            some (upstream.setQuery query (.acquiring attempt))
          else none
      | _ => none
  | .giveUp query =>
      match upstream.queries query with
      | .parked _ _ => some (upstream.setQuery query .done)
      | _ => none
  | .answer query usable =>
      match upstream.queries query with
      | .sent _ generation =>
          if usable then
            some ({ upstream with answered := generation :: upstream.answered }.setQuery query
              (.succeeding generation))
          else some (upstream.setQuery query .done)
      | _ => none
  | .resetBackoff query =>
      match upstream.queries query with
      | .succeeding generation =>
          some ({ upstream with backoffMs := MIN_RECONNECT_BACKOFF }.setQuery query
            (.proving generation))
      | _ => none
  | .prove query =>
      match upstream.queries query with
      | .proving _ => some (upstream.recordSuccess.setQuery query .done)
      | _ => none
  | .queryError query =>
      match upstream.queries query with
      | .sent _ _ => some (upstream.setQuery query .done)
      | _ => none
  | .fatal query err =>
      match upstream.queries query with
      | .sent attempt generation =>
          some (upstream.setQuery query (.invalidating generation err (attempt = .first)))
      | _ => none
  | .timeout query =>
      match upstream.queries query with
      | .sent _ generation =>
          some (upstream.setQuery query
            (.invalidating generation "query timed out on this connection" false))
      | _ => none
  | .invalidate query =>
      match upstream.queries query with
      | .invalidating generation why retry =>
          match upstream.invalidate generation why with
          | (after, true) => some (after.setQuery query (.rebuilding retry))
          | (after, false) => some (after.setQuery query (afterInvalidate retry))
      | _ => none
  | .finishBuild task result =>
      match upstream.tasks[task]? with
      | some .building => some (upstream.finishBuild task result)
      | _ => none
  | .install task =>
      match upstream.tasks[task]? with
      | some (.built result backoff) => some (upstream.install task result backoff)
      | _ => none
  | .storeBackoff task =>
      match upstream.tasks[task]? with
      | some (.installed nextBackoff) =>
          some ({ upstream with backoffMs := nextBackoff }.setTask task .settled)
      | _ => none
  | .drop task =>
      match upstream.tasks[task]? with
      | some .building => some (upstream.conclude task)
      | _ => none
  | .conclude task =>
      match upstream.tasks[task]? with
      | some .settled => some (upstream.conclude task)
      | _ => none
  | .notify task =>
      match upstream.tasks[task]? with
      | some .notifying =>
          some ({ upstream with repairDone := upstream.repairDone + 1 }.setTask task .ended)
      | _ => none

/-- What `UpstreamPool::new` starts an upstream with: the connection its start-up
round built, or `Down` and due. -/
inductive Initial : ReconnectingUpstream → Prop
  | connected (now : Instant) : Initial (.new (.connected 1 none) now)
  | down (now : Instant) (error : String) : Initial (.new (.down now error) now)

namespace ReconnectingUpstream

variable (upstream : ReconnectingUpstream) (query task : Nat)

@[simp] theorem setQuery_now (phase : QueryPhase) :
    (upstream.setQuery query phase).now = upstream.now := rfl
@[simp] theorem setQuery_state (phase : QueryPhase) :
    (upstream.setQuery query phase).state = upstream.state := rfl
@[simp] theorem setQuery_builds (phase : QueryPhase) :
    (upstream.setQuery query phase).builds = upstream.builds := rfl
@[simp] theorem setQuery_tasks (phase : QueryPhase) :
    (upstream.setQuery query phase).tasks = upstream.tasks := rfl
@[simp] theorem setQuery_owner (phase : QueryPhase) :
    (upstream.setQuery query phase).owner = upstream.owner := rfl
@[simp] theorem setQuery_answered (phase : QueryPhase) :
    (upstream.setQuery query phase).answered = upstream.answered := rfl
@[simp] theorem setQuery_queries (phase : QueryPhase) :
    (upstream.setQuery query phase).queries = Function.update upstream.queries query phase := rfl

@[simp] theorem setTask_now (phase : BuildPhase) :
    (upstream.setTask task phase).now = upstream.now := rfl
@[simp] theorem setTask_state (phase : BuildPhase) :
    (upstream.setTask task phase).state = upstream.state := rfl
@[simp] theorem setTask_builds (phase : BuildPhase) :
    (upstream.setTask task phase).builds = upstream.builds := rfl
@[simp] theorem setTask_tasks (phase : BuildPhase) :
    (upstream.setTask task phase).tasks = upstream.tasks.set task phase := rfl
@[simp] theorem setTask_owner (phase : BuildPhase) :
    (upstream.setTask task phase).owner = upstream.owner := rfl
@[simp] theorem setTask_answered (phase : BuildPhase) :
    (upstream.setTask task phase).answered = upstream.answered := rfl
@[simp] theorem setTask_queries (phase : BuildPhase) :
    (upstream.setTask task phase).queries = upstream.queries := rfl

end ReconnectingUpstream

/-- The steps that leave the connection state, the build tasks and their history
alone: a query moves on, or time passes. -/
inductive QueryMove (before : ReconnectingUpstream) :
    Event → ReconnectingUpstream → Prop
  | tick : QueryMove before (.tick elapsed) { before with now := before.now + elapsed }
  | answered (waiting : before.queries query = .sent attempt generation) :
      QueryMove before (.answer query true)
        ({ before with answered := generation :: before.answered }.setQuery query
          (.succeeding generation))
  | resetBackoff (waiting : before.queries query = .succeeding generation) :
      QueryMove before (.resetBackoff query)
        ({ before with backoffMs := MIN_RECONNECT_BACKOFF }.setQuery query (.proving generation))
  | advance (plain : ∀ generation, phase ≠ .succeeding generation ∧ phase ≠ .proving generation) :
      QueryMove before event (before.setQuery query phase)

/-- Everything a step can do, with its guard. -/
inductive Move (before : ReconnectingUpstream) : Event → ReconnectingUpstream → Prop
  | query (moved : QueryMove before event after) (frame : ∀ task, event ≠ .conclude task) :
      Move before event after
  | spawn (phase : QueryPhase) (down : before.state = .down retryAt lastError)
      (due : retryAt ≤ before.now)
      (plain : ∀ generation, phase ≠ .succeeding generation ∧ phase ≠ .proving generation) :
      Move before (.trigger query) (before.triggerRepair.setQuery query phase)
  | prove (waiting : before.queries query = .proving generation) :
      Move before (.prove query) (before.recordSuccess.setQuery query .done)
  | invalidate (retry : Bool) (waiting : before.queries query = .invalidating generation why retry)
      (current : before.state = .connected generation probationUntil) :
      Move before (.invalidate query)
        ({ before with state := .down (probationUntil.getD before.now) why }.setQuery query
          (.rebuilding retry))
  | finishBuild (found : before.tasks[task]? = some .building) :
      Move before (.finishBuild task result) (before.finishBuild task result)
  | install (found : before.tasks[task]? = some (.built result backoff)) :
      Move before (.install task) (before.install task result backoff)
  | storeBackoff (found : before.tasks[task]? = some (.installed nextBackoff)) :
      Move before (.storeBackoff task)
        ({ before with backoffMs := nextBackoff }.setTask task .settled)
  | drop (found : before.tasks[task]? = some .building) :
      Move before (.drop task) (before.conclude task)
  | conclude (found : before.tasks[task]? = some .settled) :
      Move before (.conclude task) (before.conclude task)
  | notify (found : before.tasks[task]? = some .notifying) :
      Move before (.notify task)
        ({ before with repairDone := before.repairDone + 1 }.setTask task .ended)

private theorem afterInvalidate_plain (retry : Bool) (generation : Nat) :
    ReconnectingUpstream.afterInvalidate retry ≠ .succeeding generation ∧
      ReconnectingUpstream.afterInvalidate retry ≠ .proving generation := by
  cases retry <;> exact ⟨nofun, nofun⟩

private theorem trigger_move {before : ReconnectingUpstream} {query : Nat} (phase : QueryPhase)
    (plain : ∀ generation, phase ≠ .succeeding generation ∧ phase ≠ .proving generation) :
    Move before (.trigger query) (before.triggerRepair.setQuery query phase) := by
  cases down : before.state with
  | down retryAt lastError =>
      by_cases due : retryAt ≤ before.now
      · exact .spawn phase down due plain
      · have idle : before.triggerRepair = before := by
          simp only [ReconnectingUpstream.triggerRepair, down, if_neg due]
        rw [idle]
        exact .query (.advance plain) nofun
  | connecting =>
      have idle : before.triggerRepair = before := by
        simp only [ReconnectingUpstream.triggerRepair, down]
      rw [idle]
      exact .query (.advance plain) nofun
  | connected generation probationUntil =>
      have idle : before.triggerRepair = before := by
        simp only [ReconnectingUpstream.triggerRepair, down]
      rw [idle]
      exact .query (.advance plain) nofun

theorem step_move {before after : ReconnectingUpstream} {event : Event}
    (stepped : step before event = some after) : Move before event after := by
  cases event with
  | tick elapsed =>
      cases stepped
      exact .query .tick nofun
  | trigger query =>
      simp only [step] at stepped
      split at stepped
      · cases stepped
        exact trigger_move _ fun _ => ⟨nofun, nofun⟩
      · cases stepped
        exact trigger_move _ fun generation => afterInvalidate_plain _ generation
      · contradiction
  | inspect query =>
      simp only [step] at stepped
      repeat' split at stepped
      all_goals first
        | contradiction
        | (cases stepped; exact .query (.advance fun _ => ⟨nofun, nofun⟩) nofun)
  | answer query usable =>
      simp only [step] at stepped
      split at stepped
      · rename_i waiting
        split at stepped
        · rename_i accepted
          subst accepted
          cases stepped
          exact .query (.answered waiting) nofun
        · cases stepped
          exact .query (.advance fun _ => ⟨nofun, nofun⟩) nofun
      · contradiction
  | resetBackoff query =>
      simp only [step] at stepped
      split at stepped
      · cases stepped
        exact .query (.resetBackoff ‹_›) nofun
      · contradiction
  | prove query =>
      simp only [step] at stepped
      split at stepped
      · cases stepped
        exact .prove ‹_›
      · contradiction
  | invalidate query =>
      simp only [step] at stepped
      split at stepped
      · rename_i generation why retry waiting
        cases current : before.state with
        | connected installed probationUntil =>
            simp only [ReconnectingUpstream.invalidate, current] at stepped
            by_cases same : installed = generation
            · subst same
              simp only [if_pos] at stepped
              cases stepped
              exact .invalidate retry waiting current
            · simp only [if_neg same] at stepped
              cases stepped
              exact .query (.advance fun _ => afterInvalidate_plain _ _) nofun
        | down retryAt lastError =>
            simp only [ReconnectingUpstream.invalidate, current] at stepped
            cases stepped
            exact .query (.advance fun _ => afterInvalidate_plain _ _) nofun
        | connecting =>
            simp only [ReconnectingUpstream.invalidate, current] at stepped
            cases stepped
            exact .query (.advance fun _ => afterInvalidate_plain _ _) nofun
      · contradiction
  | wake query =>
      simp only [step] at stepped
      repeat' split at stepped
      all_goals first
        | contradiction
        | (cases stepped; exact .query (.advance fun _ => ⟨nofun, nofun⟩) nofun)
  | finishBuild task result =>
      simp only [step] at stepped
      split at stepped
      · cases stepped
        exact .finishBuild ‹_›
      · contradiction
  | install task =>
      simp only [step] at stepped
      split at stepped
      · cases stepped
        exact .install ‹_›
      · contradiction
  | storeBackoff task =>
      simp only [step] at stepped
      split at stepped
      · cases stepped
        exact .storeBackoff ‹_›
      · contradiction
  | drop task =>
      simp only [step] at stepped
      split at stepped
      · cases stepped
        exact .drop ‹_›
      · contradiction
  | conclude task =>
      simp only [step] at stepped
      split at stepped
      · cases stepped
        exact .conclude ‹_›
      · contradiction
  | notify task =>
      simp only [step] at stepped
      split at stepped
      · cases stepped
        exact .notify ‹_›
      · contradiction
  | begin query | subscribe query | giveUp query | queryError query | fatal query err
  | timeout query =>
      simp only [step] at stepped
      split at stepped
      · cases stepped
        exact .query (.advance fun _ => ⟨nofun, nofun⟩) nofun
      · contradiction

end Sumidero.Upstream
