import Sumidero.Upstream.Connection

namespace Sumidero.Upstream

open Sumidero.Data

/-! Build ownership: which build task the `Connecting` or `Connected` state of
an upstream belongs to, and when a task may overwrite it. -/

/-- A spawned build that has neither installed its result nor been dropped. -/
def BuildPhase.Pending : BuildPhase → Prop
  | .building => True
  | .built _ _ => True
  | _ => False

def ReconnectingUpstream.Pending (upstream : ReconnectingUpstream) (task : Nat) : Prop :=
  ∃ phase, upstream.tasks[task]? = some phase ∧ phase.Pending

structure OneBuild (upstream : ReconnectingUpstream) : Prop where
  single : ∀ {first second}, upstream.Pending first → upstream.Pending second → first = second
  connecting : upstream.state = .connecting ↔ ∃ task, upstream.Pending task

/-- The build task whose section on the state this step is. -/
def Event.section? : Event → Option Nat
  | .install task | .drop task | .conclude task => some task
  | _ => none

def ConnState.Held : ConnState → Prop
  | .down _ _ => False
  | _ => True

/-- A build task's section replaces a `Connecting` or `Connected` state that
another build (or the start-up) wrote. -/
def OverwritesForeign (before : ReconnectingUpstream) (event : Event)
    (after : ReconnectingUpstream) : Prop :=
  ∃ task, event.section? = some task ∧ after.state ≠ before.state ∧ before.state.Held ∧
    before.owner ≠ some task

/-- When a build that has installed its result drops its `Concluded`, no other
build has been started since. -/
def ConcludesSettled (before : ReconnectingUpstream) (event : Event)
    (_ : ReconnectingUpstream) : Prop :=
  ∀ task, event = .conclude task → before.state ≠ .connecting

/-- The strengthened invariant: the one pending build owns the state. -/
structure Owned (upstream : ReconnectingUpstream) : Prop extends OneBuild upstream where
  owner : ∀ {task}, upstream.Pending task → upstream.owner = some task

theorem owned_initial {start : ReconnectingUpstream} (initial : Initial start) : Owned start := by
  have none_pending : ∀ task, ¬ start.Pending task := by
    intro task given
    obtain ⟨phase, found, _⟩ := given
    cases initial <;> simp [ReconnectingUpstream.new] at found
  refine ⟨⟨fun first => absurd first (none_pending _), ?_⟩, fun pending => absurd pending (none_pending _)⟩
  constructor
  · intro connecting
    cases initial <;> simp [ReconnectingUpstream.new] at connecting
  · intro given
    obtain ⟨task, pending⟩ := given
    exact absurd pending (none_pending task)

section Frames

variable {before after : ReconnectingUpstream}

theorem pending_congr (tasks : after.tasks = before.tasks) (task : Nat) :
    after.Pending task ↔ before.Pending task := by
  simp only [ReconnectingUpstream.Pending, tasks]

theorem pending_set {task : Nat} {old new : BuildPhase} (found : before.tasks[task]? = some old)
    (tasks : after.tasks = before.tasks.set task new) (other : Nat) :
    after.Pending other ↔ (other = task ∧ new.Pending) ∨ (other ≠ task ∧ before.Pending other) := by
  simp only [ReconnectingUpstream.Pending, tasks]
  have bound : task < before.tasks.length := (List.getElem?_eq_some_iff.mp found).1
  by_cases same : other = task
  · subst same
    simp [List.getElem?_set_self bound]
  · simp [List.getElem?_set_ne (Ne.symm same), same]

theorem Owned.frame (owned : Owned before) (state : after.state = before.state)
    (tasks : ∀ task, after.Pending task ↔ before.Pending task)
    (owner : after.owner = before.owner) : Owned after := by
  refine ⟨⟨?_, ?_⟩, ?_⟩
  · intro first second firstPending secondPending
    exact owned.single ((tasks first).mp firstPending) ((tasks second).mp secondPending)
  · rw [state, owned.connecting]
    exact exists_congr fun task => (tasks task).symm
  · intro task pending
    rw [owner]
    exact owned.owner ((tasks task).mp pending)

/-- With no pending build and no `Connecting`, nothing needs an owner. -/
theorem Owned.idle (state : after.state ≠ .connecting) (tasks : ∀ task, ¬ after.Pending task) :
    Owned after :=
  ⟨⟨fun first => absurd first (tasks _),
    ⟨fun connecting => absurd connecting state, fun ⟨task, pending⟩ => absurd pending (tasks task)⟩⟩,
    fun pending => absurd pending (tasks _)⟩

theorem Owned.none_pending (owned : Owned before) (state : before.state ≠ .connecting) (task : Nat) :
    ¬ before.Pending task :=
  fun pending => state (owned.connecting.mpr ⟨task, pending⟩)

/-- When the only pending build leaves its pending phases, none is left. -/
theorem Owned.last_pending (owned : Owned before) {task : Nat} {old new : BuildPhase}
    (found : before.tasks[task]? = some old) (pending : old.Pending)
    (tasks : after.tasks = before.tasks.set task new) (finished : ¬ new.Pending) (other : Nat) :
    ¬ after.Pending other := by
  rw [pending_set found tasks]
  intro given
  rcases given with ⟨_, still⟩ | ⟨different, otherPending⟩
  · exact finished still
  · exact different (owned.single otherPending ⟨old, found, pending⟩)

end Frames

theorem recordSuccess_connecting (upstream : ReconnectingUpstream) :
    upstream.recordSuccess.state = .connecting ↔ upstream.state = .connecting := by
  cases state : upstream.state <;> simp [ReconnectingUpstream.recordSuccess, state]

@[simp] theorem recordSuccess_tasks (upstream : ReconnectingUpstream) :
    upstream.recordSuccess.tasks = upstream.tasks := by
  cases state : upstream.state <;> simp [ReconnectingUpstream.recordSuccess, state]

@[simp] theorem recordSuccess_owner (upstream : ReconnectingUpstream) :
    upstream.recordSuccess.owner = upstream.owner := by
  cases state : upstream.state <;> simp [ReconnectingUpstream.recordSuccess, state]

@[simp] theorem conclude_tasks (upstream : ReconnectingUpstream) (task : Nat) :
    (upstream.conclude task).tasks = upstream.tasks.set task .notifying := by
  cases state : upstream.state <;> simp [ReconnectingUpstream.conclude, state]

@[simp] theorem conclude_owner (upstream : ReconnectingUpstream) (task : Nat) :
    (upstream.conclude task).owner = upstream.owner := by
  cases state : upstream.state <;> simp [ReconnectingUpstream.conclude, state]

theorem conclude_state (upstream : ReconnectingUpstream) (task : Nat)
    (idle : upstream.state ≠ .connecting) : (upstream.conclude task).state = upstream.state := by
  cases state : upstream.state with
  | connecting => exact absurd state idle
  | _ => simp [ReconnectingUpstream.conclude, state]

theorem conclude_down (upstream : ReconnectingUpstream) (task : Nat)
    (connecting : upstream.state = .connecting) :
    (upstream.conclude task).state = .down upstream.now "connection build abandoned" := by
  simp [ReconnectingUpstream.conclude, connecting]

theorem QueryMove.frame {before after : ReconnectingUpstream} {event : Event}
    (moved : QueryMove before event after) :
    after.state = before.state ∧ after.tasks = before.tasks ∧ after.owner = before.owner := by
  cases moved <;> exact ⟨rfl, rfl, rfl⟩

/-- Starting a build: nothing was pending, and the new task owns the state. -/
theorem Owned.spawn {before : ReconnectingUpstream} {retryAt : Instant} {lastError : String}
    (owned : Owned before) (phase : QueryPhase) (query : Nat)
    (down : before.state = .down retryAt lastError) (due : retryAt ≤ before.now) :
    Owned (before.triggerRepair.setQuery query phase) := by
  have none_pending := owned.none_pending (by rw [down]; exact nofun)
  have pending_iff : ∀ task, (before.triggerRepair.setQuery query phase).Pending task ↔
      task = before.tasks.length := by
    intro task
    simp only [ReconnectingUpstream.Pending, ReconnectingUpstream.setQuery_tasks,
      ReconnectingUpstream.triggerRepair, down, if_pos due]
    constructor
    · intro given
      obtain ⟨found, lookup, pending⟩ := given
      by_cases older : task < before.tasks.length
      · rw [List.getElem?_append_left older] at lookup
        exact absurd ⟨found, lookup, pending⟩ (none_pending task)
      · have bound := (List.getElem?_eq_some_iff.mp lookup).1
        simp only [List.length_append, List.length_singleton] at bound
        omega
    · intro equal
      subst equal
      exact ⟨.building, by simp, trivial⟩
  refine ⟨⟨?_, ?_⟩, ?_⟩
  · intro first second firstPending secondPending
    rw [(pending_iff first).mp firstPending, (pending_iff second).mp secondPending]
  · constructor
    · intro _
      exact ⟨_, (pending_iff _).mpr rfl⟩
    · intro _
      simp [ReconnectingUpstream.triggerRepair, down, due]
  · intro task pending
    rw [(pending_iff task).mp pending]
    simp [ReconnectingUpstream.triggerRepair, down, due]

/-- A task that moves between two phases neither or both of which are pending
leaves the ownership as it was. -/
theorem Owned.advance {before after : ReconnectingUpstream} {task : Nat} {old new : BuildPhase}
    (owned : Owned before) (found : before.tasks[task]? = some old)
    (same : new.Pending ↔ old.Pending) (state : after.state = before.state)
    (tasks : after.tasks = before.tasks.set task new) (owner : after.owner = before.owner) :
    Owned after := by
  refine owned.frame state ?_ owner
  intro other
  rw [pending_set found tasks]
  by_cases here : other = task
  · subst here
    simp [same, ReconnectingUpstream.Pending, found]
  · simp [here]

theorem owned_step {before after : ReconnectingUpstream} {event : Event} (owned : Owned before)
    (stepped : step before event = some after) (settled : ConcludesSettled before event after) :
    Owned after := by
  cases step_move stepped with
  | query moved _ =>
      obtain ⟨state, tasks, owner⟩ := moved.frame
      exact owned.frame state (pending_congr tasks) owner
  | spawn phase down due plain => exact owned.spawn phase _ down due
  | prove waiting =>
      refine ⟨⟨?_, ?_⟩, ?_⟩
      · intro first second firstPending secondPending
        exact owned.single ((pending_congr (by simp) first).mp firstPending)
          ((pending_congr (by simp) second).mp secondPending)
      · rw [ReconnectingUpstream.setQuery_state, recordSuccess_connecting, owned.connecting]
        exact exists_congr fun task => (pending_congr (by simp) task).symm
      · intro task pending
        rw [ReconnectingUpstream.setQuery_owner, recordSuccess_owner]
        exact owned.owner ((pending_congr (by simp) task).mp pending)
  | invalidate retry waiting current =>
      refine Owned.idle nofun fun task pending => ?_
      exact owned.none_pending (by rw [current]; exact nofun) task
        ((pending_congr rfl task).mp pending)
  | @finishBuild task result found =>
      cases result with
      | ok value => exact owned.advance found (by simp [BuildPhase.Pending]) rfl rfl rfl
      | error err => exact owned.advance found (by simp [BuildPhase.Pending]) rfl rfl rfl
  | @install task result backoff found =>
      cases result with
      | ok generation =>
          exact Owned.idle nofun (owned.last_pending found trivial rfl (by simp [BuildPhase.Pending]))
      | error err =>
          exact Owned.idle nofun (owned.last_pending found trivial rfl (by simp [BuildPhase.Pending]))
  | storeBackoff found => exact owned.advance found (by simp [BuildPhase.Pending]) rfl rfl rfl
  | notify found => exact owned.advance found (by simp [BuildPhase.Pending]) rfl rfl rfl
  | @drop task found =>
      have pending : before.Pending task := ⟨_, found, trivial⟩
      refine Owned.idle ?_ (owned.last_pending found trivial (conclude_tasks before task)
        (by simp [BuildPhase.Pending]))
      rw [conclude_down before task (owned.connecting.mpr ⟨task, pending⟩)]
      exact nofun
  | @conclude task found =>
      exact owned.advance found (by simp [BuildPhase.Pending])
        (conclude_state before task (settled task rfl)) (conclude_tasks before task)
        (conclude_owner before task)

/-- While the ownership invariant holds, a build task overwrites a foreign state
exactly when its `Concluded` drops late, after another build has started. -/
theorem overwrites_iff {before after : ReconnectingUpstream} {event : Event} (owned : Owned before)
    (stepped : step before event = some after) :
    OverwritesForeign before event after ↔ ¬ ConcludesSettled before event after := by
  constructor
  · intro given
    obtain ⟨task, section_of, changed, held, foreign⟩ := given
    intro settled
    cases step_move stepped with
    | query moved _ => exact changed moved.frame.1
    | install found => 
        obtain rfl : _ = task := Option.some.inj section_of
        exact foreign (owned.owner ⟨_, found, trivial⟩)
    | drop found =>
        obtain rfl : _ = task := Option.some.inj section_of
        exact foreign (owned.owner ⟨_, found, trivial⟩)
    | conclude found => exact changed (conclude_state before _ (settled _ rfl))
    | spawn | prove | invalidate | finishBuild | storeBackoff | notify =>
        simp [Event.section?] at section_of
  · intro late
    simp only [ConcludesSettled, not_forall, not_not] at late
    obtain ⟨task, rfl, connecting⟩ := late
    cases step_move stepped with
    | query _ frame => exact absurd rfl (frame task)
    | conclude found =>
        refine ⟨task, rfl, ?_, by rw [connecting]; trivial, ?_⟩
        · rw [conclude_down before task connecting, connecting]
          exact nofun
        · intro own
          obtain ⟨builder, pending⟩ := owned.connecting.mp connecting
          obtain rfl : builder = task := Option.some.inj ((owned.owner pending).symm.trans own)
          obtain ⟨phase, lookup, still⟩ := pending
          rw [found] at lookup
          cases lookup
          exact still

/-- What the connection builds of one upstream must satisfy along a run. -/
def BuildsSafely (start : ReconnectingUpstream) (events : List Event) : Prop :=
  Visits step OneBuild start events ∧
    Along step (fun before event after => ¬ OverwritesForeign before event after) start events

private theorem settled_of_safe {start : ReconnectingUpstream} {events : List Event}
    (owned : Owned start)
    (safe : Along step (fun before event after => ¬ OverwritesForeign before event after)
      start events) : Along step ConcludesSettled start events := by
  induction events generalizing start with
  | nil => trivial
  | cons event rest ih =>
      intro next stepped
      obtain ⟨here, there⟩ := safe next stepped
      have settled : ConcludesSettled start event next := by
        by_contra late
        exact here ((overwrites_iff owned stepped).mpr late)
      exact ⟨settled, ih (owned_step owned stepped settled) there⟩

/-- One build at a time, `Connecting` exactly while it is pending, and no foreign
state overwritten: in every run, exactly when no `Concluded` of an installed
build runs its section while a later build is connecting. -/
theorem builds_safely_iff {start : ReconnectingUpstream} (initial : Initial start)
    (events : List Event) :
    BuildsSafely start events ↔ Along step ConcludesSettled start events := by
  have owned := owned_initial initial
  constructor
  · intro given
    obtain ⟨_, safe⟩ := given
    exact settled_of_safe owned safe
  · intro settled
    refine ⟨visits_mono (fun _ reached => reached.toOneBuild)
      (visits_of_along (fun _ _ _ => owned_step) owned settled), ?_⟩
    refine along_of_invariant (fun _ _ _ => owned_step) ?_ owned settled
    intro before event after held stepped here overwritten
    exact (overwrites_iff held stepped).mp overwritten here

/-- A query finds the upstream down, starts a build, and the build concludes. -/
def singleBuild : List Event :=
  [.begin 0, .subscribe 0, .inspect 0, .trigger 0, .finishBuild 0 (.ok ()), .install 0,
   .storeBackoff 0, .conclude 0, .notify 0]

theorem single_build_safe : BuildsSafely (.new (.down 0 "refused") 0) singleBuild := by
  refine (builds_safely_iff (.down 0 "refused") singleBuild).mpr ?_
  have settled : ∀ before after event, (∀ task, event ≠ .conclude task) →
      ConcludesSettled before event after := fun _ _ _ other task same => absurd same (other task)
  refine along_cons rfl (settled _ _ _ nofun) (along_cons rfl (settled _ _ _ nofun)
    (along_cons rfl (settled _ _ _ nofun) (along_cons rfl (settled _ _ _ nofun)
      (along_cons rfl (settled _ _ _ nofun) (along_cons rfl (settled _ _ _ nofun)
        (along_cons rfl (settled _ _ _ nofun) (along_cons rfl ?_
          (along_cons rfl (settled _ _ _ nofun) trivial))))))))
  intro _ _ connecting
  cases connecting

/-- A first build installs its connection; before its `Concluded` drops, the
connection is proven, fails and a second build starts.  The late drop then marks
the second build abandoned, so a third one starts beside it. -/
def overlappingBuilds : List Event :=
  [.begin 0, .subscribe 0, .inspect 0, .fatal 0 "goaway", .invalidate 0, .trigger 0,
   .finishBuild 0 (.ok ()), .install 0, .storeBackoff 0,
   .begin 1, .subscribe 1, .inspect 1, .begin 2, .subscribe 2, .inspect 2,
   .answer 1 true, .resetBackoff 1, .prove 1, .fatal 2 "goaway", .invalidate 2, .trigger 2,
   .conclude 0, .subscribe 2, .inspect 2, .trigger 2]

theorem overlapping_builds :
    ∃ final, run step (.new (.connected 1 none) 0) overlappingBuilds = some final ∧
      final.Pending 1 ∧ final.Pending 2 ∧
      ¬ BuildsSafely (.new (.connected 1 none) 0) overlappingBuilds := by
  have ran : ∃ final, run step (.new (.connected 1 none) 0) overlappingBuilds = some final ∧
      final.tasks = [.notifying, .building, .building] := ⟨_, rfl, rfl⟩
  obtain ⟨final, reached, tasks⟩ := ran
  have second : final.Pending 1 := ⟨.building, by rw [tasks]; rfl, trivial⟩
  have third : final.Pending 2 := ⟨.building, by rw [tasks]; rfl, trivial⟩
  refine ⟨final, reached, second, third, ?_⟩
  intro given
  obtain ⟨oneBuild, _⟩ := given
  have last := oneBuild overlappingBuilds [] final (List.append_nil _).symm reached
  exact absurd (last.single second third) (by decide)

end Sumidero.Upstream
