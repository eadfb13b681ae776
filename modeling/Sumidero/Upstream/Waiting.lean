import Sumidero.Upstream.Builds

namespace Sumidero.Upstream

open Sumidero.Data

/-! Queries that wait for a build: each is woken, because a build it waits for has
not ended yet or has already left its notification. -/

namespace ReconnectingUpstream

/-- A spawned build that has not finished dropping its `Concluded`. -/
def Unfinished (upstream : ReconnectingUpstream) (task : Nat) : Prop :=
  ∃ phase, upstream.tasks[task]? = some phase ∧ phase ≠ .ended

/-- Down, and a build may start. -/
def Due (upstream : ReconnectingUpstream) : Prop :=
  ∃ retryAt lastError, upstream.state = .down retryAt lastError ∧ retryAt ≤ upstream.now

/-- Something will wake a receiver that has seen the version `seen`. -/
def Awaited (upstream : ReconnectingUpstream) (seen : Nat) : Prop :=
  seen < upstream.repairDone ∨ ∃ task, upstream.Unfinished task

/-- A build that has yet to run its section on the state; however it ends, the state is not
`Connecting` after that section. -/
inductive LeavesConnecting (upstream : ReconnectingUpstream) (task : Nat) : Prop
  | building (found : upstream.tasks[task]? = some .building)
      (dropped : ∃ after, step upstream (.drop task) = some after ∧ after.state ≠ .connecting)
      (finished : ∀ result, ∃ after,
        run step upstream [.finishBuild task result, .install task] = some after ∧
          after.state ≠ .connecting)
  | built {result : Except String Nat} {backoff : Nat}
      (found : upstream.tasks[task]? = some (.built result backoff))
      (installed : ∃ after, step upstream (.install task) = some after ∧
        after.state ≠ .connecting)

theorem Pending.unfinished {upstream : ReconnectingUpstream} {task : Nat}
    (pending : upstream.Pending task) : upstream.Unfinished task := by
  obtain ⟨phase, found, still⟩ := pending
  refine ⟨phase, found, fun ended => ?_⟩
  subst ended
  exact still

theorem install_leaves (upstream : ReconnectingUpstream) (task : Nat)
    (result : Except String Nat) (backoff : Nat) :
    (upstream.install task result backoff).state ≠ .connecting := by
  cases result <;> exact nofun

theorem conclude_leaves (upstream : ReconnectingUpstream) (task : Nat) :
    (upstream.conclude task).state ≠ .connecting := by
  simp only [conclude]
  split
  · intro same
    cases same
  · assumption

theorem Pending.leavesConnecting {upstream : ReconnectingUpstream} {task : Nat}
    (pending : upstream.Pending task) : upstream.LeavesConnecting task := by
  obtain ⟨phase, found, still⟩ := pending
  have bound := (List.getElem?_eq_some_iff.mp found).1
  cases phase with
  | building =>
      have dropped : step upstream (.drop task) = some (upstream.conclude task) := by
        simp only [step, found]
      refine .building found ⟨_, dropped, conclude_leaves upstream task⟩ fun result => ?_
      have finished : step upstream (.finishBuild task result) =
          some (upstream.finishBuild task result) := by simp only [step, found]
      rw [run_cons_of_step _ finished]
      cases result with
      | ok value =>
          refine ⟨_, ?_, install_leaves (upstream.finishBuild task (.ok value)) task
            (.ok (upstream.builds + 1)) upstream.backoffMs⟩
          simp [run, step, finishBuild, List.getElem?_set_self bound]
      | error err =>
          refine ⟨_, ?_, install_leaves (upstream.finishBuild task (.error err)) task
            (.error err) upstream.backoffMs⟩
          simp [run, step, finishBuild, List.getElem?_set_self bound]
  | built result backoff =>
      have installed : step upstream (.install task) =
          some (upstream.install task result backoff) := by simp only [step, found]
      exact .built found ⟨_, installed, install_leaves upstream task result backoff⟩
  | installed | settled | notifying | ended => exact still.elim

end ReconnectingUpstream

/-- What holds of the state and of the queries on their way to a wait. -/
structure Watched (upstream : ReconnectingUpstream) : Prop where
  connecting : upstream.state = .connecting → ∃ task, upstream.Pending task
  subscribed : ∀ {query attempt seen}, upstream.queries query = .subscribed attempt seen →
    seen ≤ upstream.repairDone
  triggering : ∀ {query attempt seen}, upstream.queries query = .triggering attempt seen →
    seen ≤ upstream.repairDone ∧ (upstream.Awaited seen ∨ upstream.Due)
  parked : ∀ {query attempt seen}, upstream.queries query = .parked attempt seen →
    seen ≤ upstream.repairDone ∧ upstream.Awaited seen

theorem watched_initial {start : ReconnectingUpstream} (initial : Initial start) :
    Watched start := by
  constructor <;> cases initial <;> simp [ReconnectingUpstream.new]

/-- On the way to a wait for a build, or in it. -/
def QueryPhase.Waits : QueryPhase → Prop
  | .subscribed _ _ | .triggering _ _ | .parked _ _ => True
  | _ => False

/-- What a step makes of one query on its way to a wait: it read the version, found the state
`Connecting` or due, or called `trigger_repair`. -/
inductive WaitMove (before after : ReconnectingUpstream) : QueryPhase → QueryPhase → Prop
  | stays : WaitMove before after phase phase
  | subscribed (attempt : Attempt) : WaitMove before after phase (.subscribed attempt before.repairDone)
  | found (sought : before.state = .connecting ∨ before.Due) :
      WaitMove before after (.subscribed attempt seen) (.triggering attempt seen)
  | triggered (state : after.state = before.triggerRepair.state) :
      WaitMove before after (.triggering attempt seen) (.parked attempt seen)
  | elsewhere (phase : QueryPhase) (leaves : ¬ phase.Waits) :
      WaitMove before after old phase

section Frames

variable {before after : ReconnectingUpstream} {event : Event} {task seen : Nat}

theorem unfinished_set {other : Nat} {new : BuildPhase} (running : new ≠ .ended)
    (tasks : after.tasks = before.tasks.set task new) (unfinished : before.Unfinished other) :
    after.Unfinished other := by
  obtain ⟨phase, found, still⟩ := unfinished
  simp only [ReconnectingUpstream.Unfinished]
  rw [tasks]
  by_cases same : other = task
  · subst same
    have bound := (List.getElem?_eq_some_iff.mp found).1
    exact ⟨new, List.getElem?_set_self bound, running⟩
  · exact ⟨phase, (List.getElem?_set_ne (Ne.symm same)).trans found, still⟩

theorem moved_unfinished {old new : BuildPhase} (found : before.tasks[task]? = some old)
    (running : new ≠ .ended) (tasks : after.tasks = before.tasks.set task new) :
    after.Unfinished task := by
  refine ⟨new, ?_, running⟩
  rw [tasks]
  exact List.getElem?_set_self (List.getElem?_eq_some_iff.mp found).1

theorem pending_moved {old new : BuildPhase} (found : before.tasks[task]? = some old)
    (same : new.Pending ↔ old.Pending) (tasks : after.tasks = before.tasks.set task new)
    (other : Nat) : after.Pending other ↔ before.Pending other := by
  rw [pending_set found tasks]
  by_cases here : other = task
  · subst here
    simp [same, ReconnectingUpstream.Pending, found]
  · simp [here]

theorem triggerRepair_repairDone (upstream : ReconnectingUpstream) :
    upstream.triggerRepair.repairDone = upstream.repairDone := by
  simp only [ReconnectingUpstream.triggerRepair]
  split
  · split <;> rfl
  · rfl

theorem recordSuccess_repairDone (upstream : ReconnectingUpstream) :
    upstream.recordSuccess.repairDone = upstream.repairDone := by
  simp only [ReconnectingUpstream.recordSuccess]
  split <;> rfl

theorem conclude_repairDone (upstream : ReconnectingUpstream) (task : Nat) :
    (upstream.conclude task).repairDone = upstream.repairDone := by
  simp only [ReconnectingUpstream.conclude]
  split <;> rfl

theorem QueryMove.repairDone (moved : QueryMove before event after) :
    after.repairDone = before.repairDone := by
  cases moved <;> rfl

/-- What a step does to the build tasks and the version of `repair_done`. -/
inductive TaskMove (before after : ReconnectingUpstream) : Prop
  | kept (tasks : after.tasks = before.tasks) (version : after.repairDone = before.repairDone)
  | spawned (tasks : after.tasks = before.tasks ++ [.building])
      (version : after.repairDone = before.repairDone)
  | moved {task : Nat} {new : BuildPhase} (running : new ≠ .ended)
      (tasks : after.tasks = before.tasks.set task new)
      (version : after.repairDone = before.repairDone)
  | notified {task : Nat} (tasks : after.tasks = before.tasks.set task .ended)
      (version : after.repairDone = before.repairDone + 1)

theorem step_taskMove (stepped : step before event = some after) : TaskMove before after := by
  cases step_move stepped with
  | query moved _ => exact .kept moved.frame.2.1 moved.repairDone
  | spawn phase down due _ =>
      refine .spawned ?_ (triggerRepair_repairDone before)
      simp [ReconnectingUpstream.triggerRepair, down, due]
  | prove _ => exact .kept (recordSuccess_tasks before) (recordSuccess_repairDone before)
  | invalidate => exact .kept rfl rfl
  | @finishBuild task result _ =>
      cases result with
      | ok value => exact .moved (fun same => by cases same) rfl rfl
      | error err => exact .moved (fun same => by cases same) rfl rfl
  | @install task result backoff _ =>
      cases result with
      | ok generation => exact .moved (fun same => by cases same) rfl rfl
      | error err => exact .moved (fun same => by cases same) rfl rfl
  | storeBackoff => exact .moved (fun same => by cases same) rfl rfl
  | @drop task _ | @conclude task _ =>
      exact .moved (fun same => by cases same) (conclude_tasks before task)
        (conclude_repairDone before task)
  | notify => exact .notified rfl rfl

/-- A step ends a build only with the notification it leaves. -/
theorem step_awaited (stepped : step before event = some after) :
    before.repairDone ≤ after.repairDone ∧
      (seen ≤ before.repairDone → before.Awaited seen → after.Awaited seen) := by
  cases step_taskMove stepped with
  | kept tasks version =>
      refine ⟨Nat.le_of_eq version.symm, fun _ awaited => ?_⟩
      unfold ReconnectingUpstream.Awaited ReconnectingUpstream.Unfinished at *
      rwa [tasks, version]
  | spawned tasks version =>
      refine ⟨Nat.le_of_eq version.symm, fun _ awaited => ?_⟩
      rcases awaited with notified | ⟨other, phase, found, running⟩
      · exact .inl (version ▸ notified)
      · refine .inr ⟨other, phase, ?_, running⟩
        rw [tasks, List.getElem?_append_left (List.getElem?_eq_some_iff.mp found).1]
        exact found
  | moved running tasks version =>
      refine ⟨Nat.le_of_eq version.symm, fun _ awaited => ?_⟩
      rcases awaited with notified | ⟨other, unfinished⟩
      · exact .inl (version ▸ notified)
      · exact .inr ⟨other, unfinished_set running tasks unfinished⟩
  | notified tasks version =>
      refine ⟨version ▸ Nat.le_succ _, fun bound _ => .inl ?_⟩
      rw [version]
      exact Nat.lt_succ_of_le bound

/-- A build may start until one has. -/
theorem step_due (stepped : step before event = some after) (due : before.Due) :
    after.Due ∨ ∃ task, after.Unfinished task := by
  obtain ⟨retryAt, lastError, down, past⟩ := due
  cases step_move stepped with
  | query moved _ =>
      refine .inl ⟨retryAt, lastError, moved.frame.1.trans down, ?_⟩
      cases moved <;> first | exact Nat.le_add_right_of_le past | exact past
  | spawn phase _ due _ =>
      refine .inr ⟨before.tasks.length, .building, ?_, fun same => by cases same⟩
      simp [ReconnectingUpstream.triggerRepair, down, past]
  | prove waiting =>
      refine .inl ⟨retryAt, lastError, ?_, ?_⟩ <;>
        simp [ReconnectingUpstream.recordSuccess, down, past]
  | invalidate retry waiting current => cases down.symm.trans current
  | @finishBuild task result found =>
      cases result with
      | ok value => exact .inr ⟨task, moved_unfinished found (fun same => by cases same) rfl⟩
      | error err => exact .inr ⟨task, moved_unfinished found (fun same => by cases same) rfl⟩
  | @install task result backoff found =>
      cases result with
      | ok generation => exact .inr ⟨task, moved_unfinished found (fun same => by cases same) rfl⟩
      | error err => exact .inr ⟨task, moved_unfinished found (fun same => by cases same) rfl⟩
  | @storeBackoff task _ found =>
      exact .inr ⟨task, moved_unfinished found (fun same => by cases same) rfl⟩
  | @drop task found | @conclude task found =>
      exact .inr ⟨task, moved_unfinished found (fun same => by cases same)
        (conclude_tasks before task)⟩
  | notify found => exact .inl ⟨retryAt, lastError, down, past⟩

/-- `Connecting` is left as soon as the build it waits for is over. -/
theorem step_connecting (stepped : step before event = some after)
    (pending : before.state = .connecting → ∃ task, before.Pending task)
    (connecting : after.state = .connecting) : ∃ task, after.Pending task := by
  cases step_move stepped with
  | query moved _ =>
      obtain ⟨state, tasks, _⟩ := moved.frame
      obtain ⟨task, given⟩ := pending (state ▸ connecting)
      exact ⟨task, (pending_congr tasks task).mpr given⟩
  | spawn phase down due _ =>
      refine ⟨before.tasks.length, .building, ?_, trivial⟩
      simp [ReconnectingUpstream.triggerRepair, down, due]
  | prove waiting =>
      obtain ⟨task, given⟩ := pending ((recordSuccess_connecting before).mp connecting)
      exact ⟨task, (pending_congr (recordSuccess_tasks before) task).mpr given⟩
  | invalidate => cases connecting
  | @finishBuild task result found =>
      have still : ∀ other, (before.finishBuild task result).Pending other ↔ before.Pending other := by
        cases result with
        | ok value => exact pending_moved found (by simp [BuildPhase.Pending]) rfl
        | error err => exact pending_moved found (by simp [BuildPhase.Pending]) rfl
      have same : (before.finishBuild task result).state = before.state := by
        cases result <;> rfl
      obtain ⟨other, given⟩ := pending (same ▸ connecting)
      exact ⟨other, (still other).mpr given⟩
  | @install task result backoff found => cases result <;> cases connecting
  | @storeBackoff task _ found =>
      obtain ⟨other, given⟩ := pending connecting
      exact ⟨other, (pending_moved found (by simp [BuildPhase.Pending]) rfl other).mpr given⟩
  | @drop task found | @conclude task found =>
      by_cases was : before.state = .connecting
      · rw [conclude_down before task was] at connecting
        cases connecting
      · rw [conclude_state before task was] at connecting
        exact absurd connecting was
  | notify found =>
      obtain ⟨other, given⟩ := pending connecting
      exact ⟨other, (pending_moved found (by simp [BuildPhase.Pending]) rfl other).mpr given⟩

theorem waitMove_set {base : ReconnectingUpstream} {query : Nat} {phase : QueryPhase}
    (moved : WaitMove before (base.setQuery query phase) (before.queries query) phase)
    (queries : base.queries = before.queries) (other : Nat) :
    WaitMove before (base.setQuery query phase) (before.queries other)
      ((base.setQuery query phase).queries other) := by
  rw [ReconnectingUpstream.setQuery_queries, queries]
  by_cases same : other = query
  · subst same
    rwa [Function.update_self]
  · rw [Function.update_of_ne same]
    exact .stays

theorem waitMove_kept (queries : after.queries = before.queries) (other : Nat) :
    WaitMove before after (before.queries other) (after.queries other) := by
  rw [queries]
  exact .stays

theorem triggerRepair_queries (upstream : ReconnectingUpstream) :
    upstream.triggerRepair.queries = upstream.queries := by
  simp only [ReconnectingUpstream.triggerRepair]
  split
  · split <;> rfl
  · rfl

theorem recordSuccess_queries (upstream : ReconnectingUpstream) :
    upstream.recordSuccess.queries = upstream.queries := by
  simp only [ReconnectingUpstream.recordSuccess]
  split <;> rfl

theorem conclude_queries (upstream : ReconnectingUpstream) (task : Nat) :
    (upstream.conclude task).queries = upstream.queries := by
  simp only [ReconnectingUpstream.conclude]
  split <;> rfl

theorem invalidate_queries (upstream : ReconnectingUpstream) (generation : Nat) (why : String) :
    (upstream.invalidate generation why).1.queries = upstream.queries := by
  simp only [ReconnectingUpstream.invalidate]
  split
  · split <;> rfl
  · rfl

theorem afterInvalidate_leaves (retry : Bool) :
    ¬ (ReconnectingUpstream.afterInvalidate retry).Waits := by
  cases retry <;> exact id

theorem step_waitMove (stepped : step before event = some after) (other : Nat) :
    WaitMove before after (before.queries other) (after.queries other) := by
  cases event with
  | tick elapsed =>
      cases stepped
      exact .stays
  | subscribe query =>
      simp only [step] at stepped
      split at stepped
      · cases stepped
        exact waitMove_set (.subscribed _) rfl other
      · contradiction
  | inspect query =>
      simp only [step] at stepped
      split at stepped
      · rename_i attempt seen waiting
        split at stepped
        · cases stepped
          exact waitMove_set (.elsewhere _ id) rfl other
        · rename_i retryAt lastError down
          split at stepped
          · cases stepped
            exact waitMove_set (.elsewhere _ id) rfl other
          · cases stepped
            have due : before.Due := ⟨retryAt, lastError, down, Nat.le_of_not_lt ‹_›⟩
            exact waitMove_set (waiting ▸ .found (.inr due)) rfl other
        · rename_i connecting
          cases stepped
          exact waitMove_set (waiting ▸ .found (.inl connecting)) rfl other
      · contradiction
  | trigger query =>
      simp only [step] at stepped
      split at stepped
      · rename_i attempt seen waiting
        cases stepped
        exact waitMove_set (waiting ▸ .triggered rfl) (triggerRepair_queries before) other
      · rename_i retry waiting
        cases stepped
        exact waitMove_set (.elsewhere _ (afterInvalidate_leaves retry)) (triggerRepair_queries before) other
      · contradiction
  | invalidate query =>
      simp only [step] at stepped
      split at stepped
      · rename_i generation why retry waiting
        have queries := invalidate_queries before generation why
        split at stepped
        · rename_i dropped
          rw [dropped] at queries
          cases stepped
          exact waitMove_set (.elsewhere _ id) queries other
        · rename_i kept
          rw [kept] at queries
          cases stepped
          exact waitMove_set (.elsewhere _ (afterInvalidate_leaves retry)) queries other
      · contradiction
  | finishBuild task result =>
      simp only [step] at stepped
      split at stepped
      · cases stepped
        refine waitMove_kept ?_ other
        cases result <;> rfl
      · contradiction
  | install task =>
      simp only [step] at stepped
      split at stepped
      · rename_i result backoff found
        cases stepped
        refine waitMove_kept ?_ other
        cases result <;> rfl
      · contradiction
  | storeBackoff | notify =>
      simp only [step] at stepped
      split at stepped
      · cases stepped
        refine waitMove_kept ?_ other
        rfl
      · contradiction
  | drop | conclude =>
      simp only [step] at stepped
      split at stepped
      · cases stepped
        exact waitMove_kept (conclude_queries _ _) other
      · contradiction
  | answer query usable =>
      simp only [step] at stepped
      split at stepped
      · split at stepped
        · cases stepped
          refine waitMove_set (.elsewhere _ ?_) ?_ other
          · exact id
          · rfl
        · cases stepped
          exact waitMove_set (.elsewhere _ id) rfl other
      · contradiction
  | prove query =>
      simp only [step] at stepped
      split at stepped
      · cases stepped
        exact waitMove_set (.elsewhere _ id) (recordSuccess_queries before) other
      · contradiction
  | wake query =>
      simp only [step] at stepped
      split at stepped
      · split at stepped
        · cases stepped
          exact waitMove_set (.elsewhere _ id) rfl other
        · contradiction
      · contradiction
  | begin | giveUp | resetBackoff | queryError | fatal | timeout =>
      simp only [step] at stepped
      split at stepped
      · cases stepped
        refine waitMove_set (.elsewhere _ ?_) ?_ other
        · exact id
        · rfl
      · contradiction

theorem due_triggerRepair (due : before.Due) :
    before.triggerRepair.state = .connecting := by
  obtain ⟨retryAt, lastError, down, past⟩ := due
  simp [ReconnectingUpstream.triggerRepair, down, past]

theorem due_not_connecting (due : before.Due) : before.state ≠ .connecting := by
  obtain ⟨retryAt, lastError, down, _⟩ := due
  rw [down]
  exact nofun

theorem watched_step (inv : Watched before) (stepped : step before event = some after) :
    Watched after := by
  have later : before.repairDone ≤ after.repairDone := (@step_awaited _ _ _ 0 stepped).1
  have awaited : ∀ {seen}, seen ≤ before.repairDone → before.Awaited seen → after.Awaited seen :=
    (step_awaited stepped).2
  constructor
  · exact step_connecting stepped inv.connecting
  · intro query attempt seen waits
    have moved := step_waitMove stepped query
    generalize was : before.queries query = old at moved
    rw [waits] at moved
    cases moved with
    | stays => exact Nat.le_trans (inv.subscribed was) later
    | subscribed => exact later
    | elsewhere _ leaves => exact absurd trivial leaves
  · intro query attempt seen waits
    have moved := step_waitMove stepped query
    generalize was : before.queries query = old at moved
    rw [waits] at moved
    cases moved with
    | stays =>
        obtain ⟨bound, reason⟩ := inv.triggering was
        refine ⟨Nat.le_trans bound later, ?_⟩
        rcases reason with given | due
        · exact .inl (awaited bound given)
        · rcases step_due stepped due with still | unfinished
          · exact .inr still
          · exact .inl (.inr unfinished)
    | found sought =>
        have bound := inv.subscribed was
        refine ⟨Nat.le_trans bound later, ?_⟩
        rcases sought with connecting | due
        · obtain ⟨task, pending⟩ := inv.connecting connecting
          exact .inl (awaited bound (.inr ⟨task, pending.unfinished⟩))
        · rcases step_due stepped due with still | unfinished
          · exact .inr still
          · exact .inl (.inr unfinished)
    | elsewhere _ leaves => exact absurd trivial leaves
  · intro query attempt seen waits
    have moved := step_waitMove stepped query
    generalize was : before.queries query = old at moved
    rw [waits] at moved
    cases moved with
    | stays =>
        obtain ⟨bound, given⟩ := inv.parked was
        exact ⟨Nat.le_trans bound later, awaited bound given⟩
    | triggered state =>
        obtain ⟨bound, reason⟩ := inv.triggering was
        refine ⟨Nat.le_trans bound later, ?_⟩
        rcases reason with given | due
        · exact awaited bound given
        · -- the trigger itself started the build, so it is no longer due
          refine .inr ((step_due stepped due).resolve_left fun still => ?_)
          exact due_not_connecting still (state.trans (due_triggerRepair due))
    | elsewhere _ leaves => exact absurd trivial leaves

end Frames

/-- What no query is left without, and `Connecting` neither. -/
structure NeverStranded (upstream : ReconnectingUpstream) : Prop where
  parked : ∀ query attempt seen, upstream.queries query = .parked attempt seen →
    upstream.repairDone ≠ seen ∨ ∃ task, upstream.Unfinished task
  connecting : upstream.state = .connecting → ∃ task, upstream.LeavesConnecting task

theorem Watched.neverStranded {upstream : ReconnectingUpstream} (inv : Watched upstream) :
    NeverStranded upstream := by
  constructor
  · intro query attempt seen waits
    obtain ⟨_, awaited⟩ := inv.parked waits
    exact awaited.imp_left Nat.ne_of_gt
  · intro connecting
    obtain ⟨task, pending⟩ := inv.connecting connecting
    exact ⟨task, pending.leavesConnecting⟩

/-- In every reachable state each parked query has a notification to see or a build that
will still notify it, and `Connecting` has a build whose end takes it out of that state. -/
theorem no_query_stranded {start final : ReconnectingUpstream} (initial : Initial start)
    {events : List Event} (ran : run step start events = some final) : NeverStranded final := by
  have inv : Watched final :=
    invariant_of_run (fun _ _ _ inv stepped => watched_step inv stepped) (watched_initial initial) ran
  exact inv.neverStranded

/-- Two queries find the upstream down: the first starts a build, the second parks beside
it, and the build has not ended. -/
def twoParked : List Event :=
  [.begin 0, .subscribe 0, .inspect 0, .begin 1, .subscribe 1, .inspect 1, .trigger 0, .trigger 1]

theorem two_parked_awaited :
    ∃ final, run step (.new (.down 0 "refused") 0) twoParked = some final ∧
      final.queries 0 = .parked .first 0 ∧ final.queries 1 = .parked .first 0 ∧
      final.state = .connecting ∧ NeverStranded final := by
  have ran : ∃ final, run step (.new (.down 0 "refused") 0) twoParked = some final ∧
      final.queries 0 = .parked .first 0 ∧ final.queries 1 = .parked .first 0 ∧
      final.state = .connecting := ⟨_, rfl, rfl, rfl, rfl⟩
  obtain ⟨final, reached, first, second, connecting⟩ := ran
  exact ⟨final, reached, first, second, connecting, no_query_stranded (.down 0 "refused") reached⟩

end Sumidero.Upstream
