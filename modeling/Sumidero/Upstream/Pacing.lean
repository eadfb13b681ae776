import Sumidero.Upstream.Waiting

namespace Sumidero.Upstream

open Sumidero.Data

/-! How closely builds may follow one another: the backoff between failed builds, the
probation of a connection that has not answered. -/

/-- The build is still to run the section of its `Concluded`. -/
def BuildPhase.Active : BuildPhase → Prop
  | .notifying | .ended => False
  | _ => True

/-- The build has read the backoff and not stored the next one yet. -/
def BuildPhase.midway : BuildPhase → Bool
  | .built _ _ | .installed _ => true
  | _ => false

/-- Would `trigger_repair` start a build now? -/
def ReconnectingUpstream.due (upstream : ReconnectingUpstream) : Bool :=
  match upstream.state with
  | .down retryAt _ => retryAt ≤ upstream.now
  | _ => false

/-- Does this step start a build? -/
def StartsBuild (before : ReconnectingUpstream) (event : Event) : Prop :=
  (∃ query, event = .trigger query) ∧ before.due = true

/-- Builds do not overlap and are not dropped. -/
def Alone (before : ReconnectingUpstream) (event : Event) (_ : ReconnectingUpstream) : Prop :=
  (∀ task, event ≠ .drop task) ∧ (StartsBuild before event → ∀ phase ∈ before.tasks, ¬ phase.Active)

/-- History of one upstream's builds.  The instants before which no build may start: the
backoff after a failed build, the probation of a connection that nothing was answered
on since.  When the last build started, if nothing was answered since.  The backoff the
next build must find, as far as the builds and answers so far determine it. -/
structure Pace where
  afterFailure : Option Instant
  afterInstall : Option Instant
  lastStart : Option Instant
  backoff : Option Nat
deriving Repr, DecidableEq

def Pace.start : Pace where
  afterFailure := none
  afterInstall := none
  lastStart := none
  backoff := some MIN_RECONNECT_BACKOFF

/-- A usable answer is noted where `record_success` resets the backoff and where it proves
the connection; a reset that a build's own store follows is lost. -/
def notePace (pace : Pace) (before : ReconnectingUpstream) : Event → Pace
  | .trigger _ =>
      if before.due then
        { pace with afterFailure := none, afterInstall := none, lastStart := some before.now }
      else pace
  | .install task =>
      match before.tasks[task]? with
      | some (.built (.ok _) backoff) =>
          { pace with
            afterFailure := none
            afterInstall := some (before.now + min backoff 5000)
            backoff := some (min (backoff * 2) 5000) }
      | some (.built (.error _) backoff) =>
          { pace with
            afterFailure := some (before.now + backoff)
            afterInstall := none
            backoff := some (min (backoff * 2) 30000) }
      | _ => pace
  | .resetBackoff _ =>
      { pace with
        backoff :=
          if before.tasks.any BuildPhase.midway then none else some 500 }
  | .prove _ => { pace with afterInstall := none, lastStart := none }
  | _ => pace

/-- What pacing promises in one state. -/
structure WellPaced (pace : Pace) (upstream : ReconnectingUpstream) : Prop where
  backoff : 500 ≤ upstream.backoffMs ∧ upstream.backoffMs ≤ 30000
  inForce : ∀ (task : Nat) result backoff, upstream.tasks[task]? = some (.built result backoff) →
    500 ≤ backoff ∧ backoff ≤ 30000
  found : ∀ (task expected : Nat), upstream.tasks[task]? = some .building →
    pace.backoff = some expected → upstream.backoffMs = expected
  scheduled : ∀ retryAt lastError, upstream.state = .down retryAt lastError →
    retryAt ≤ upstream.now + 30000
  probation : ∀ generation until_, upstream.state = .connected generation (some until_) →
    until_ ≤ upstream.now + 5000
  starts : ∀ event after, step upstream event = some after → StartsBuild upstream event →
    (∀ earliest, pace.afterFailure = some earliest → earliest ≤ upstream.now) ∧
    (∀ earliest, pace.afterInstall = some earliest → earliest ≤ upstream.now) ∧
    ∀ last, pace.lastStart = some last → last + 500 ≤ upstream.now

section Backoffs

/-- The backoff, the builds that have read it or are about to store it, and what the next
build must find. -/
structure Backoffs (expected : Option Nat) (tasks : List BuildPhase) (backoffMs : Nat) : Prop where
  one : ∀ {first second : Nat} {old new : BuildPhase}, tasks[first]? = some old → old.Active →
    tasks[second]? = some new → new.Active → first = second
  range : 500 ≤ backoffMs ∧ backoffMs ≤ 30000
  inForce : ∀ {task : Nat} {result backoff}, tasks[task]? = some (.built result backoff) →
    500 ≤ backoff ∧ backoff ≤ 30000
  stored : ∀ {task next : Nat}, tasks[task]? = some (.installed next) →
    (500 ≤ next ∧ next ≤ 30000) ∧ ∀ value, expected = some value → next = value
  found : (∀ phase ∈ tasks, phase.midway = false) → ∀ value, expected = some value →
    backoffMs = value

variable {expected next : Option Nat} {tasks : List BuildPhase} {backoffMs later task : Nat}
  {old new : BuildPhase}

/-- One build moves on; no other one is between its read and its store. -/
theorem Backoffs.move (inv : Backoffs expected tasks backoffMs)
    (found : tasks[task]? = some old) (active : new.Active → old.Active)
    (others : old.Active ∨ next = expected) (range : 500 ≤ later ∧ later ≤ 30000)
    (inForce : ∀ result backoff, new = .built result backoff → 500 ≤ backoff ∧ backoff ≤ 30000)
    (stored : ∀ store, new = .installed store →
      (500 ≤ store ∧ store ≤ 30000) ∧ ∀ value, next = some value → store = value)
    (settles : (∀ phase ∈ tasks.set task new, phase.midway = false) → ∀ value,
      next = some value → later = value) :
    Backoffs next (tasks.set task new) later := by
  have bound := (List.getElem?_eq_some_iff.mp found).1
  have at_task : ∀ {phase}, (tasks.set task new)[task]? = some phase → new = phase := by
    intro phase given
    rw [List.getElem?_set_self bound] at given
    exact Option.some.inj given
  have elsewhere : ∀ {other : Nat} {phase : BuildPhase}, other ≠ task →
      (tasks.set task new)[other]? = some phase →
      tasks[other]? = some phase := by
    intro other phase apart given
    rwa [List.getElem?_set_ne (Ne.symm apart)] at given
  have before : ∀ {other : Nat} {phase : BuildPhase},
      (tasks.set task new)[other]? = some phase → phase.Active →
      ∃ was, tasks[other]? = some was ∧ was.Active := by
    intro other phase given stays
    by_cases same : other = task
    · subst same
      exact ⟨old, found, active (at_task given ▸ stays)⟩
    · exact ⟨phase, elsewhere same given, stays⟩
  constructor
  · intro first second one two foundOne activeOne foundTwo activeTwo
    obtain ⟨wasOne, heldOne, stillOne⟩ := before foundOne activeOne
    obtain ⟨wasTwo, heldTwo, stillTwo⟩ := before foundTwo activeTwo
    exact inv.one heldOne stillOne heldTwo stillTwo
  · exact range
  · intro other result backoff given
    by_cases same : other = task
    · subst same
      exact inForce result backoff (at_task given)
    · exact inv.inForce (elsewhere same given)
  · intro other store given
    by_cases same : other = task
    · subst same
      exact stored store (at_task given)
    · have held := elsewhere same given
      rcases others with running | kept
      · exact absurd (inv.one held trivial found running) same
      · exact ⟨(inv.stored held).1, kept ▸ (inv.stored held).2⟩
  · exact settles

/-- A move between phases that neither read nor store the backoff. -/
theorem Backoffs.advance (inv : Backoffs expected tasks backoffMs)
    (found : tasks[task]? = some old) (active : new.Active → old.Active)
    (plain : old.midway = false ∧ new.midway = false) :
    Backoffs expected (tasks.set task new) backoffMs := by
  refine inv.move found active (.inr rfl) inv.range ?_ ?_ ?_
  · intro result backoff same
    rw [same] at plain
    exact absurd plain.2 nofun
  · intro store same
    rw [same] at plain
    exact absurd plain.2 nofun
  · intro quiet
    refine inv.found fun phase member => ?_
    obtain ⟨index, given⟩ := List.mem_iff_getElem?.mp member
    by_cases same : index = task
    · subst same
      rw [found] at given
      cases given
      exact plain.1
    · refine quiet phase (List.mem_iff_getElem?.mpr ⟨index, ?_⟩)
      rwa [List.getElem?_set_ne (Ne.symm same)]

theorem Backoffs.spawn (inv : Backoffs expected tasks backoffMs)
    (alone : ∀ phase ∈ tasks, ¬ phase.Active) :
    Backoffs expected (tasks ++ [.building]) backoffMs := by
  have idle : ∀ {index : Nat} {phase : BuildPhase}, (tasks ++ [.building])[index]? = some phase →
      phase.Active → index = tasks.length ∧ phase = .building := by
    intro index phase given running
    by_cases older : index < tasks.length
    · rw [List.getElem?_append_left older] at given
      exact absurd running (alone phase (List.mem_of_getElem? given))
    · rw [List.getElem?_append_right (Nat.le_of_not_lt older)] at given
      have last : index - tasks.length = 0 := by
        have bound := (List.getElem?_eq_some_iff.mp given).1
        simp only [List.length_singleton] at bound
        omega
      rw [last] at given
      exact ⟨by omega, (Option.some.inj given).symm⟩
  constructor
  · intro first second one two foundOne activeOne foundTwo activeTwo
    rw [(idle foundOne activeOne).1, (idle foundTwo activeTwo).1]
  · exact inv.range
  · intro index result backoff given
    cases (idle given trivial).2
  · intro index store given
    cases (idle given trivial).2
  · intro quiet
    exact inv.found fun phase member => quiet phase (List.mem_append_left _ member)

theorem midway_set (found : tasks[task]? = some old) (mid : new.midway = true) :
    ¬ ∀ phase ∈ tasks.set task new, phase.midway = false := by
  intro quiet
  have bound := (List.getElem?_eq_some_iff.mp found).1
  have still := quiet new (List.mem_of_getElem? (List.getElem?_set_self bound))
  rw [mid] at still
  contradiction

/-- The end of a build reads the backoff. -/
theorem Backoffs.read (inv : Backoffs expected tasks backoffMs)
    (found : tasks[task]? = some .building) (result : Except String Nat) :
    Backoffs expected (tasks.set task (.built result backoffMs)) backoffMs := by
  refine inv.move found (fun _ => trivial) (.inl trivial) inv.range ?_ nofun ?_
  · intro other backoff same
    cases same
    exact inv.range
  · exact fun quiet => absurd quiet (midway_set found rfl)

/-- A build that has written the state knows what it will store. -/
theorem Backoffs.install {result : Except String Nat} {backoff store : Nat}
    (inv : Backoffs expected tasks backoffMs) (found : tasks[task]? = some (.built result backoff))
    (range : 500 ≤ store ∧ store ≤ 30000) :
    Backoffs (some store) (tasks.set task (.installed store)) backoffMs := by
  refine inv.move found (fun _ => trivial) (.inl trivial) inv.range nofun ?_ ?_
  · intro other same
    cases same
    exact ⟨range, fun value same => Option.some.inj same⟩
  · exact fun quiet => absurd quiet (midway_set found rfl)

theorem Backoffs.store {store : Nat} (inv : Backoffs expected tasks backoffMs)
    (found : tasks[task]? = some (.installed store)) :
    Backoffs expected (tasks.set task .settled) store := by
  obtain ⟨range, same⟩ := inv.stored found
  exact inv.move found (fun _ => trivial) (.inl trivial) range nofun nofun fun _ => same

theorem Backoffs.reset (inv : Backoffs expected tasks backoffMs) :
    Backoffs (if tasks.any BuildPhase.midway then none else some 500) tasks 500 := by
  refine ⟨inv.one, ⟨Nat.le_refl _, by decide⟩, inv.inForce, fun given => ?_, fun quiet => ?_⟩
  · have mid : tasks.any BuildPhase.midway = true :=
      List.any_eq_true.mpr ⟨_, List.mem_of_getElem? given, rfl⟩
    rw [if_pos mid]
    exact ⟨(inv.stored given).1, nofun⟩
  · have none_mid : ¬ tasks.any BuildPhase.midway = true := by
      intro some_mid
      obtain ⟨phase, member, mid⟩ := List.any_eq_true.mp some_mid
      rw [quiet phase member] at mid
      contradiction
    rw [if_neg none_mid]
    exact fun value same => Option.some.inj same

end Backoffs

section Schedule

/-- From this state no build starts before `earliest`. -/
def ConnState.NotBefore (earliest : Instant) : ConnState → Prop
  | .down retryAt _ => earliest ≤ retryAt
  | .connected _ (some ends) => earliest ≤ ends
  | _ => False

/-- When the state lets the next build start, against what the history asks for. -/
structure Schedule (pace : Pace) (now : Instant) (state : ConnState) : Prop where
  scheduled : ∀ {retryAt lastError}, state = .down retryAt lastError → retryAt ≤ now + 30000
  probation : ∀ {generation ends}, state = .connected generation (some ends) → ends ≤ now + 5000
  afterFailure : ∀ {earliest}, pace.afterFailure = some earliest →
    state.NotBefore earliest ∧ ∃ retryAt lastError, state = .down retryAt lastError
  afterInstall : ∀ {earliest}, pace.afterInstall = some earliest → state.NotBefore earliest
  lastStart : ∀ {last}, pace.lastStart = some last →
    last ≤ now ∧ (state = .connecting ∨ state.NotBefore (last + 500))

variable {pace : Pace} {now backoff generation : Nat} {state : ConnState}

theorem Schedule.tick (inv : Schedule pace now state) (elapsed : Nat) :
    Schedule pace (now + elapsed) state := by
  refine ⟨fun down => ?_, fun proving => ?_, inv.afterFailure, inv.afterInstall, fun started => ?_⟩
  · have bound := inv.scheduled down
    grind
  · have bound := inv.probation proving
    grind
  · obtain ⟨past, where_⟩ := inv.lastStart started
    exact ⟨Nat.le_add_right_of_le past, where_⟩

theorem Schedule.spawn (pace : Pace) (now : Instant) :
    Schedule { pace with afterFailure := none, afterInstall := none, lastStart := some now } now
      .connecting := by
  refine ⟨nofun, nofun, nofun, nofun, fun started => ?_⟩
  cases started
  exact ⟨Nat.le_refl _, .inl rfl⟩

theorem Schedule.failed (inv : Schedule pace now state) (inForce : 500 ≤ backoff ∧ backoff ≤ 30000)
    (err : String) (next : Option Nat) :
    Schedule { pace with
      afterFailure := some (now + backoff)
      afterInstall := none
      backoff := next } now (.down (now + backoff) err) := by
  refine ⟨fun down => ?_, nofun, fun failed => ?_, nofun, fun started => ?_⟩
  · cases down
    grind
  · cases failed
    exact ⟨Nat.le_refl _, _, _, rfl⟩
  · obtain ⟨past, _⟩ := inv.lastStart started
    exact ⟨past, .inr (show _ ≤ _ by grind)⟩

theorem Schedule.installed (inv : Schedule pace now state)
    (inForce : 500 ≤ backoff ∧ backoff ≤ 30000) (generation : Nat) (next : Option Nat) :
    Schedule { pace with
      afterFailure := none
      afterInstall := some (now + min backoff 5000)
      backoff := next } now (.connected generation (some (now + min backoff 5000))) := by
  refine ⟨nofun, fun proving => ?_, nofun, fun installed => ?_, fun started => ?_⟩
  · cases proving
    grind
  · cases installed
    exact Nat.le_refl _
  · obtain ⟨past, _⟩ := inv.lastStart started
    exact ⟨past, .inr (show _ ≤ _ by grind)⟩

theorem Schedule.invalidated {probationUntil : Option Instant}
    (inv : Schedule pace now (.connected generation probationUntil)) (why : String) :
    Schedule pace now (.down (probationUntil.getD now) why) := by
  cases probationUntil with
  | some ends =>
      have bound := inv.probation rfl
      refine ⟨fun down => ?_, nofun, fun failed => ?_, inv.afterInstall, fun started => ?_⟩
      · cases down
        simp only [Option.getD_some]
        grind
      · obtain ⟨_, _, _, down⟩ := inv.afterFailure failed
        cases down
      · obtain ⟨past, where_⟩ := inv.lastStart started
        exact ⟨past, .inr (where_.resolve_left nofun)⟩
  | none =>
      refine ⟨fun down => ?_, nofun, fun failed => ?_, fun installed => ?_, fun started => ?_⟩
      · cases down
        simp only [Option.getD_none]
        grind
      · obtain ⟨_, _, _, down⟩ := inv.afterFailure failed
        cases down
      · exact (inv.afterInstall installed).elim
      · exact ((inv.lastStart started).2.resolve_left nofun).elim

theorem Schedule.proven (inv : Schedule pace now state) {after : ConnState}
    (kept : after = state ∨ ∃ generation ends, state = .connected generation ends ∧
      after = .connected generation none) :
    Schedule { pace with afterInstall := none, lastStart := none } now after := by
  rcases kept with rfl | ⟨generation, ends, rfl, rfl⟩
  · exact ⟨inv.scheduled, inv.probation, inv.afterFailure, nofun, nofun⟩
  · refine ⟨nofun, nofun, fun failed => ?_, nofun, nofun⟩
    obtain ⟨_, _, _, down⟩ := inv.afterFailure failed
    cases down

end Schedule

/-- The invariant of a run with builds one at a time. -/
structure Paced (pace : Pace) (upstream : ReconnectingUpstream) : Prop where
  backoffs : Backoffs pace.backoff upstream.tasks upstream.backoffMs
  schedule : Schedule pace upstream.now upstream.state
  connecting : upstream.state = .connecting → ∃ task, upstream.Pending task

theorem paced_initial {start : ReconnectingUpstream} (initial : Initial start) :
    Paced .start start := by
  refine ⟨⟨?_, ?_, ?_, ?_, ?_⟩, ⟨?_, ?_, nofun, nofun, nofun⟩, ?_⟩ <;> cases initial <;>
    simp [ReconnectingUpstream.new, MIN_RECONNECT_BACKOFF, Pace.start]

section Steps

variable {pace : Pace} {before after : ReconnectingUpstream} {event : Event} {task : Nat}

theorem due_iff {upstream : ReconnectingUpstream} : upstream.due = true ↔ upstream.Due := by
  simp only [ReconnectingUpstream.due, ReconnectingUpstream.Due]
  cases state : upstream.state <;> simp

theorem triggerRepair_spawns (due : before.due = true) :
    ∃ retryAt lastError, before.state = .down retryAt lastError ∧
      before.triggerRepair = { before with
        state := .connecting
        tasks := before.tasks ++ [.building]
        owner := some before.tasks.length } := by
  obtain ⟨retryAt, lastError, down, past⟩ := due_iff.mp due
  refine ⟨retryAt, lastError, down, ?_⟩
  simp only [ReconnectingUpstream.triggerRepair, down, if_pos past]

theorem triggerRepair_idle (waits : before.due = false) : before.triggerRepair = before := by
  cases state : before.state with
  | down retryAt lastError =>
      have later : ¬ retryAt ≤ before.now := by
        simpa [ReconnectingUpstream.due, state] using waits
      simp only [ReconnectingUpstream.triggerRepair, state, if_neg later]
  | _ => simp only [ReconnectingUpstream.triggerRepair, state]

theorem Paced.trigger (inv : Paced pace before) (query : Nat) (phase : QueryPhase)
    (alone : Alone before (.trigger query) after) :
    Paced (notePace pace before (.trigger query)) (before.triggerRepair.setQuery query phase) := by
  cases due : before.due with
  | false =>
      rw [triggerRepair_idle due]
      simp only [notePace, due, Bool.false_eq_true, if_false]
      exact ⟨inv.backoffs, inv.schedule, inv.connecting⟩
  | true =>
      obtain ⟨retryAt, lastError, down, spawned⟩ := triggerRepair_spawns due
      rw [spawned]
      simp only [notePace, due, if_true]
      have idle := alone.2 ⟨⟨query, rfl⟩, due⟩
      exact ⟨inv.backoffs.spawn idle, .spawn pace before.now,
        fun _ => ⟨before.tasks.length, .building, by simp, trivial⟩⟩

theorem Paced.install {result : Except String Nat} {backoff : Nat} (inv : Paced pace before)
    (found : before.tasks[task]? = some (.built result backoff)) :
    Paced (notePace pace before (.install task)) (before.install task result backoff) := by
  have inForce := inv.backoffs.inForce found
  cases result with
  | ok generation =>
      simp only [notePace, found]
      have range : 500 ≤ min (backoff * 2) 5000 ∧ min (backoff * 2) 5000 ≤ 30000 := by omega
      exact ⟨inv.backoffs.install found range, inv.schedule.installed inForce generation _, nofun⟩
  | error err =>
      simp only [notePace, found]
      have range : 500 ≤ min (backoff * 2) 30000 ∧ min (backoff * 2) 30000 ≤ 30000 := by omega
      exact ⟨inv.backoffs.install found range, inv.schedule.failed inForce err _, nofun⟩

theorem conclude_idle (idle : before.state ≠ .connecting) :
    before.conclude task = before.setTask task .notifying := by
  unfold ReconnectingUpstream.conclude
  split
  · exact absurd ‹_› idle
  · rfl

/-- Builds one at a time: a build that concludes does not find another one connecting. -/
theorem Paced.conclude (inv : Paced pace before) (found : before.tasks[task]? = some .settled) :
    Paced pace (before.conclude task) := by
  have idle : before.state ≠ .connecting := by
    intro connecting
    obtain ⟨other, phase, held, pending⟩ := inv.connecting connecting
    have active : phase.Active := by cases phase <;> trivial
    obtain rfl := inv.backoffs.one held active found trivial
    rw [found] at held
    cases held
    exact pending
  rw [conclude_idle idle]
  exact ⟨inv.backoffs.advance found False.elim ⟨rfl, rfl⟩, inv.schedule,
    fun connecting => absurd connecting idle⟩

theorem Paced.prove (inv : Paced pace before) (query : Nat) :
    Paced (notePace pace before (.prove query)) (before.recordSuccess.setQuery query .done) := by
  have backoffs : before.recordSuccess.backoffMs = before.backoffMs := by
    simp only [ReconnectingUpstream.recordSuccess]
    split <;> rfl
  have clock : before.recordSuccess.now = before.now := by
    simp only [ReconnectingUpstream.recordSuccess]
    split <;> rfl
  have kept : before.recordSuccess.state = before.state ∨ ∃ generation ends,
      before.state = .connected generation ends ∧
        before.recordSuccess.state = .connected generation none := by
    cases state : before.state with
    | connected generation ends =>
        exact .inr ⟨generation, ends, rfl, by simp only [ReconnectingUpstream.recordSuccess, state]⟩
    | _ => exact .inl (by simp only [ReconnectingUpstream.recordSuccess, state])
  refine ⟨?_, ?_, fun connecting => ?_⟩
  · rw [ReconnectingUpstream.setQuery_tasks, recordSuccess_tasks]
    exact backoffs ▸ inv.backoffs
  · exact clock ▸ inv.schedule.proven kept
  · obtain ⟨task, pending⟩ := inv.connecting ((recordSuccess_connecting before).mp connecting)
    exact ⟨task, (pending_congr (recordSuccess_tasks before) task).mpr pending⟩

theorem Paced.invalidate {generation : Nat} {why : String} {changed : Bool}
    (inv : Paced pace before) (ran : before.invalidate generation why = (after, changed)) :
    Paced pace after := by
  cases state : before.state with
  | connected current probationUntil =>
      simp only [ReconnectingUpstream.invalidate, state] at ran
      split at ran
      · cases ran
        have schedule := inv.schedule
        rw [state] at schedule
        exact ⟨inv.backoffs, schedule.invalidated why, fun connecting => by cases connecting⟩
      · cases ran
        exact inv
  | _ =>
      simp only [ReconnectingUpstream.invalidate, state] at ran
      cases ran
      exact inv

theorem paced_step (inv : Paced pace before) (stepped : step before event = some after)
    (alone : Alone before event after) : Paced (notePace pace before event) after := by
  cases event with
  | tick elapsed =>
      cases stepped
      exact ⟨inv.backoffs, inv.schedule.tick elapsed, inv.connecting⟩
  | trigger query =>
      simp only [step] at stepped
      split at stepped
      · cases stepped
        exact inv.trigger query _ alone
      · cases stepped
        exact inv.trigger query _ alone
      · contradiction
  | finishBuild task result =>
      simp only [step] at stepped
      split at stepped
      · rename_i found
        cases stepped
        have finished : step before (.finishBuild task result) =
            some (before.finishBuild task result) := by simp only [step, found]
        have still := step_connecting finished inv.connecting
        cases result with
        | ok value => exact ⟨inv.backoffs.read found _, inv.schedule, still⟩
        | error err => exact ⟨inv.backoffs.read found _, inv.schedule, still⟩
      · contradiction
  | install task =>
      simp only [step] at stepped
      split at stepped
      · cases stepped
        exact inv.install ‹_›
      · contradiction
  | storeBackoff task =>
      have still := step_connecting stepped inv.connecting
      simp only [step] at stepped
      split at stepped
      · cases stepped
        exact ⟨inv.backoffs.store ‹_›, inv.schedule, still⟩
      · contradiction
  | drop task => exact absurd rfl (alone.1 task)
  | conclude task =>
      simp only [step] at stepped
      split at stepped
      · cases stepped
        exact inv.conclude ‹_›
      · contradiction
  | notify task =>
      have still := step_connecting stepped inv.connecting
      simp only [step] at stepped
      split at stepped
      · cases stepped
        exact ⟨inv.backoffs.advance ‹_› False.elim ⟨rfl, rfl⟩, inv.schedule, still⟩
      · contradiction
  | invalidate query =>
      simp only [step] at stepped
      split at stepped
      · split at stepped <;> rename_i ran <;> cases stepped
        · have moved : Paced pace _ := inv.invalidate ran
          exact ⟨moved.backoffs, moved.schedule, moved.connecting⟩
        · have moved : Paced pace _ := inv.invalidate ran
          exact ⟨moved.backoffs, moved.schedule, moved.connecting⟩
      · contradiction
  | prove query =>
      simp only [step] at stepped
      split at stepped
      · cases stepped
        exact inv.prove query
      · contradiction
  | resetBackoff query =>
      simp only [step] at stepped
      split at stepped
      · cases stepped
        have schedule := inv.schedule
        exact ⟨inv.backoffs.reset, ⟨schedule.scheduled, schedule.probation, schedule.afterFailure,
          schedule.afterInstall, schedule.lastStart⟩, inv.connecting⟩
      · contradiction
  | inspect | answer | wake =>
      simp only [step] at stepped
      repeat' split at stepped
      all_goals first
        | contradiction
        | (cases stepped; exact ⟨inv.backoffs, inv.schedule, inv.connecting⟩)
  | begin | subscribe | giveUp | queryError | fatal | timeout =>
      simp only [step] at stepped
      split at stepped
      · cases stepped
        exact ⟨inv.backoffs, inv.schedule, inv.connecting⟩
      · contradiction

/-- While a build runs alone, no other one is between its read and its store. -/
theorem Paced.found {expected : Nat} (inv : Paced pace before)
    (running : before.tasks[task]? = some .building) (told : pace.backoff = some expected) :
    before.backoffMs = expected := by
  refine inv.backoffs.found (fun phase member => ?_) expected told
  obtain ⟨index, held⟩ := List.mem_iff_getElem?.mp member
  cases mid : phase.midway with
  | false => rfl
  | true =>
      have active : phase.Active := by
        cases phase <;> trivial
      obtain rfl := inv.backoffs.one held active running trivial
      rw [running] at held
      cases held
      contradiction

theorem Paced.starts (inv : Paced pace before) (due : before.due = true) :
    (∀ earliest, pace.afterFailure = some earliest → earliest ≤ before.now) ∧
      (∀ earliest, pace.afterInstall = some earliest → earliest ≤ before.now) ∧
      ∀ last, pace.lastStart = some last → last + 500 ≤ before.now := by
  obtain ⟨retryAt, lastError, down, past⟩ := due_iff.mp due
  have schedule := inv.schedule
  rw [down] at schedule
  refine ⟨fun earliest failed => ?_, fun earliest installed => ?_, fun last started => ?_⟩
  · exact Nat.le_trans (schedule.afterFailure failed).1 past
  · exact Nat.le_trans (schedule.afterInstall installed) past
  · obtain ⟨_, waits⟩ := schedule.lastStart started
    exact Nat.le_trans (waits.resolve_left nofun) past

theorem Paced.wellPaced (inv : Paced pace before) : WellPaced pace before where
  backoff := inv.backoffs.range
  inForce _ _ _ found := inv.backoffs.inForce found
  found _ _ running told := inv.found running told
  scheduled _ _ down := inv.schedule.scheduled down
  probation _ _ proving := inv.schedule.probation proving
  starts _ _ _ started := inv.starts started.2

end Steps

/-- A build is refused; when its half second has passed the next query starts another one. -/
def refusedThenRetried : List Event :=
  [.begin 0, .subscribe 0, .inspect 0, .trigger 0, .finishBuild 0 (.error "refused"), .install 0,
   .storeBackoff 0, .conclude 0, .notify 0, .tick 500,
   .begin 1, .subscribe 1, .inspect 1, .trigger 1]

end Sumidero.Upstream
