import Mathlib.Data.List.Basic

namespace Sumidero.Data

universe u v w

/-! Finite runs of a partial step function.  All nondeterminism of a system
(which task moves, what the network answers, how much time passes) is carried
by the event, so a run is determined by its start and its list of events. -/

variable {State : Type u} {Event : Type v} (step : State → Event → Option State)

/-- The state after a list of events, if every one of them is enabled. -/
def run : State → List Event → Option State
  | state, [] => some state
  | state, event :: rest => (step state event).bind fun next => run next rest

/-- Every step taken along the run, read as (state before, event, state after),
meets `holds`.  Nothing is asked after an event that is not enabled. -/
def Along (holds : State → Event → State → Prop) : State → List Event → Prop
  | _, [] => True
  | state, event :: rest =>
      ∀ next, step state event = some next → holds state event next ∧ Along holds next rest

/-- Every state visited along the run, the first one included, meets `holds`. -/
def Visits (holds : State → Prop) (state : State) (events : List Event) : Prop :=
  ∀ front back final, events = front ++ back → run step state front = some final → holds final

/-- What is noted along a run, event by event, as far as its events are enabled. -/
def history {Note : Type w} (note : Note → State → Event → Note) : Note → State → List Event → Note
  | noted, _, [] => noted
  | noted, state, event :: rest =>
      match step state event with
      | some next => history note (note noted state event) next rest
      | none => noted

/-- The step of an operation that also answers something. -/
def stepOf {Answer : Type w} (apply : State → Event → Option (State × Answer)) (state : State)
    (event : Event) : Option State :=
  (apply state event).map Prod.fst

/-- A run of operations that each answer something: the last state and the answers. -/
def replay {Answer : Type w} (apply : State → Event → Option (State × Answer)) :
    State → List Event → Option (State × List Answer)
  | state, [] => some (state, [])
  | state, event :: rest => do
      let (next, answer) ← apply state event
      let (final, answers) ← replay apply next rest
      return (final, answer :: answers)

variable {step}

@[simp] theorem run_nil (state : State) : run step state [] = some state := rfl

theorem run_cons {state final : State} {event : Event} {rest : List Event}
    (ran : run step state (event :: rest) = some final) :
    ∃ next, step state event = some next ∧ run step next rest = some final :=
  Option.bind_eq_some_iff.mp ran

theorem run_cons_of_step {state next : State} {event : Event} (rest : List Event)
    (stepped : step state event = some next) :
    run step state (event :: rest) = run step next rest := by
  simp only [run, stepped, Option.bind_some]

theorem along_of_steps {holds : State → Event → State → Prop}
    (each : ∀ before event after, step before event = some after → holds before event after)
    (state : State) (events : List Event) : Along step holds state events := by
  induction events generalizing state with
  | nil => trivial
  | cons event rest ih => exact fun next stepped => ⟨each state event next stepped, ih next⟩

/-- An invariant of states and notes, preserved by every admitted step, holds at the end of a
run all of whose steps are admitted, of what was noted along it. -/
theorem invariant_of_admitted_history {Note : Type w} {note : Note → State → Event → Note}
    {invariant : Note → State → Prop} {admits : State → Event → State → Prop}
    (preserved : ∀ noted before event after, invariant noted before →
      step before event = some after → admits before event after →
        invariant (note noted before event) after)
    {noted : Note} {state final : State} {events : List Event} (initial : invariant noted state)
    (admitted : Along step admits state events) (ran : run step state events = some final) :
    invariant (history step note noted state events) final := by
  induction events generalizing noted state with
  | nil =>
      cases ran
      exact initial
  | cons event rest ih =>
      obtain ⟨next, stepped, later⟩ := run_cons ran
      obtain ⟨here, there⟩ := admitted next stepped
      simp only [history, stepped]
      exact ih (preserved noted state event next initial stepped here) there later

theorem invariant_of_history {Note : Type w} {note : Note → State → Event → Note}
    {invariant : Note → State → Prop}
    (preserved : ∀ noted before event after, invariant noted before →
      step before event = some after → invariant (note noted before event) after)
    {noted : Note} {state final : State} {events : List Event} (initial : invariant noted state)
    (ran : run step state events = some final) :
    invariant (history step note noted state events) final := by
  have every : Along step (fun _ _ _ => True) state events :=
    along_of_steps (fun _ _ _ _ => trivial) state events
  exact invariant_of_admitted_history
    (fun noted before event after held stepped _ => preserved noted before event after held stepped)
    initial every ran

/-- The same with nothing noted. -/
theorem invariant_of_along {invariant : State → Prop} {admits : State → Event → State → Prop}
    (preserved : ∀ before event after, invariant before → step before event = some after →
      admits before event after → invariant after)
    {state final : State} {events : List Event} (initial : invariant state)
    (admitted : Along step admits state events) (ran : run step state events = some final) :
    invariant final :=
  @invariant_of_admitted_history State Event step Unit (fun _ _ _ => ()) (fun _ => invariant) admits
    (fun _ => preserved) () state final events initial admitted ran

theorem invariant_of_run {invariant : State → Prop}
    (preserved : ∀ before event after, invariant before → step before event = some after →
      invariant after)
    {state final : State} {events : List Event} (initial : invariant state)
    (ran : run step state events = some final) : invariant final :=
  @invariant_of_history State Event step Unit (fun _ _ _ => ()) (fun _ => invariant)
    (fun _ => preserved) () state final events initial ran

theorem history_append {Note : Type w} {note : Note → State → Event → Note} {noted : Note}
    {state middle : State} {front back : List Event} (ran : run step state front = some middle) :
    history step note noted state (front ++ back) =
      history step note (history step note noted state front) middle back := by
  induction front generalizing state noted with
  | nil =>
      cases ran
      rfl
  | cons event rest ih =>
      obtain ⟨next, stepped, later⟩ := run_cons ran
      simp only [List.cons_append, history, stepped]
      exact ih later

theorem along_of_invariant {invariant : State → Prop}
    {admits holds : State → Event → State → Prop}
    (preserved : ∀ before event after, invariant before → step before event = some after →
      admits before event after → invariant after)
    (implies : ∀ before event after, invariant before → step before event = some after →
      admits before event after → holds before event after)
    {state : State} {events : List Event} (initial : invariant state)
    (admitted : Along step admits state events) : Along step holds state events := by
  induction events generalizing state with
  | nil => trivial
  | cons event rest ih =>
      intro next stepped
      obtain ⟨here, there⟩ := admitted next stepped
      exact ⟨implies state event next initial stepped here,
        ih (preserved state event next initial stepped here) there⟩

theorem along_cons {holds : State → Event → State → Prop} {state next : State} {event : Event}
    {rest : List Event} (stepped : step state event = some next) (here : holds state event next)
    (there : Along step holds next rest) : Along step holds state (event :: rest) := by
  intro other otherStepped
  obtain rfl : next = other := Option.some.inj (stepped.symm.trans otherStepped)
  exact ⟨here, there⟩

theorem along_front {holds : State → Event → State → Prop} {state : State}
    {front back : List Event} (all : Along step holds state (front ++ back)) :
    Along step holds state front := by
  induction front generalizing state with
  | nil => trivial
  | cons event rest ih =>
      intro next stepped
      obtain ⟨here, there⟩ := all next stepped
      exact ⟨here, ih there⟩

theorem along_at {holds : State → Event → State → Prop} {state before after : State}
    {front rest : List Event} {event : Event}
    (all : Along step holds state (front ++ event :: rest))
    (reached : run step state front = some before) (stepped : step before event = some after) :
    holds before event after := by
  induction front generalizing state with
  | nil =>
      cases reached
      exact (all after stepped).1
  | cons first others ih =>
      obtain ⟨next, took, later⟩ := run_cons reached
      exact ih (all next took).2 later

theorem along_of_forall {holds : State → Event → State → Prop} {events : List Event}
    (each : ∀ event ∈ events, ∀ before after, holds before event after) (state : State) :
    Along step holds state events := by
  induction events generalizing state with
  | nil => trivial
  | cons event rest ih =>
      intro next _
      exact ⟨each event List.mem_cons_self state next,
        ih (fun other member => each other (List.mem_cons_of_mem _ member)) next⟩

theorem along_snoc {holds : State → Event → State → Prop} {state : State} {front : List Event}
    {event : Event} (all : Along step holds state front)
    (last : ∀ before after, run step state front = some before → step before event = some after →
      holds before event after) : Along step holds state (front ++ [event]) := by
  induction front generalizing state with
  | nil => exact fun next stepped => ⟨last state next rfl stepped, trivial⟩
  | cons first rest ih =>
      intro next stepped
      obtain ⟨here, there⟩ := all next stepped
      refine ⟨here, ih there fun before after reached => last before after ?_⟩
      rw [run_cons_of_step rest stepped]
      exact reached

theorem visits_of_along {invariant : State → Prop} {admits : State → Event → State → Prop}
    (preserved : ∀ before event after, invariant before → step before event = some after →
      admits before event after → invariant after)
    {state : State} {events : List Event} (initial : invariant state)
    (admitted : Along step admits state events) : Visits step invariant state events := by
  intro front back final split ran
  subst split
  exact invariant_of_along preserved initial (along_front admitted) ran

theorem visits_start {holds : State → Prop} {state : State} {events : List Event}
    (visited : Visits step holds state events) : holds state :=
  visited [] events state rfl rfl

theorem visits_tail {holds : State → Prop} {state next : State} {event : Event}
    {rest : List Event} (visited : Visits step holds state (event :: rest))
    (stepped : step state event = some next) : Visits step holds next rest := by
  intro front back final split ran
  refine visited (event :: front) back final (by rw [split]; rfl) ?_
  rw [run_cons_of_step front stepped]
  exact ran

/-- What every visited state says of the step that led to it holds of every step. -/
theorem along_of_visits {holds : State → Prop} {admits : State → Event → State → Prop}
    (implies : ∀ before event after, step before event = some after → holds after →
      admits before event after)
    {state : State} {events : List Event} (visited : Visits step holds state events) :
    Along step admits state events := by
  induction events generalizing state with
  | nil => trivial
  | cons event rest ih =>
      intro next stepped
      have later := visits_tail visited stepped
      exact ⟨implies state event next stepped (visits_start later), ih later⟩

theorem visits_mono {weak strong : State → Prop} {state : State} {events : List Event}
    (implies : ∀ reached, strong reached → weak reached)
    (visited : Visits step strong state events) : Visits step weak state events :=
  fun front back final split ran => implies final (visited front back final split ran)

section Replay

variable {Other : Type u} {Answer : Type w} {apply : State → Event → Option (State × Answer)}
  {applyOther : Other → Event → Option (Other × Answer)}

theorem stepOf_eq {state next : State} {event : Event} {answer : Answer}
    (applied : apply state event = some (next, answer)) : stepOf apply state event = some next :=
  congrArg (Option.map Prod.fst) applied

theorem replay_cons {state final : State} {event : Event} {rest : List Event}
    {answers : List Answer} (ran : replay apply state (event :: rest) = some (final, answers)) :
    ∃ next answer later, apply state event = some (next, answer) ∧
      replay apply next rest = some (final, later) ∧ answers = answer :: later := by
  obtain ⟨⟨next, answer⟩, applied, further⟩ := Option.bind_eq_some_iff.mp ran
  obtain ⟨⟨last, later⟩, ranRest, same⟩ := Option.bind_eq_some_iff.mp further
  cases same
  exact ⟨next, answer, later, applied, ranRest, rfl⟩

/-- The states a replay passes through are those of the run. -/
theorem replay_run {state final : State} {events : List Event} {answers : List Answer}
    (ran : replay apply state events = some (final, answers)) :
    run (stepOf apply) state events = some final := by
  induction events generalizing state answers with
  | nil =>
      cases ran
      rfl
  | cons event rest ih =>
      obtain ⟨next, answer, later, applied, ranRest, rfl⟩ := replay_cons ran
      rw [run_cons_of_step rest (stepOf_eq applied)]
      exact ih ranRest

/-- Two machines give the same answers as long as each operation answers alike and keeps
them related; the relation may speak of the operations still to come. -/
theorem replay_simulates {related : State → Other → List Event → Prop}
    {admits : State → Event → State → Prop}
    (each : ∀ state other event rest next answer, related state other (event :: rest) →
      apply state event = some (next, answer) → admits state event next →
        ∃ nextOther, applyOther other event = some (nextOther, answer) ∧
          related next nextOther rest)
    {state final : State} {other : Other} {events : List Event} {answers : List Answer}
    (initial : related state other events)
    (admitted : Along (stepOf apply) admits state events)
    (ran : replay apply state events = some (final, answers)) :
    ∃ last, replay applyOther other events = some (last, answers) := by
  induction events generalizing state other answers with
  | nil =>
      cases ran
      exact ⟨other, rfl⟩
  | cons event rest ih =>
      obtain ⟨next, answer, later, applied, ranRest, rfl⟩ := replay_cons ran
      obtain ⟨here, there⟩ := admitted next (stepOf_eq applied)
      obtain ⟨nextOther, alike, still⟩ := each state other event rest next answer initial applied here
      obtain ⟨last, ranOther⟩ := ih still there ranRest
      refine ⟨last, ?_⟩
      simp only [replay, alike, ranOther, Option.bind_eq_bind, Option.bind_some, Option.pure_def]

end Replay

end Sumidero.Data
