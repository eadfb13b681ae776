import Sumidero.Upstream.Connection

namespace Sumidero.Upstream

open Sumidero.Data

/-! Probation: which answers may prove the connection that is installed. -/

/-- A proven connection is the start-up one, or was answered itself. -/
def ProvenByOwnAnswer (start upstream : ReconnectingUpstream) : Prop :=
  ∀ generation, upstream.state = .connected generation none →
    start.state = .connected generation none ∨ generation ∈ upstream.answered

/-- When `record_success` finds a connection in probation, the answer came on that
connection, or an earlier one did. -/
def ProvesOwnConnection (before : ReconnectingUpstream) (event : Event)
    (_ : ReconnectingUpstream) : Prop :=
  ∀ query generation installed probationEnd, event = .prove query →
    before.queries query = .proving generation →
    before.state = .connected installed (some probationEnd) →
    generation = installed ∨ installed ∈ before.answered

/-- The strengthened invariant.  Generations drawn since the start are above
`start.builds`, so none of them is the start-up connection. -/
structure Probation (start upstream : ReconnectingUpstream) : Prop where
  proven : ProvenByOwnAnswer start upstream
  succeeding : ∀ {query generation}, upstream.queries query = .succeeding generation →
    generation ∈ upstream.answered
  proving : ∀ {query generation}, upstream.queries query = .proving generation →
    generation ∈ upstream.answered
  builds : start.builds ≤ upstream.builds
  built : ∀ {task generation backoff : Nat},
    upstream.tasks[task]? = some (.built (.ok generation) backoff) → start.builds < generation
  installed : ∀ {generation probationEnd},
    upstream.state = .connected generation (some probationEnd) → start.builds < generation

theorem probation_initial {start : ReconnectingUpstream} (initial : Initial start) :
    Probation start start := by
  refine ⟨fun _ proven => .inl proven, ?_, ?_, Nat.le_refl _, ?_, ?_⟩ <;>
    cases initial <;> simp [ReconnectingUpstream.new]

theorem startup_generation {start : ReconnectingUpstream} (initial : Initial start)
    {generation : Nat} (connected : start.state = .connected generation none) :
    generation = start.builds := by
  cases initial with
  | connected now =>
      simp only [ReconnectingUpstream.new, ConnState.connected.injEq] at connected ⊢
      exact connected.1.symm
  | down now error => simp [ReconnectingUpstream.new] at connected

section Steps

variable {start before after : ReconnectingUpstream}

/-- A query's phase survives the update of another query, and of its own to a
phase that claims no answer. -/
theorem update_plain {phase phase' : QueryPhase} {query other : Nat}
    (updated : Function.update before.queries query phase other = phase')
    (different : phase ≠ phase') : before.queries other = phase' := by
  by_cases same : other = query
  · subst same
    rw [Function.update_self] at updated
    exact absurd updated different
  · rwa [Function.update_of_ne same] at updated

theorem Probation.queryMove (inv : Probation start before) {event : Event}
    (moved : QueryMove before event after) : Probation start after := by
  cases moved with
  | tick => exact ⟨inv.proven, inv.succeeding, inv.proving, inv.builds, inv.built, inv.installed⟩
  | @answered query attempt generation waiting =>
      refine ⟨?_, ?_, ?_, inv.builds, inv.built, inv.installed⟩
      · intro proven state
        exact (inv.proven proven state).imp_right (List.mem_cons_of_mem _)
      · intro other answered phase
        by_cases same : answered = generation
        · subst same
          exact List.mem_cons_self
        · exact List.mem_cons_of_mem _ (inv.succeeding (update_plain phase (by simp [Ne.symm same])))
      · intro other answered phase
        exact List.mem_cons_of_mem _ (inv.proving (update_plain phase nofun))
  | @resetBackoff query generation waiting =>
      refine ⟨inv.proven, ?_, ?_, inv.builds, inv.built, inv.installed⟩
      · intro other answered phase
        exact inv.succeeding (update_plain phase nofun)
      · intro other answered phase
        by_cases same : answered = generation
        · subst same
          exact inv.succeeding waiting
        · exact inv.proving (update_plain phase (by simp [Ne.symm same]))
  | advance plain =>
      exact ⟨inv.proven, fun phase => inv.succeeding (update_plain phase (plain _).1),
        fun phase => inv.proving (update_plain phase (plain _).2), inv.builds, inv.built,
        inv.installed⟩

/-- A build task that moves on without touching the state: only a phase that
holds a drawn generation has to be checked. -/
theorem Probation.setTask (inv : Probation start before) {task : Nat} {phase : BuildPhase}
    (state : after.state = before.state) (builds : before.builds ≤ after.builds)
    (tasks : after.tasks = before.tasks.set task phase) (queries : after.queries = before.queries)
    (answered : after.answered = before.answered)
    (drawn : ∀ generation backoff, phase = .built (.ok generation) backoff →
      start.builds < generation) : Probation start after := by
  refine ⟨?_, ?_, ?_, Nat.le_trans inv.builds builds, ?_, ?_⟩
  · intro generation proven
    rw [state] at proven
    rw [answered]
    exact inv.proven generation proven
  · intro query generation phase
    rw [queries] at phase
    rw [answered]
    exact inv.succeeding phase
  · intro query generation phase
    rw [queries] at phase
    rw [answered]
    exact inv.proving phase
  · intro other generation backoff found
    rw [tasks] at found
    by_cases same : task = other
    · subst same
      rw [List.getElem?_set_self (by
        have bound := (List.getElem?_eq_some_iff.mp found).1
        simpa using bound)] at found
      exact drawn generation backoff (Option.some.inj found)
    · rw [List.getElem?_set_ne same] at found
      exact inv.built found
  · intro generation probationEnd installed
    rw [state] at installed
    exact inv.installed installed

theorem Probation.down (inv : Probation start before) (retryAt : Instant) (lastError : String) :
    Probation start { before with state := .down retryAt lastError } :=
  ⟨nofun, inv.succeeding, inv.proving, inv.builds, inv.built, nofun⟩

theorem Probation.conclude (inv : Probation start before) (task : Nat) :
    Probation start (before.conclude task) := by
  simp only [ReconnectingUpstream.conclude]
  split
  · exact (inv.down _ _).setTask rfl (Nat.le_refl _) rfl rfl rfl nofun
  · exact inv.setTask rfl (Nat.le_refl _) rfl rfl rfl nofun

theorem Probation.advance {start before : ReconnectingUpstream} {query : Nat} {phase : QueryPhase}
    (inv : Probation start before)
    (plain : ∀ generation, phase ≠ .succeeding generation ∧ phase ≠ .proving generation) :
    Probation start (before.setQuery query phase) := by
  have moved : QueryMove before (.begin query) (before.setQuery query phase) := .advance plain
  exact inv.queryMove moved

end Steps

theorem probation_step {start before after : ReconnectingUpstream} {event : Event}
    (inv : Probation start before) (stepped : step before event = some after)
    (own : ProvesOwnConnection before event after) : Probation start after := by
  cases step_move stepped with
  | query moved _ => exact inv.queryMove moved
  | spawn phase down due plain =>
      have started : Probation start before.triggerRepair := by
        simp only [ReconnectingUpstream.triggerRepair, down, if_pos due]
        refine ⟨by intro _ proven; simp at proven, inv.succeeding, inv.proving, inv.builds, ?_,
          by simp⟩
        intro task generation backoff found
        by_cases older : task < before.tasks.length
        · rw [List.getElem?_append_left older] at found
          exact inv.built found
        · rw [List.getElem?_append_right (Nat.le_of_not_lt older)] at found
          simp [List.getElem?_singleton] at found
      exact started.advance plain
  | @prove query generation waiting =>
      have proved : Probation start before.recordSuccess := by
        simp only [ReconnectingUpstream.recordSuccess]
        split
        · rename_i installed probation current
          refine ⟨?_, inv.succeeding, inv.proving, inv.builds, inv.built, by simp⟩
          intro other state
          cases state
          cases probation with
          | none => exact inv.proven installed current
          | some probationEnd =>
              rcases own query generation installed probationEnd rfl waiting current with same | earlier
              · subst same
                exact .inr (inv.proving waiting)
              · exact .inr earlier
        · exact inv
      exact proved.advance fun _ => ⟨by simp, by simp⟩
  | invalidate retry waiting current =>
      exact (inv.down _ _).advance fun _ => ⟨by simp, by simp⟩
  | @finishBuild task result found =>
      cases result with
      | ok value =>
          refine inv.setTask rfl (Nat.le_succ _) rfl rfl rfl ?_
          intro generation backoff drawn
          cases drawn
          exact Nat.lt_succ_of_le inv.builds
      | error err => exact inv.setTask rfl (Nat.le_refl _) rfl rfl rfl (by simp)
  | @install task result backoff found =>
      cases result with
      | ok generation =>
          have connected : Probation start
              { before with
                state := .connected generation (some (before.now + min backoff MAX_PROBATION))
                owner := some task } := by
            refine ⟨by intro _ proven; simp at proven, inv.succeeding, inv.proving, inv.builds,
              inv.built, ?_⟩
            intro installed probationEnd state
            cases state
            exact inv.built found
          exact connected.setTask rfl (Nat.le_refl _) rfl rfl rfl (by simp)
      | error err => exact (inv.down _ _).setTask rfl (Nat.le_refl _) rfl rfl rfl (by simp)
  | storeBackoff found => exact inv.setTask rfl (Nat.le_refl _) rfl rfl rfl (by simp)
  | notify found => exact inv.setTask rfl (Nat.le_refl _) rfl rfl rfl (by simp)
  | drop found => exact inv.conclude _
  | conclude found => exact inv.conclude _

/-- A late answer that clears the probation of a connection nobody answered on
leaves that connection proven by a stranger. -/
theorem unproven_of_late_answer {start before after : ReconnectingUpstream} {event : Event}
    (initial : Initial start) (inv : Probation start before)
    (stepped : step before event = some after) (proven : ProvenByOwnAnswer start after) :
    ProvesOwnConnection before event after := by
  intro query generation installed probationEnd same waiting current
  subst same
  have cleared : after.state = .connected installed none ∧ after.answered = before.answered := by
    simp only [step, waiting, Option.some.injEq] at stepped
    subst stepped
    simp [ReconnectingUpstream.recordSuccess, current]
  rcases proven installed cleared.1 with startup | answered
  · have young := inv.installed current
    rw [startup_generation initial startup] at young
    exact absurd young (Nat.lt_irrefl _)
  · rw [cleared.2] at answered
    exact .inr answered

/-- Only its own answer proves a connection: in every state of a run, exactly when
every `record_success` that finds a connection in probation serves an answer on
that connection, or on one that was answered before. -/
theorem proven_by_own_answer_iff {start : ReconnectingUpstream} (initial : Initial start)
    (events : List Event) :
    Visits step (ProvenByOwnAnswer start) start events ↔
      Along step ProvesOwnConnection start events := by
  constructor
  · suffices every : ∀ before, Probation start before →
        Visits step (ProvenByOwnAnswer start) before events →
        Along step ProvesOwnConnection before events from
      every start (probation_initial initial)
    induction events with
    | nil => exact fun _ _ _ => trivial
    | cons event rest ih =>
        intro before inv visited next stepped
        have later := visits_tail visited stepped
        have own := unproven_of_late_answer initial inv stepped (visits_start later)
        exact ⟨own, ih next (probation_step inv stepped own) later⟩
  · intro own
    exact visits_mono (fun _ reached => reached.proven)
      (visits_of_along (fun _ _ _ => probation_step) (probation_initial initial) own)

/-- Two queries are out on the start-up connection.  One fails, the connection is
rebuilt; then the other's answer arrives late and proves the replacement. -/
def lateAnswer : List Event :=
  [.begin 0, .subscribe 0, .inspect 0, .begin 1, .subscribe 1, .inspect 1,
   .fatal 0 "goaway", .invalidate 0, .trigger 0,
   .finishBuild 0 (.ok ()), .install 0, .storeBackoff 0, .conclude 0, .notify 0,
   .answer 1 true, .resetBackoff 1, .prove 1]

theorem late_answer_proves_replacement :
    ∃ final, run step (.new (.connected 1 none) 0) lateAnswer = some final ∧
      final.state = .connected 2 none ∧ final.answered = [1] ∧
      ¬ ProvenByOwnAnswer (.new (.connected 1 none) 0) final := by
  have ran : ∃ final, run step (.new (.connected 1 none) 0) lateAnswer = some final ∧
      final.state = .connected 2 none ∧ final.answered = [1] := ⟨_, rfl, rfl, rfl⟩
  obtain ⟨final, reached, state, answered⟩ := ran
  refine ⟨final, reached, state, answered, ?_⟩
  intro proven
  rcases proven 2 state with startup | own
  · cases startup
  · rw [answered] at own
    exact absurd own (by decide)

/-- The same start, but the replacement is proven by an answer of its own. -/
def ownAnswer : List Event :=
  [.begin 0, .subscribe 0, .inspect 0, .trigger 0, .finishBuild 0 (.ok ()), .install 0,
   .storeBackoff 0, .conclude 0, .notify 0, .wake 0, .subscribe 0, .inspect 0,
   .answer 0 true, .resetBackoff 0, .prove 0]

theorem own_answer_proves :
    Visits step (ProvenByOwnAnswer (.new (.down 0 "refused") 0)) (.new (.down 0 "refused") 0)
      ownAnswer := by
  refine (proven_by_own_answer_iff (.down 0 "refused") ownAnswer).mpr ?_
  have other : ∀ before after event, (∀ query, event ≠ .prove query) →
      ProvesOwnConnection before event after :=
    fun _ _ _ different query _ _ _ same => absurd same (different query)
  refine along_cons rfl (other _ _ _ nofun) (along_cons rfl (other _ _ _ nofun)
    (along_cons rfl (other _ _ _ nofun) (along_cons rfl (other _ _ _ nofun)
    (along_cons rfl (other _ _ _ nofun) (along_cons rfl (other _ _ _ nofun)
    (along_cons rfl (other _ _ _ nofun) (along_cons rfl (other _ _ _ nofun)
    (along_cons rfl (other _ _ _ nofun) (along_cons rfl (other _ _ _ nofun)
    (along_cons rfl (other _ _ _ nofun) (along_cons rfl (other _ _ _ nofun)
    (along_cons rfl (other _ _ _ nofun) (along_cons rfl (other _ _ _ nofun)
    (along_cons rfl ?_ trivial))))))))))))))
  intro query generation installed probationEnd same waiting current
  cases same
  cases waiting
  cases current
  exact .inl rfl

end Sumidero.Upstream
