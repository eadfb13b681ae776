import Sumidero.Daemon.ReloadAck

namespace Sumidero.Daemon

open Sumidero.Data

/-! Whether a failed reload stays visible.  `last_reload` is written by the signal loop and
by the refresher, for every trigger; the last writer wins. -/

variable {Policy : Type} {configHash : Config → Str}

/-- What the most recent SIGHUP read did not parse or did not load. -/
def LatestFailed (state : State Policy) : Prop :=
  ∃ latest, state.received = latest + 1 ∧ latest ∈ state.failed

/-- While it stands, the report gives a reason, whatever the counters and the clock say. -/
def FailureVisible (state : State Policy) : Prop :=
  LatestFailed state → ∀ failed dropped now,
    degradedReasons state.shared.report failed dropped now ≠ []

/-- A load of another config succeeds with nothing of its own to report: every list fetched
and fresh, and no setting that waits for a restart. -/
def Masks (before : State Policy) (event : Event Policy) (_ : State Policy) : Prop :=
  LatestFailed before ∧ ∃ loadedTs ts durationMs job loaded,
    event = .record loadedTs ts durationMs ∧ before.refresher = .recording job (.ok loaded) ∧
      loaded.reports.all ListReport.sound = true ∧
      restartOnlyChanges before.startedWith job.config = []

/-- Failed SIGHUPs were received, and so were those still without an outcome. -/
structure Numbered (state : State Policy) : Prop where
  unsettled : ∀ {read}, state.Unsettled read → read < state.received
  failed : ∀ {read}, read ∈ state.failed → read < state.received

section Steps

variable {before after : State Policy} {event : Event Policy}

theorem failed_step (stepped : step configHash before event = some after) {read : Nat}
    (failed : read ∈ after.failed) : read ∈ before.failed ∨ before.Unsettled read := by
  cases step_transition stepped with
  | refuse err ts reading =>
      rcases List.mem_cons.mp failed with same | earlier
      · subst same
        exact .inr (.inl reading)
      · exact .inl earlier
  | @record job result loadedTs ts durationMs recording =>
      have running : before.refresher.job? = some job := by rw [recording]; rfl
      cases result with
      | ok loaded => exact .inl failed
      | error err =>
          cases number : job.read with
          | none =>
              simp only [State.record, number] at failed
              exact .inl failed
          | some own =>
              simp only [State.record, number] at failed
              rcases List.mem_cons.mp failed with same | earlier
              · subst same
                exact .inr (.inr (.inr ⟨job, running, number⟩))
              · exact .inl earlier
  | _ => exact .inl failed

theorem numbered_step (inv : Numbered before)
    (stepped : step configHash before event = some after) : Numbered after := by
  have received := (histories_grow stepped).1
  constructor
  · intro read unsettled
    rcases unsettled_step stepped unsettled with earlier | ⟨rfl, more⟩
    · exact Nat.lt_of_lt_of_le (inv.unsettled earlier) received
    · omega
  · intro read failed
    rcases failed_step stepped failed with earlier | unsettled
    · exact Nat.lt_of_lt_of_le (inv.failed earlier) received
    · exact Nat.lt_of_lt_of_le (inv.unsettled unsettled) received

/-- A step leaves the report's verdict and the history of failures alone, makes the report
unhealthy, or records a successful load. -/
theorem report_step (stepped : step configHash before event = some after) :
    (after.shared.report.healthy = before.shared.report.healthy ∧
      after.failed = before.failed) ∨
    after.shared.report.healthy = false ∨
    ∃ loadedTs ts durationMs job loaded, event = .record loadedTs ts durationMs ∧
      before.refresher = .recording job (.ok loaded) ∧ after.failed = before.failed ∧
      after.received = before.received ∧
      after.shared.report.healthy = (loaded.reports.all ListReport.sound &&
        (restartOnlyChanges before.startedWith job.config).isEmpty) := by
  cases step_transition stepped with
  | refuse => exact .inr (.inl (unhealthy_of_failed rfl rfl))
  | @record job result loadedTs ts durationMs recording =>
      cases result with
      | ok loaded =>
          refine .inr (.inr ⟨loadedTs, ts, durationMs, job, loaded, rfl, recording, rfl, rfl, ?_⟩)
          simp [State.record, recordReport, RuntimeReport.healthy, outcome]
      | error err => exact .inr (.inl (unhealthy_of_failed rfl rfl))
  | _ => exact .inl ⟨rfl, rfl⟩

/-- If no step fails it, the latest SIGHUP had failed before. -/
theorem latestFailed_step (inv : Numbered before)
    (stepped : step configHash before event = some after)
    (same : after.failed = before.failed) (latest : LatestFailed after) : LatestFailed before := by
  obtain ⟨own, received, failed⟩ := latest
  rw [same] at failed
  refine ⟨own, ?_, failed⟩
  have bound := inv.failed failed
  have grown := (histories_grow stepped).1
  omega

theorem visible_step (inv : Numbered before) (visible : FailureVisible before)
    (stepped : step configHash before event = some after) (shown : ¬ Masks before event after) :
    FailureVisible after := by
  intro latest
  rw [degraded_iff]
  rcases report_step stepped with ⟨healthy, failed⟩ | sick |
    ⟨loadedTs, ts, durationMs, job, loaded, same, recording, failed, _, healthy⟩
  · have before_latest := latestFailed_step inv stepped failed latest
    rw [healthy, ← degraded_iff]
    exact visible before_latest
  · exact sick
  · have before_latest := latestFailed_step inv stepped failed latest
    rw [healthy]
    by_contra masked
    have both : loaded.reports.all ListReport.sound = true ∧
        (restartOnlyChanges before.startedWith job.config).isEmpty = true := by
      simpa using masked
    exact shown ⟨before_latest, loadedTs, ts, durationMs, job, loaded, same, recording, both.1,
      List.isEmpty_iff.mp both.2⟩

theorem not_visible_of_masks (stepped : step configHash before event = some after)
    (masks : Masks before event after) : ¬ FailureVisible after := by
  obtain ⟨⟨own, received, failed⟩, loadedTs, ts, durationMs, job, loaded, rfl, recording, sound,
    settled⟩ := masks
  simp only [step, recording] at stepped
  cases stepped
  intro visible
  have sick := (degraded_iff _).mp (visible ⟨own, received, failed⟩)
  simp [State.record, recordReport, RuntimeReport.healthy, outcome, sound, settled] at sick

end Steps

theorem numbered_initial {start : State Policy} (initial : Initial start) : Numbered start := by
  constructor
  · intro read unsettled
    rcases unsettled with reading | ⟨config, queued⟩ | ⟨job, running, _⟩
    · rw [initial.loop] at reading
      cases reading
    · rw [initial.reloads] at queued
      cases queued
    · rw [initial.refresher] at running
      cases running
  · intro read failed
    rw [initial.failed] at failed
    cases failed

theorem visible_initial {start : State Policy} (initial : Initial start) :
    FailureVisible start := by
  intro latest
  obtain ⟨own, received, _⟩ := latest
  rw [initial.received] at received
  cases received

/-- A refused config, and a day later a timer refresh that fails as well. -/
def refusedAndStuck : List (Event Unit) :=
  [.sighup, .receiveSighup, .readConfig (.error "bad") 1, .loopSnapshot, .loopWrite true,
   .tick 86400, .timerFires, .loaded (.error "no list"), .record 86400 86400 0]

/-- A refused config, and a day later a timer refresh of the old one that succeeds. -/
def refusedThenRefreshed : List (Event Unit) :=
  [.sighup, .receiveSighup, .readConfig (.error "bad") 1, .loopSnapshot, .loopWrite true,
   .tick 86400, .timerFires, .loaded (.ok ((), { hash := [], reports := [] })), .install,
   .record 86400 86400 0]

end Sumidero.Daemon
