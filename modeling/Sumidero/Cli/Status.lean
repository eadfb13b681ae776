import Sumidero.Daemon.Samples

namespace Sumidero.Cli

open Daemon

/-- A heartbeat older than this is that of a daemon that no longer runs. -/
def HEARTBEAT_FRESH_SECS : Int := 150

structure Status where
  running : Bool
  degradedReasons : List Degraded
  heartbeatAgeSecs : Option Int
  exitCode : Nat
deriving Repr, DecidableEq

/-- `run`, once both rows have been read. -/
def status (rows : Published) (now : Int) : Status :=
  match rows.heartbeat with
  | some heartbeat =>
      let age := now - heartbeat.updatedTs
      let running := decide (age ≤ HEARTBEAT_FRESH_SECS)
      let reasons :=
        if running then
          Daemon.degradedReasons rows.runtime rows.consecutiveAllFailed rows.droppedRecent now
        else []
      { running
        degradedReasons := reasons
        heartbeatAgeSecs := some age
        exitCode := match running, !reasons.isEmpty with
          | true, false => 0
          | true, true => 7
          | false, _ => 5 }
  | none =>
      { running := false
        degradedReasons := []
        heartbeatAgeSecs := none
        exitCode := 5 }

/-! ### What the exit code says -/

/-- A heartbeat of the last 150 seconds. -/
def Fresh (rows : Published) (now : Int) : Prop :=
  ∃ heartbeat, rows.heartbeat = some heartbeat ∧ now - heartbeat.updatedTs ≤ HEARTBEAT_FRESH_SECS

/-- The counters give no reason, and the report gives none of its own. -/
theorem degradedReasons_nil (report : RuntimeReport) (failed dropped : Nat) (now : Int) :
    Daemon.degradedReasons report failed dropped now = [] ↔
      failed = 0 ∧ dropped = 0 ∧ Daemon.degradedReasons report 0 0 now = [] := by
  simp only [Daemon.degradedReasons, List.append_eq_nil_iff]
  constructor
  · intro quiet
    obtain ⟨⟨⟨⟨resolves, logs⟩, lists⟩, reloaded⟩, settled⟩ := quiet
    refine ⟨?_, ?_, ⟨⟨⟨by simp, by simp⟩, lists⟩, reloaded⟩, settled⟩
    · by_contra positive
      simp [Nat.pos_of_ne_zero positive] at resolves
    · by_contra positive
      simp [Nat.pos_of_ne_zero positive] at logs
  · intro quiet
    obtain ⟨rfl, rfl, own⟩ := quiet
    exact own

theorem fresh_iff {rows : Published} {heartbeat : Heartbeat}
    (present : rows.heartbeat = some heartbeat) (now : Int) :
    Fresh rows now ↔ now - heartbeat.updatedTs ≤ HEARTBEAT_FRESH_SECS := by
  constructor
  · intro fresh
    obtain ⟨other, same, recent⟩ := fresh
    rw [present] at same
    cases same
    exact recent
  · intro recent
    exact ⟨heartbeat, present, recent⟩

/-- No heartbeat, an old one, or a fresh one with or without a reason. -/
theorem status_exitCode (rows : Published) (now : Int) :
    (¬ Fresh rows now ∧ (status rows now).exitCode = 5) ∨
      Fresh rows now ∧ (status rows now).exitCode =
        if Daemon.degradedReasons rows.runtime rows.consecutiveAllFailed rows.droppedRecent now = []
        then 0 else 7 := by
  cases present : rows.heartbeat with
  | none =>
      left
      refine ⟨?_, by simp only [status, present]⟩
      intro fresh
      obtain ⟨heartbeat, same, _⟩ := fresh
      rw [present] at same
      cases same
  | some heartbeat =>
      rw [fresh_iff present]
      simp only [status, present]
      by_cases fresh : now - heartbeat.updatedTs ≤ HEARTBEAT_FRESH_SECS
      · right
        rw [decide_eq_true fresh, if_pos rfl]
        refine ⟨fresh, ?_⟩
        cases Daemon.degradedReasons rows.runtime rows.consecutiveAllFailed rows.droppedRecent
          now <;> rfl
      · left
        rw [decide_eq_false fresh]
        exact ⟨fresh, rfl⟩

theorem status_zero (rows : Published) (now : Int) :
    (status rows now).exitCode = 0 ↔ Fresh rows now ∧ rows.consecutiveAllFailed = 0 ∧
      rows.droppedRecent = 0 ∧ Daemon.degradedReasons rows.runtime 0 0 now = [] := by
  rw [← degradedReasons_nil]
  rcases status_exitCode rows now with ⟨old, code⟩ | ⟨fresh, code⟩
  · rw [code]
    exact ⟨nofun, fun given => absurd given.1 old⟩
  · rw [code]
    split
    · next quiet => exact ⟨fun _ => ⟨fresh, quiet⟩, fun _ => rfl⟩
    · next reasons => exact ⟨nofun, fun given => absurd given.2 reasons⟩

theorem status_five (rows : Published) (now : Int) :
    (status rows now).exitCode = 5 ↔ ¬ Fresh rows now := by
  rcases status_exitCode rows now with ⟨old, code⟩ | ⟨fresh, code⟩
  · exact ⟨fun _ => old, fun _ => code⟩
  · rw [code]
    split
    · exact ⟨nofun, fun old => absurd fresh old⟩
    · exact ⟨nofun, fun old => absurd fresh old⟩

/-- Through every interleaving of callers of `log`, the writer, the samples and the reports,
written or not: every call is accounted for, an event that was dropped by exactly one sample or
by the next one, and each sample's total is what the samples so far report.  Once a sample was
written, `status` exits with 0 exactly if the heartbeat is fresh, the newest sample written
reports no drop and no failing pool, and the newest report written has nothing wrong in it; it
exits with 5 exactly if the heartbeat is not fresh. -/
theorem status_counts_drops {capacity : Nat} {found : Db.Tables} {health : PoolHealth}
    {rows : Published} {events : List Monitor.Event} {final : Monitor}
    (ran : Data.run (Monitor.step capacity) (Monitor.opened found health rows) events = some final)
    (few : final.ledger.refused < 2 ^ 64) :
    (final.calls = final.ledger.settled.length + final.ledger.inHand.length +
        (Db.eventsOf final.log.queue).length + recents final.samples +
        (final.log.drops.toNat - final.sampled.toNat) + final.log.counting ∧
      Telescopes final.samples) ∧
      ∀ stats, final.written = some stats → stats ∈ final.samples ∧ ∀ now,
        ((status final.rows now).exitCode = 0 ↔ Fresh final.rows now ∧
          stats.logEventsDroppedRecent = 0 ∧
          (∀ health, stats.upstreams = some health → health.consecutiveAllFailed = 0) ∧
          ∀ report, final.reported = some report →
            Daemon.degradedReasons report 0 0 now = []) ∧
        ((status final.rows now).exitCode = 5 ↔ ¬ Fresh final.rows now) := by
  obtain ⟨tallied, shown⟩ := tallied_run ran
  obtain ⟨sum, behind, telescopes⟩ := tallied.sampled few
  refine ⟨⟨?_, telescopes⟩, ?_⟩
  · have drops := drops_toNat tallied.recorded few
    have accepted := congrArg List.length tallied.recorded.order
    rw [List.length_append, List.length_append] at accepted
    have calls := tallied.calls
    omega
  · intro stats newest
    obtain ⟨member, report, reported⟩ := shown.sample stats newest
    refine ⟨member, fun now => ⟨?_, status_five final.rows now⟩⟩
    obtain ⟨row, present, _, recent, upstreams⟩ := shown.counters stats newest
    have shows : final.rows.runtime = report := by
      rw [Published.runtime, shown.report, reported]
      rfl
    have drops : final.rows.droppedRecent = 0 ↔ stats.logEventsDroppedRecent = 0 := by
      rw [Published.droppedRecent, present, Option.map_some, Option.getD_some, recent,
        ← UInt64.toNat_inj]
      rfl
    have pool : final.rows.consecutiveAllFailed = 0 ↔
        ∀ health, stats.upstreams = some health → health.consecutiveAllFailed = 0 := by
      rw [Published.consecutiveAllFailed, present, Option.bind_some, upstreams]
      cases stats.upstreams with
      | none => simp
      | some health => simp
    rw [status_zero, shows, drops, pool, reported]
    constructor
    · intro zero
      obtain ⟨fresh, resolves, quiet, own⟩ := zero
      refine ⟨fresh, quiet, resolves, ?_⟩
      intro other same
      cases same
      exact own
    · intro zero
      obtain ⟨fresh, quiet, resolves, own⟩ := zero
      exact ⟨fresh, resolves, quiet, own report rfl⟩

section Samples

def quietReport : RuntimeReport where
  listsLoadedTs := 900
  lists := []
  listsHash := []
  appliedConfigHash := []
  lastReload := none
  pendingRestart := []
  nextRefreshTs := 0

/-- A queue without room: the event is refused and counted, then two samples are taken. -/
def refusedThenSampled : List Monitor.Event :=
  [.beat { pid := 1, startedTs := 900, updatedTs := 1000, configHash := [], listsHash := [] } true,
    .log (.log (Db.sampleDivergence "a.test") false), .log .count, .sample 1000 quietReport true,
    .sample 1060 quietReport false]

/-- The first sample reports the drop; the second one reports none, but is not written, and
`status` still shows the first. -/
theorem status_counts_drops_refused : ∃ final,
    Data.run (Monitor.step 0)
        (Monitor.opened { queries := [], divergences := [] }
          { resolved := 0, allFailedTotal := 0, consecutiveAllFailed := 0 }
          { heartbeat := none, stats := none }) refusedThenSampled = some final ∧
      recents final.samples = 1 ∧ (status final.rows 1100).exitCode ≠ 0 := by
  have ran : ∃ final, Data.run (Monitor.step 0)
      (Monitor.opened { queries := [], divergences := [] }
        { resolved := 0, allFailedTotal := 0, consecutiveAllFailed := 0 }
        { heartbeat := none, stats := none }) refusedThenSampled = some final ∧
      recents final.samples = 1 ∧ final.ledger.refused = 1 ∧
      final.written.map DaemonStats.logEventsDroppedRecent = some 1 :=
    ⟨_, rfl, rfl, rfl, rfl⟩
  obtain ⟨final, reached, reported, refused, newest⟩ := ran
  obtain ⟨stats, written, recent⟩ := Option.map_eq_some_iff.mp newest
  have few : final.ledger.refused < 2 ^ 64 := by
    rw [refused]
    decide
  refine ⟨final, reached, reported, ?_⟩
  intro zero
  have quiet := (((status_counts_drops reached few).2 stats written).2 1100).1.mp zero
  rw [quiet.2.1] at recent
  cases recent

end Samples

end Sumidero.Cli
