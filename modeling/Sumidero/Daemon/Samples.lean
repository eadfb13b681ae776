import Sumidero.Daemon.Report
import Sumidero.Db.Audit

namespace Sumidero.Daemon

open Data

/-! The two rows the daemon publishes beside the query log.  The signal loop samples the counters,
the refresher writes a report after every load; each write may fail, and each report may be an
older snapshot. -/

/-- What `status` reads of the pool's health. -/
structure PoolHealth where
  resolved : Nat
  allFailedTotal : Nat
  consecutiveAllFailed : Nat
deriving Repr, DecidableEq

structure Heartbeat where
  pid : Nat
  startedTs : Int
  updatedTs : Int
  configHash : Str
  listsHash : Str
deriving Repr, DecidableEq

/-- The statistics row, each JSON column as what it holds, `none` for `{}`. -/
structure DaemonStats where
  updatedTs : Int
  logEventsDropped : UInt64
  logEventsDroppedRecent : UInt64
  upstreams : Option PoolHealth
  runtime : Option RuntimeReport
deriving Repr, DecidableEq

structure Published where
  heartbeat : Option Heartbeat
  stats : Option DaemonStats
deriving Repr, DecidableEq

namespace Published

variable (rows : Published)

def writeHeartbeat (heartbeat : Heartbeat) : Published := { rows with heartbeat := some heartbeat }

def writeDaemonStats (stats : DaemonStats) : Published := { rows with stats := some stats }

/-- A row that is there keeps its counters. -/
def writeRuntime (updatedTs : Int) (runtime : RuntimeReport) : Published :=
  match rows.stats with
  | some row => { rows with stats := some { row with updatedTs, runtime := some runtime } }
  | none =>
      { rows with
        stats := some {
          updatedTs
          logEventsDropped := 0
          logEventsDroppedRecent := 0
          upstreams := none
          runtime := some runtime } }

/-- The report shown, the default one for a row without it. -/
def runtime : RuntimeReport :=
  (rows.stats.bind DaemonStats.runtime).getD {
    listsLoadedTs := 0
    lists := []
    listsHash := []
    appliedConfigHash := []
    lastReload := none
    pendingRestart := []
    nextRefreshTs := 0 }

def consecutiveAllFailed : Nat :=
  ((rows.stats.bind DaemonStats.upstreams).map PoolHealth.consecutiveAllFailed).getD 0

def droppedRecent : Nat :=
  (rows.stats.map fun row => row.logEventsDroppedRecent.toNat).getD 0

end Published

/-! ### Samples of the drop counter -/

/-- `publish_stats` and the log it samples; `sampled` is `dropped_at_last_sample`. -/
structure Monitor where
  log : Db.State
  sampled : UInt64
  health : PoolHealth
  rows : Published
  /-- History: what became of the events logged, and how many there were. -/
  ledger : Db.Ledger
  calls : Nat
  /-- History: the samples, newest first, and the newest one that was written. -/
  samples : List DaemonStats
  written : Option DaemonStats
  /-- History: the newest report that was written. -/
  reported : Option RuntimeReport

namespace Monitor

/-- `u64::saturating_sub`. -/
def saturatingSub (total less : UInt64) : UInt64 := if less ≤ total then total - less else 0

/-- The statistics `publish_stats` is about to write. -/
def takeSample (monitor : Monitor) (now : Int) (report : RuntimeReport) : DaemonStats where
  updatedTs := now
  logEventsDropped := monitor.log.drops
  logEventsDroppedRecent := saturatingSub monitor.log.drops monitor.sampled
  upstreams := some monitor.health
  runtime := some report

inductive Event where
  | log (event : Db.Event)
  | upstreams (health : PoolHealth)
  | beat (heartbeat : Heartbeat) (written : Bool)
  | sample (now : Int) (report : RuntimeReport) (written : Bool)
  | report (now : Int) (report : RuntimeReport) (written : Bool)

def isCall : Db.Event → Bool
  | .log _ _ => true
  | _ => false

def step (capacity : Nat) (monitor : Monitor) : Event → Option Monitor
  | .log event =>
      (Db.step capacity monitor.log event).map fun log =>
        { monitor with
          log
          ledger := monitor.ledger.note monitor.log event
          calls := if isCall event then monitor.calls + 1 else monitor.calls }
  | .upstreams health => some { monitor with health }
  | .beat heartbeat written =>
      some { monitor with
        rows := if written then monitor.rows.writeHeartbeat heartbeat else monitor.rows }
  | .sample now report written =>
      let stats := monitor.takeSample now report
      some { monitor with
        sampled := monitor.log.drops
        samples := stats :: monitor.samples
        rows := if written then monitor.rows.writeDaemonStats stats else monitor.rows
        written := if written then some stats else monitor.written
        reported := if written then some report else monitor.reported }
  | .report now report written =>
      some { monitor with
        rows := if written then monitor.rows.writeRuntime now report else monitor.rows
        reported := if written then some report else monitor.reported }

/-- A daemon that starts beside the rows of an earlier one. -/
def opened (found : Db.Tables) (health : PoolHealth) (rows : Published) : Monitor where
  log := Db.opened found
  sampled := 0
  health
  rows
  ledger := Db.Ledger.opened
  calls := 0
  samples := []
  written := none
  reported := rows.stats.bind DaemonStats.runtime

end Monitor

/-- The drops a list of samples reports one by one. -/
def recents (samples : List DaemonStats) : Nat :=
  (samples.map fun stats => stats.logEventsDroppedRecent.toNat).sum

/-- Every sample's total is what it and those before it report one by one. -/
def Telescopes : List DaemonStats → Prop
  | [] => True
  | stats :: older => stats.logEventsDropped.toNat = recents (stats :: older) ∧ Telescopes older

/-- The calls of `log`, as long as the counter has not gone round. -/
structure Tallied (found : Db.Tables) (monitor : Monitor) : Prop where
  recorded : Db.Recorded found monitor.ledger monitor.log
  calls : monitor.calls =
    monitor.ledger.accepted.length + monitor.ledger.refused + monitor.log.counting
  sampled : monitor.ledger.refused < 2 ^ 64 →
    monitor.sampled.toNat = recents monitor.samples ∧
      monitor.sampled.toNat ≤ monitor.ledger.refused ∧ Telescopes monitor.samples

/-- The rows, against what was written last. -/
structure Shown (monitor : Monitor) : Prop where
  counters : ∀ stats, monitor.written = some stats → ∃ row, monitor.rows.stats = some row ∧
    row.logEventsDropped = stats.logEventsDropped ∧
    row.logEventsDroppedRecent = stats.logEventsDroppedRecent ∧ row.upstreams = stats.upstreams
  report : monitor.rows.stats.bind DaemonStats.runtime = monitor.reported
  sample : ∀ stats, monitor.written = some stats →
    stats ∈ monitor.samples ∧ ∃ report, monitor.reported = some report

section Steps

variable {capacity : Nat} {found : Db.Tables} {before after : Monitor} {event : Monitor.Event}

theorem drops_toNat {ledger : Db.Ledger} {log : Db.State} (recorded : Db.Recorded found ledger log)
    (few : ledger.refused < 2 ^ 64) : log.drops.toNat = ledger.refused := by
  rw [recorded.drops, UInt64.toNat_ofNat']
  exact Nat.mod_eq_of_lt few

/-- A call is accepted, or goes on to the counter; counting ends one. -/
theorem calls_step {ledger : Db.Ledger} {log next : Db.State} {event : Db.Event} {calls : Nat}
    (stepped : Db.step capacity log event = some next)
    (counted : calls = ledger.accepted.length + ledger.refused + log.counting) :
    (if Monitor.isCall event then calls + 1 else calls) =
      (ledger.note log event).accepted.length + (ledger.note log event).refused +
        next.counting := by
  cases Db.step_move stepped with
  | accept event room =>
      simp only [Monitor.isCall, Db.Ledger.note, Db.State.enqueue, List.length_append,
        List.length_singleton, if_true]
      omega
  | refuse event =>
      simp only [Monitor.isCall, Db.Ledger.note, if_true]
      omega
  | count pending =>
      simp only [Monitor.isCall, Db.Ledger.note, Bool.false_eq_true, if_false]
      omega
  | _ => exact counted

theorem refused_note (ledger : Db.Ledger) (log : Db.State) (event : Db.Event) :
    ledger.refused ≤ (ledger.note log event).refused := by
  cases event with
  | log event room => cases room <;> exact Nat.le_refl _
  | count => exact Nat.le_succ _
  | flush room => cases room <;> exact Nat.le_refl _
  | begin ok => cases ok <;> exact Nat.le_refl _
  | insert ok => cases ok <;> exact Nat.le_refl _
  | _ => exact Nat.le_refl _

theorem saturatingSub_toNat {total less : UInt64} (fits : less.toNat ≤ total.toNat) :
    (Monitor.saturatingSub total less).toNat = total.toNat - less.toNat := by
  have below : less ≤ total := UInt64.le_iff_toNat_le.mpr fits
  rw [Monitor.saturatingSub, if_pos below, UInt64.toNat_sub_of_le _ _ below]

theorem tallied_step (tallied : Tallied found before)
    (stepped : Monitor.step capacity before event = some after) : Tallied found after := by
  cases event with
  | log event =>
      obtain ⟨next, moved, rfl⟩ := Option.map_eq_some_iff.mp stepped
      refine ⟨Db.recorded_step tallied.recorded moved, calls_step moved tallied.calls, ?_⟩
      intro few
      have grown := refused_note before.ledger before.log event
      obtain ⟨sum, behind, telescopes⟩ := tallied.sampled (Nat.lt_of_le_of_lt grown few)
      exact ⟨sum, Nat.le_trans behind grown, telescopes⟩
  | sample now report written =>
      cases stepped
      refine ⟨tallied.recorded, tallied.calls, ?_⟩
      intro few
      obtain ⟨sum, behind, telescopes⟩ := tallied.sampled few
      have drops := drops_toNat tallied.recorded few
      have total : before.log.drops.toNat =
          recents (before.takeSample now report :: before.samples) := by
        have recent := @saturatingSub_toNat before.log.drops before.sampled (by omega)
        simp only [recents, List.map_cons, List.sum_cons, Monitor.takeSample]
        rw [recent]
        simp only [recents] at sum
        omega
      exact ⟨total, Nat.le_of_eq drops, total, telescopes⟩
  | upstreams health =>
      cases stepped
      exact ⟨tallied.recorded, tallied.calls, tallied.sampled⟩
  | beat heartbeat written =>
      cases stepped
      exact ⟨tallied.recorded, tallied.calls, tallied.sampled⟩
  | report now report written =>
      cases stepped
      exact ⟨tallied.recorded, tallied.calls, tallied.sampled⟩

theorem shown_step (shown : Shown before)
    (stepped : Monitor.step capacity before event = some after) : Shown after := by
  cases event with
  | log event =>
      obtain ⟨next, _, rfl⟩ := Option.map_eq_some_iff.mp stepped
      exact ⟨shown.counters, shown.report, shown.sample⟩
  | upstreams health =>
      cases stepped
      exact ⟨shown.counters, shown.report, shown.sample⟩
  | beat heartbeat written =>
      cases written <;> cases stepped <;> exact ⟨shown.counters, shown.report, shown.sample⟩
  | sample now report written =>
      cases written with
      | false =>
          cases stepped
          refine ⟨shown.counters, shown.report, ?_⟩
          intro stats same
          obtain ⟨member, reported⟩ := shown.sample stats same
          exact ⟨List.mem_cons_of_mem _ member, reported⟩
      | true =>
          cases stepped
          refine ⟨?_, rfl, ?_⟩
          · intro stats same
            cases same
            exact ⟨_, rfl, rfl, rfl, rfl⟩
          · intro stats same
            cases same
            exact ⟨List.mem_cons_self, report, rfl⟩
  | report now report written =>
      cases written with
      | false =>
          cases stepped
          exact ⟨shown.counters, shown.report, shown.sample⟩
      | true =>
          cases stepped
          refine ⟨?_, ?_, fun stats same => ⟨(shown.sample stats same).1, report, rfl⟩⟩
          · intro stats same
            obtain ⟨row, present, counters⟩ := shown.counters stats same
            simp only [if_true, Published.writeRuntime, present]
            exact ⟨_, rfl, counters⟩
          · simp only [if_true, Published.writeRuntime]
            cases before.rows.stats <;> rfl

theorem tallied_run {health : PoolHealth} {rows : Published} {events : List Monitor.Event}
    {final : Monitor}
    (ran : run (Monitor.step capacity) (Monitor.opened found health rows) events = some final) :
    Tallied found final ∧ Shown final := by
  have initial : Tallied found (Monitor.opened found health rows) ∧
      Shown (Monitor.opened found health rows) :=
    ⟨⟨Db.recorded_opened, rfl, fun _ => ⟨rfl, Nat.le_refl _, trivial⟩⟩, ⟨nofun, rfl, nofun⟩⟩
  exact invariant_of_run
    (fun before event after held stepped =>
      And.intro (tallied_step held.1 stepped) (shown_step held.2 stepped)) initial ran

end Steps

end Sumidero.Daemon
