import Sumidero.Data.Shelving
import Sumidero.Db.Audit
import Sumidero.Db.Reading

namespace Sumidero.Db

open Data Text

/-! The hourly sweep of both tables, next to the writer thread and to readers. -/

/-- Query-log retention: rows older than this are deleted hourly. -/
def LOG_RETENTION_SECS : Int := 7 * 24 * 3600

/-- `retention_sweep` between its two statements, or not running. -/
inductive Sweeper where
  | idle
  | halfway (cutoff : Int) (deleted : Nat)
deriving Repr, DecidableEq

structure Log where
  state : State
  sweeper : Sweeper
  /-- What the sweeps that succeeded returned, oldest first. -/
  returned : List Nat
deriving Repr, DecidableEq

inductive Activity where
  | writer (event : Event)
  /-- The first `DELETE` of a sweep at this time, done or failed. -/
  | sweepQueries (now : Int) (ok : Bool)
  /-- The second one. -/
  | sweepDivergences (ok : Bool)
deriving Repr, DecidableEq

/-- The writer's transaction holds the write lock.  It takes the lock with its first insertion,
and sees what was deleted before that: a sweep between the two is one before the transaction. -/
def Writer.writing : Writer → Bool
  | .inserting _ _ _ => true
  | _ => false

namespace Log

def keepQueries (log : Log) (cutoff : Int) : Log :=
  { log with state := { log.state with tables := { log.state.tables with
      queries := log.state.tables.queries.filter fun row => cutoff ≤ row.ts } } }

def keepDivergences (log : Log) (cutoff : Int) : Log :=
  { log with state := { log.state with tables := { log.state.tables with
      divergences := log.state.tables.divergences.filter fun row => cutoff ≤ row.ts } } }

def step (capacity : Nat) (log : Log) : Activity → Option Log
  | .writer event => (Db.step capacity log.state event).map fun state => { log with state }
  | .sweepQueries now ok =>
      match log.sweeper with
      | .idle =>
          let cutoff := now - LOG_RETENTION_SECS
          if ok then
            if log.state.writer.writing then none
            else
              let deleted := log.state.tables.queries.countP fun row => row.ts < cutoff
              some { log.keepQueries cutoff with sweeper := .halfway cutoff deleted }
          else some log
      | .halfway _ _ => none
  | .sweepDivergences ok =>
      match log.sweeper with
      | .idle => none
      | .halfway cutoff deleted =>
          if ok then
            if log.state.writer.writing then none
            else
              let more := log.state.tables.divergences.countP fun row => row.ts < cutoff
              some { log.keepDivergences cutoff with
                sweeper := .idle, returned := log.returned ++ [deleted + more] }
          else some { log with sweeper := .idle }

/-- A database just opened, with the rows that were in it. -/
def opened (found : Tables) : Log where
  state := Db.opened found
  sweeper := .idle
  returned := []

end Log

/-! ### What was committed and swept -/

/-- The events that this step of the writer commits. -/
def Ledger.committing (ledger : Ledger) : Event → List LogEvent
  | .commit true => ledger.inHand
  | _ => []

structure Shelves where
  ledger : Ledger
  queries : Shelving QueryRow
  divergences : Shelving DivergenceRow
  /-- Rows that sweeps deleted before they failed. -/
  unreturned : Nat

namespace Shelves

def opened (found : Tables) : Shelves where
  ledger := Ledger.opened
  queries := Shelving.stocked found.queries
  divergences := Shelving.stocked found.divergences
  unreturned := 0

def commit (shelves : Shelves) (events : List LogEvent) : Shelves :=
  { shelves with
    queries := shelves.queries.add (events.filterMap LogEvent.queryRow)
    divergences := shelves.divergences.add (events.filterMap LogEvent.divergenceRow) }

def note (shelves : Shelves) (before : Log) : Activity → Shelves
  | .writer event =>
      { shelves.commit (shelves.ledger.committing event) with
        ledger := shelves.ledger.note before.state event }
  | .sweepQueries now true =>
      { shelves with queries := shelves.queries.sweep (now - LOG_RETENTION_SECS) }
  | .sweepQueries _ false => shelves
  | .sweepDivergences ok =>
      match before.sweeper with
      | .idle => shelves
      | .halfway cutoff deleted =>
          if ok then { shelves with divergences := shelves.divergences.sweep cutoff }
          else { shelves with unreturned := shelves.unreturned + deleted }

end Shelves

/-! ### One step of the writer -/

section Writer

variable {capacity : Nat} {ledger : Ledger} {before after : State} {event : Event}

/-- The writer's books as if the log had been opened with the tables as they are. -/
def Ledger.resumed (ledger : Ledger) (state : State) : Ledger where
  accepted := ledger.inHand ++ eventsOf state.queue
  refused := state.drops.toNat
  inHand := ledger.inHand
  batches := []
  flushed := []

theorem recorded_resumed (hand : InHand before.tables ledger.inHand before.writer) :
    Recorded before.tables (ledger.resumed before) before := by
  refine ⟨rfl, rfl, hand, ?_⟩
  simp only [Ledger.resumed, UInt64.ofNat_toNat]

theorem committed_note :
    (ledger.note before event).committed = ledger.committed ++ ledger.committing event := by
  cases event with
  | commit ok =>
      cases ok with
      | true => exact Ledger.committed_settle_true
      | false => exact Ledger.committed_settle_false.trans (List.append_nil _).symm
  | begin ok =>
      cases ok with
      | true => exact (List.append_nil _).symm
      | false => exact Ledger.committed_settle_false.trans (List.append_nil _).symm
  | insert ok =>
      cases ok with
      | true => exact (List.append_nil _).symm
      | false => exact Ledger.committed_settle_false.trans (List.append_nil _).symm
  | log _ room => cases room <;> exact (List.append_nil _).symm
  | flush room => cases room <;> exact (List.append_nil _).symm
  | _ => exact (List.append_nil _).symm

theorem inHand_note_resumed :
    ((ledger.resumed before).note before event).inHand = (ledger.note before event).inHand := by
  cases event with
  | log _ room => cases room <;> rfl
  | flush room => cases room <;> rfl
  | begin ok => cases ok <;> rfl
  | insert ok => cases ok <;> rfl
  | _ => rfl

/-- The tables grow by what the step commits, and the writer has of the batch what it should. -/
theorem writer_step (hand : InHand before.tables ledger.inHand before.writer)
    (stepped : step capacity before event = some after) :
    after.tables = before.tables.insertAll (ledger.committing event) ∧
      InHand after.tables (ledger.note before event).inHand after.writer := by
  have next := recorded_step (recorded_resumed hand) stepped
  have rows := next.rows
  have held := next.hand
  have none : (ledger.resumed before).committed = [] := rfl
  have same : (ledger.resumed before).committing event = ledger.committing event := by
    cases event with
    | commit ok => cases ok <;> rfl
    | _ => rfl
  rw [committed_note, none, List.nil_append, same] at rows
  rw [inHand_note_resumed] at held
  exact ⟨rows, held⟩

/-- Where the events of the log may be: committed, in hand, or queued. -/
def Ledger.held (ledger : Ledger) (state : State) : List LogEvent :=
  ledger.committed ++ ledger.inHand ++ eventsOf state.queue

/-- Every event held was held before, or is the one accepted. -/
theorem held_step (hand : InHand before.tables ledger.inHand before.writer)
    (stepped : step capacity before event = some after) {held : LogEvent}
    (member : held ∈ (ledger.note before event).held after) :
    held ∈ ledger.held before ∨ event = .log held true := by
  have next := recorded_step (recorded_resumed hand) stepped
  have order := next.order
  rw [inHand_note_resumed] at order
  have accepted : held ∈ ((ledger.resumed before).note before event).accepted →
      held ∈ ledger.inHand ++ eventsOf before.queue ∨ event = .log held true := by
    intro among
    cases event with
    | log logged room =>
        cases room with
        | true =>
            rcases List.mem_append.mp among with known | new
            · exact .inl known
            · exact .inr (by rw [List.mem_singleton.mp new])
        | false => exact .inl among
    | flush room => cases room <;> exact .inl among
    | begin ok => cases ok <;> exact .inl among
    | insert ok => cases ok <;> exact .inl among
    | _ => exact .inl among
  simp only [Ledger.held, committed_note, List.mem_append] at member accepted ⊢
  rw [order] at accepted
  simp only [List.mem_append] at accepted
  have committing : held ∈ ledger.committing event → held ∈ ledger.inHand := by
    intro among
    cases event with
    | commit ok =>
        cases ok with
        | true => exact among
        | false => cases among
    | _ => cases among
  tauto

end Writer

/-! ### Every run -/

/-- What the sweep counted so far. -/
def Sweeper.deleted : Sweeper → Nat
  | .idle => 0
  | .halfway _ deleted => deleted

/-- The tables against what was committed and swept. -/
structure Retained (found : Tables) (shelves : Shelves) (log : Log) : Prop where
  queries : log.state.tables.queries = shelves.queries.kept QueryRow.ts
  divergences : log.state.tables.divergences = shelves.divergences.kept DivergenceRow.ts
  everyQuery : shelves.queries.all =
    found.queries ++ shelves.ledger.committed.filterMap LogEvent.queryRow
  everyDivergence : shelves.divergences.all =
    found.divergences ++ shelves.ledger.committed.filterMap LogEvent.divergenceRow
  hand : InHand log.state.tables shelves.ledger.inHand log.state.writer
  counted : shelves.queries.all.length + shelves.divergences.all.length =
    log.state.tables.queries.length + log.state.tables.divergences.length +
      (log.returned.sum + log.sweeper.deleted + shelves.unreturned)

section Retained

variable {capacity : Nat} {found : Tables} {shelves : Shelves} {before after : Log}
  {activity : Activity}

theorem retained_opened : Retained found (Shelves.opened found) (Log.opened found) where
  queries := (Shelving.kept_stocked _).symm
  divergences := (Shelving.kept_stocked _).symm
  everyQuery := by
    rw [Shelves.opened, Shelving.all_stocked]
    exact (List.append_nil _).symm
  everyDivergence := by
    rw [Shelves.opened, Shelving.all_stocked]
    exact (List.append_nil _).symm
  hand := rfl
  counted := by
    simp only [Shelves.opened, Shelving.all_stocked, Log.opened, Db.opened]
    rfl

theorem Retained.commit (retained : Retained found shelves before) {event : Event} {state : State}
    (stepped : Db.step capacity before.state event = some state) :
    Retained found (shelves.note before (.writer event)) { before with state } := by
  obtain ⟨tables, hand⟩ := writer_step retained.hand stepped
  rw [Tables.insertAll_eq] at tables
  refine ⟨?_, ?_, ?_, ?_, hand, ?_⟩
  · rw [tables, retained.queries]
    exact (Shelving.kept_add _).symm
  · rw [tables, retained.divergences]
    exact (Shelving.kept_add _).symm
  · simp only [Shelves.note, Shelves.commit, Shelving.all_add, committed_note,
      List.filterMap_append, retained.everyQuery, List.append_assoc]
  · simp only [Shelves.note, Shelves.commit, Shelving.all_add, committed_note,
      List.filterMap_append, retained.everyDivergence, List.append_assoc]
  · have counted := retained.counted
    simp only [Shelves.note, Shelves.commit, Shelving.all_add, tables, List.length_append]
    omega

/-- What the writer has is not concerned by a sweep while it does not write. -/
theorem InHand.swept {tables other : Tables} {inHand : List LogEvent} {writer : Writer}
    (hand : InHand tables inHand writer) (free : writer.writing = false) :
    InHand other inHand writer := by
  cases writer with
  | receiving => exact hand
  | batching batch => exact hand
  | inserting rest tx acks => cases free
  | acking acks => exact hand

theorem kept_and_deleted {α : Type} (ts : α → Int) (cutoff : Int) (rows : List α) :
    rows.length = (rows.filter fun row => cutoff ≤ ts row).length +
      rows.countP fun row => ts row < cutoff := by
  induction rows with
  | nil => rfl
  | cons row rest ih =>
      rw [List.filter_cons, List.countP_cons, List.length_cons, ih]
      by_cases old : ts row < cutoff
      · have gone : ¬ cutoff ≤ ts row := by omega
        simp only [old, gone, decide_true, decide_false, if_true, Bool.false_eq_true, if_false]
        omega
      · have stays : cutoff ≤ ts row := by omega
        simp only [old, stays, decide_true, decide_false, if_true, Bool.false_eq_true, if_false,
          List.length_cons]
        omega

theorem retained_step (retained : Retained found shelves before)
    (stepped : before.step capacity activity = some after) :
    Retained found (shelves.note before activity) after := by
  have counted := retained.counted
  cases activity with
  | writer event =>
      obtain ⟨state, wrote, rfl⟩ := Option.map_eq_some_iff.mp stepped
      exact retained.commit wrote
  | sweepQueries now ok =>
      simp only [Log.step] at stepped
      split at stepped
      · next idle =>
        cases ok with
        | false =>
            cases stepped
            exact retained
        | true =>
            simp only [if_true] at stepped
            split at stepped
            · cases stepped
            · next free =>
              cases stepped
              rw [idle] at counted
              have parts := kept_and_deleted QueryRow.ts (now - LOG_RETENTION_SECS)
                before.state.tables.queries
              refine ⟨?_, retained.divergences, retained.everyQuery, retained.everyDivergence,
                retained.hand.swept (Bool.eq_false_iff.mpr free), ?_⟩
              · simp only [Log.keepQueries, Shelves.note, Shelving.kept_sweep, retained.queries]
              · simp only [Log.keepQueries, Shelves.note, Shelving.all_sweep, Sweeper.deleted] at *
                omega
      · cases stepped
  | sweepDivergences ok =>
      simp only [Log.step] at stepped
      split at stepped
      · cases stepped
      · next cutoff deleted halfway =>
        simp only [Shelves.note, halfway]
        rw [halfway] at counted
        cases ok with
        | false =>
            cases stepped
            refine ⟨retained.queries, retained.divergences, retained.everyQuery,
              retained.everyDivergence, retained.hand, ?_⟩
            simp only [Sweeper.deleted, Bool.false_eq_true, if_false] at *
            omega
        | true =>
            simp only [if_true] at stepped
            split at stepped
            · cases stepped
            · next free =>
              cases stepped
              have parts := kept_and_deleted DivergenceRow.ts cutoff
                before.state.tables.divergences
              refine ⟨retained.queries, ?_, retained.everyQuery, retained.everyDivergence,
                retained.hand.swept (Bool.eq_false_iff.mpr free), ?_⟩
              · simp only [Log.keepDivergences, if_true, Shelving.kept_sweep, retained.divergences]
              · simp only [Log.keepDivergences, if_true, Shelving.all_sweep, Sweeper.deleted,
                  List.sum_append, List.sum_singleton] at *
                omega

end Retained

/-! ### The window no sweep reaches -/

/-- No sweep, done or half done, had a later cutoff. -/
structure Reached (since : Int) (shelves : Shelves) (log : Log) : Prop where
  queries : ∀ cutoff ∈ shelves.queries.cutoffs, cutoff ≤ since
  divergences : ∀ cutoff ∈ shelves.divergences.cutoffs, cutoff ≤ since
  halfway : ∀ cutoff deleted, log.sweeper = .halfway cutoff deleted → cutoff ≤ since

/-- The sweeps of the run that begin do so at most the retention period after `since`. -/
def Spares (since : Int) (activities : List Activity) : Prop :=
  ∀ now, .sweepQueries now true ∈ activities → now - LOG_RETENTION_SECS ≤ since

theorem reached_step {capacity : Nat} {since : Int} {shelves : Shelves} {before after : Log}
    {activity : Activity} (reached : Reached since shelves before)
    (stepped : before.step capacity activity = some after)
    (admitted : Spares since [activity]) : Reached since (shelves.note before activity) after := by
  cases activity with
  | writer event =>
      obtain ⟨state, _, rfl⟩ := Option.map_eq_some_iff.mp stepped
      exact ⟨reached.queries, reached.divergences, reached.halfway⟩
  | sweepQueries now ok =>
      simp only [Log.step] at stepped
      split at stepped
      · cases ok with
        | false =>
            cases stepped
            exact reached
        | true =>
            simp only [if_true] at stepped
            split at stepped
            · cases stepped
            · cases stepped
              have early := admitted now List.mem_cons_self
              refine ⟨?_, reached.divergences, ?_⟩
              · intro cutoff member
                rcases List.mem_append.mp member with old | new
                · exact reached.queries cutoff old
                · rw [List.mem_singleton.mp new]
                  exact early
              · rintro cutoff deleted ⟨⟩
                exact early
      · cases stepped
  | sweepDivergences ok =>
      simp only [Log.step] at stepped
      split at stepped
      · cases stepped
      · next cutoff deleted halfway =>
        have early := reached.halfway cutoff deleted halfway
        simp only [Shelves.note, halfway]
        cases ok with
        | false =>
            cases stepped
            exact ⟨reached.queries, reached.divergences, fun _ _ idle => nomatch idle⟩
        | true =>
            simp only [if_true] at stepped
            split at stepped
            · cases stepped
            · cases stepped
              refine ⟨reached.queries, ?_, fun _ _ idle => nomatch idle⟩
              intro other member
              rcases List.mem_append.mp member with old | new
              · exact reached.divergences other old
              · rw [List.mem_singleton.mp new]
                exact early

section Runs

variable {capacity : Nat} {found : Tables} {activities : List Activity} {final : Log}

/-- The books of a run. -/
def shelvesOf (capacity : Nat) (found : Tables) (activities : List Activity) : Shelves :=
  history (Log.step capacity) Shelves.note (Shelves.opened found) (Log.opened found) activities

theorem retained_run (ran : run (Log.step capacity) (Log.opened found) activities = some final) :
    Retained found (shelvesOf capacity found activities) final :=
  invariant_of_history (fun _ _ _ _ => retained_step) retained_opened ran

theorem reached_run {since : Int} (spares : Spares since activities)
    (ran : run (Log.step capacity) (Log.opened found) activities = some final) :
    Reached since (shelvesOf capacity found activities) final := by
  have initial : Reached since (Shelves.opened found) (Log.opened found) :=
    ⟨fun _ none => (nomatch none), fun _ none => (nomatch none), fun _ _ idle => nomatch idle⟩
  have admitted : Along (Log.step capacity) (fun _ activity _ => Spares since [activity])
      (Log.opened found) activities := by
    apply along_of_forall
    intro activity member _ _ now this
    exact spares now (List.mem_singleton.mp this ▸ member)
  exact invariant_of_admitted_history (fun _ _ _ _ => reached_step) initial admitted ran

/-- Through every interleaving of the writer with sweeps that succeed, fail, or fail half-way,
each table has the committed rows that no sweep after their commit was to delete; a row older
than the cutoff of a sweep was committed after that sweep; the rows returned as deleted are
gone; and what is younger than every cutoff is there, all of it and in order. -/
theorem retention_exact (capacity : Nat) (found : Tables) (activities : List Activity)
    (ran : run (Log.step capacity) (Log.opened found) activities = some final) :
    Retained found (shelvesOf capacity found activities) final ∧
      (∀ row ∈ final.state.tables.queries, ∀ place cutoff,
        (shelvesOf capacity found activities).queries.cutoffs[place]? = some cutoff →
          row.ts < cutoff →
            ∃ added, (row, added) ∈ (shelvesOf capacity found activities).queries.items ∧
              place < added) ∧
      ∀ since, Spares since activities →
        final.state.tables.queries.filter (fun row => since ≤ row.ts) =
          (found.queries ++ (shelvesOf capacity found activities).ledger.committed.filterMap
            LogEvent.queryRow).filter (fun row => since ≤ row.ts) ∧
        final.state.tables.divergences.filter (fun row => since ≤ row.ts) =
          (found.divergences ++ (shelvesOf capacity found activities).ledger.committed.filterMap
            LogEvent.divergenceRow).filter (fun row => since ≤ row.ts) := by
  have retained := retained_run ran
  refine ⟨retained, ?_, ?_⟩
  · intro row member place cutoff swept old
    rw [retained.queries] at member
    exact Shelving.added_after member swept old
  · intro since spares
    have reached := reached_run spares ran
    rw [retained.queries, retained.divergences, ← retained.everyQuery, ← retained.everyDivergence]
    exact ⟨Shelving.kept_window reached.queries, Shelving.kept_window reached.divergences⟩

/-- A query answered at time 1000. -/
def sampleRecord : QueryRecord where
  ts := 1000
  client := .V4 [192, 168, 0, 7]
  qname := "ads.test".toList
  qtype := 1
  verdict := .Blocked
  rule := some "||ads.test^".toList
  list := some 0
  source := .Synth
  rcode := 0
  durationUs := 80

/-- The database as `sampleRecord` left it. -/
def sampleFound : Tables where
  queries := [sampleRecord.row]
  divergences := []

/-- A divergence at time 5000 is committed; a sweep two seconds past the period of the old
record takes that record and nothing else. -/
def sweptRun : List Activity :=
  [.writer (.log (sampleDivergence "a.test") true), .writer .recv, .writer (.begin true),
   .writer (.insert true), .writer (.commit true), .writer .ack,
   .sweepQueries (LOG_RETENTION_SECS + 1002) true, .sweepDivergences true]

theorem swept_run_spares : Spares 1002 sweptRun := by
  intro now among
  simp only [sweptRun, List.mem_cons, reduceCtorEq, Activity.sweepQueries.injEq, and_true,
    List.not_mem_nil, or_false, false_or] at among
  omega

theorem retention_exact_swept :
    ∃ final, run (Log.step 2) (Log.opened sampleFound) sweptRun = some final ∧
      final.state.tables.queries = [] ∧ final.returned = [1] ∧
      Retained sampleFound (shelvesOf 2 sampleFound sweptRun) final ∧
      final.state.tables.divergences.filter (fun row => 1002 ≤ row.ts) =
        (sampleFound.divergences ++
          (shelvesOf 2 sampleFound sweptRun).ledger.committed.filterMap
            LogEvent.divergenceRow).filter (fun row => 1002 ≤ row.ts) := by
  have ran : ∃ final, run (Log.step 2) (Log.opened sampleFound) sweptRun = some final ∧
      final.state.tables.queries = [] ∧ final.returned = [1] := ⟨_, rfl, rfl, rfl⟩
  obtain ⟨final, reached, rows, returned⟩ := ran
  obtain ⟨retained, _, window⟩ := retention_exact 2 sampleFound sweptRun reached
  exact ⟨final, reached, rows, returned, retained, (window 1002 swept_run_spares).2⟩

end Runs

/-! ### Reading during a run -/

namespace LogEvent

def queryRecord : LogEvent → Option QueryRecord
  | Query record => some record
  | Divergence _ => none

def divergence : LogEvent → Option Db.Divergence
  | Query _ => none
  | Divergence each => some each

end LogEvent

theorem filterMap_queryRow (events : List LogEvent) :
    events.filterMap LogEvent.queryRow = (events.filterMap LogEvent.queryRecord).map
      QueryRecord.row := by
  rw [List.map_filterMap]
  congr 1
  funext event
  cases event <;> rfl

theorem filterMap_divergenceRow (events : List LogEvent) :
    events.filterMap LogEvent.divergenceRow = (events.filterMap LogEvent.divergence).map
      Divergence.row := by
  rw [List.map_filterMap]
  congr 1
  funext event
  cases event <;> rfl

/-- What is kept of a list of records, whose rows are in a table: some of them, and all of
them since a time. -/
structure Window {α β : Type} (row : α → β) (ts : α → Int) (rows : List β) (every kept : List α)
    (since : Int → Prop) : Prop where
  rows : rows = kept.map row
  sublist : kept.Sublist every
  complete : ∀ time, since time →
    kept.filter (fun each => time ≤ ts each) = every.filter fun each => time ≤ ts each

theorem window_of_rows {α β : Type} {row : α → β} {ts : α → Int} {tsRow : β → Int}
    (same : ∀ each, tsRow (row each) = ts each) {rows : List β} {every : List α}
    (sublist : rows.Sublist (every.map row)) {since : Int → Prop}
    (complete : ∀ time, since time → rows.filter (fun each => time ≤ tsRow each) =
      (every.map row).filter fun each => time ≤ tsRow each) :
    ∃ kept, Window row ts rows every kept since := by
  obtain ⟨kept, inside, rfl⟩ := List.sublist_map_iff.mp sublist
  refine ⟨kept, rfl, inside, ?_⟩
  intro time late
  apply (inside.filter _).eq_of_length
  have lengths := congrArg List.length (complete time late)
  simp only [List.filter_map, List.length_map, Function.comp_def, same] at lengths
  exact lengths

/-- The addresses of the clients whose records the log was given are addresses. -/
def Addressed (activity : Activity) : Prop :=
  ∀ record, activity = .writer (.log (.Query record) true) → record.client.WellFormed

section Reads

variable {capacity : Nat} {found : Tables} {activities : List Activity} {final : Log}
  {records : List QueryRecord} {divergences : List Divergence}

theorem addressed_step {shelves : Shelves} {before after : Log} {activity : Activity}
    (retained : Retained found shelves before)
    (formed : ∀ record, .Query record ∈ shelves.ledger.held before.state →
      record.client.WellFormed)
    (stepped : before.step capacity activity = some after) (addressed : Addressed activity) :
    ∀ record, .Query record ∈ (shelves.note before activity).ledger.held after.state →
      record.client.WellFormed := by
  intro record member
  cases activity with
  | writer event =>
      obtain ⟨state, wrote, rfl⟩ := Option.map_eq_some_iff.mp stepped
      rcases held_step retained.hand wrote member with known | rfl
      · exact formed record known
      · exact addressed record rfl
  | sweepQueries now ok =>
      apply formed record
      simp only [Log.step] at stepped
      split at stepped
      · cases ok with
        | false =>
            cases stepped
            exact member
        | true =>
            simp only [if_true] at stepped
            split at stepped
            · cases stepped
            · cases stepped
              exact member
      · cases stepped
  | sweepDivergences ok =>
      apply formed record
      simp only [Log.step] at stepped
      split at stepped
      · cases stepped
      · next cutoff deleted halfway =>
        simp only [Shelves.note, halfway] at member
        cases ok with
        | false =>
            cases stepped
            exact member
        | true =>
            simp only [if_true] at stepped member
            split at stepped
            · cases stepped
            · cases stepped
              exact member

theorem addressed_run (addressed : ∀ activity ∈ activities, Addressed activity)
    (ran : run (Log.step capacity) (Log.opened found) activities = some final)
    {record : QueryRecord}
    (committed : .Query record ∈ (shelvesOf capacity found activities).ledger.committed) :
    record.client.WellFormed := by
  have preserved : ∀ (shelves : Shelves) (before : Log) (activity : Activity) (after : Log),
      (Retained found shelves before ∧ ∀ record,
        .Query record ∈ shelves.ledger.held before.state → record.client.WellFormed) →
      before.step capacity activity = some after → Addressed activity →
      Retained found (shelves.note before activity) after ∧ ∀ record,
        .Query record ∈ (shelves.note before activity).ledger.held after.state →
          record.client.WellFormed := by
    intro shelves before activity after held stepped admitted
    obtain ⟨retained, formed⟩ := held
    exact ⟨retained_step retained stepped, addressed_step retained formed stepped admitted⟩
  have initial : Retained found (Shelves.opened found) (Log.opened found) ∧ ∀ record,
      .Query record ∈ (Shelves.opened found).ledger.held (Log.opened found).state →
        record.client.WellFormed :=
    ⟨retained_opened, fun _ none => nomatch none⟩
  have admitted : Along (Log.step capacity) (fun _ activity _ => Addressed activity)
      (Log.opened found) activities :=
    along_of_forall (fun activity member _ _ => addressed activity member) _
  have held := (invariant_of_admitted_history preserved initial admitted ran).2
  apply held record
  simp only [Ledger.held, List.mem_append]
  exact .inl (.inl committed)

/-- The records behind the rows of `queries`, at any point of a run. -/
theorem queries_window (rows : found.queries = records.map QueryRecord.row)
    (ran : run (Log.step capacity) (Log.opened found) activities = some final) :
    ∃ kept, Window QueryRecord.row QueryRecord.ts final.state.tables.queries
      (records ++ (shelvesOf capacity found activities).ledger.committed.filterMap
        LogEvent.queryRecord) kept (Spares · activities) := by
  have retained := retained_run ran
  have every := retained.everyQuery
  rw [rows, filterMap_queryRow, ← List.map_append] at every
  have same : ∀ record : QueryRecord, QueryRow.ts record.row = record.ts := fun _ => rfl
  apply window_of_rows same
  · rw [retained.queries, ← every]
    exact Shelving.kept_sublist
  · intro time spares
    rw [retained.queries, ← every]
    exact Shelving.kept_window (reached_run spares ran).queries

theorem divergences_window (rows : found.divergences = divergences.map Divergence.row)
    (ran : run (Log.step capacity) (Log.opened found) activities = some final) :
    ∃ kept, Window Divergence.row Divergence.ts final.state.tables.divergences
      (divergences ++ (shelvesOf capacity found activities).ledger.committed.filterMap
        LogEvent.divergence) kept (Spares · activities) := by
  have retained := retained_run ran
  have every := retained.everyDivergence
  rw [rows, filterMap_divergenceRow, ← List.map_append] at every
  have same : ∀ each : Divergence, DivergenceRow.ts each.row = each.ts := fun _ => rfl
  apply window_of_rows same
  · rw [retained.divergences, ← every]
    exact Shelving.kept_sublist
  · intro time spares
    rw [retained.divergences, ← every]
    exact Shelving.kept_window (reached_run spares ran).divergences

end Reads

end Sumidero.Db
