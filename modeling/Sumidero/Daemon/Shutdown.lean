import Sumidero.Db.Flushing
import Sumidero.Server.Admission

namespace Sumidero.Daemon

open Data Dns Server Sumidero.Filter
open Db (LogEvent)

/-! How `run` ends: the sockets are closed, the queries inside are waited for, and the log is
flushed, while connections that are open go on asking. -/

/-- How long shutdown waits for in-flight queries, in milliseconds. -/
def DRAIN : Nat := 2000

/-- The numbers that the DNS library gives to types and to response codes. -/
structure Codes where
  qtype : RecordType → UInt16
  rcode : ResponseCode → UInt16

/-- When a query began, and how long it has taken. -/
structure Stamp where
  ts : Int
  elapsedUs : Nat
deriving Repr, DecidableEq

/-- The record as `finish` enqueues it. -/
def stamped (codes : Codes) (record : QueryRecord) (stamp : Stamp) : Db.QueryRecord where
  ts := stamp.ts
  client := record.client
  qname := record.qname
  qtype := (record.qtype.map codes.qtype).getD 0
  verdict := record.verdict
  rule := record.rule
  list := record.list
  source := record.source
  rcode := codes.rcode record.rcode
  durationUs := UInt32.ofNat (min stamp.elapsedUs (2 ^ 32 - 1))

/-- Where `run` is, from its loop on. -/
inductive Stop where
  | serving
  | closing
  /-- Since the sockets were closed. -/
  | draining (since : Nat)
  | flushing
  | waiting (ack : Db.Ack)
  | stopped
deriving Repr, DecidableEq

structure Process where
  work : Workload
  log : Db.Log
  /-- Queries whose record found the queue full, before they count the drop. -/
  counting : List Nat
  stop : Stop

inductive Happening where
  /-- A query moves without an answer, or a reload installs a policy. -/
  | work (event : Work)
  /-- A query is answered and hands its record to the writer, whose queue has room or not. -/
  | answer (index : Nat) (seen : Pipeline) (now : Instant) (stamp : Stamp) (room : Bool)
  | count (index : Nat)
  /-- A comparison logs its divergence. -/
  | compare (divergence : Db.Divergence) (room : Bool)
  | countCompared
  /-- The writer or a sweep goes on. -/
  | log (activity : Db.Activity)
  | signal
  /-- The socket tasks have ended. -/
  | closed (now : Nat)
  /-- A look at the gauge and the clock. -/
  | look (now : Nat)
  | flush (room : Bool)
  | acked

/-- The loop sweeps, and nothing else does; logging and flushing are events of their own. -/
def Stop.permits (stop : Stop) : Db.Activity → Bool
  | .writer (.log _ _) | .writer .count | .writer (.flush _) => false
  | .writer _ => true
  | .sweepQueries _ _ | .sweepDivergences _ => stop = .serving

/-- The wait for the queries is over. -/
def Stop.drained : Stop → Bool
  | .flushing | .waiting _ | .stopped => true
  | _ => false

variable (proto : Proto) (codes : Codes) (capacity : Nat)

namespace Process

def new (policy : Policy) (found : Db.Tables) : Process where
  work := .new policy
  log := .opened found
  counting := []
  stop := .serving

variable (process : Process)

/-- A query is not counted out before its call of `log` has returned. -/
def holds : Work → Bool
  | .answer _ _ _ => true
  | .leave index => index ∈ process.counting
  | _ => false

/-- `finish`, with what it hands to the writer. -/
def conclude (index : Nat) (seen : Pipeline) (now : Instant) (stamp : Stamp) :
    Option (Workload × Db.QueryRecord) := do
  let work ← process.work.step proto (.answer index seen now)
  let record ← work.log[process.work.log.length]?
  return (work, stamped codes record stamp)

/-- What the step does to the log. -/
def activity : Happening → Option Db.Activity
  | .answer index seen now stamp room =>
      (process.conclude proto codes index seen now stamp).map fun concluded =>
        .writer (.log (.Query concluded.2) room)
  | .count _ | .countCompared => some (.writer .count)
  | .compare divergence room => some (.writer (.log (.Divergence divergence) room))
  | .log activity => some activity
  | .flush room => some (.writer (.flush room))
  | .work _ | .signal | .closed _ | .look _ | .acked => none

/-- And to the rest. -/
def move : Happening → Option Process
  | .work event =>
      if process.holds event then none
      else (process.work.step proto event).map fun work => { process with work }
  | .answer index seen now stamp room =>
      (process.conclude proto codes index seen now stamp).map fun concluded =>
        { process with
          work := concluded.1
          counting := if room then process.counting else index :: process.counting }
  | .count index =>
      if index ∈ process.counting then
        some { process with counting := process.counting.erase index }
      else none
  | .compare _ _ => some process
  | .countCompared =>
      if process.counting.length < process.log.state.counting then some process else none
  | .log activity => if process.stop.permits activity then some process else none
  | .signal =>
      if process.stop = .serving ∧ process.log.sweeper = .idle then
        some { process with stop := .closing }
      else none
  | .closed now =>
      if process.stop = .closing then some { process with stop := .draining now } else none
  | .look now =>
      match process.stop with
      | .draining since =>
          if 0 < process.work.inFlight ∧ now < since + DRAIN then some process
          else some { process with stop := .flushing }
      | _ => none
  | .flush _ =>
      if process.stop = .flushing then
        some { process with stop := .waiting process.log.state.nextAck }
      else none
  | .acked =>
      match process.stop with
      | .waiting ack =>
          if ack ∈ process.log.state.ended then some { process with stop := .stopped } else none
      | _ => none

def logged (happening : Happening) : Option Db.Log :=
  match process.activity proto codes happening with
  | some activity => process.log.step capacity activity
  | none => some process.log

def step (happening : Happening) : Option Process := do
  let moved ← process.move proto codes happening
  let log ← process.logged proto codes capacity happening
  return { moved with log }

end Process

/-! ### The books of a run -/

structure Account where
  shelves : Db.Shelves
  /-- The records that were handed to the writer, in order. -/
  made : List Db.QueryRecord
  /-- Those that found the queue full. -/
  refused : List Db.QueryRecord

namespace Account

def opened (found : Db.Tables) : Account where
  shelves := .opened found
  made := []
  refused := []

/-- The record that this step hands over. -/
def making (process : Process) : Happening → List Db.QueryRecord
  | .answer index seen now stamp _ =>
      ((process.conclude proto codes index seen now stamp).map Prod.snd).toList
  | _ => []

/-- If the queue has no room for it. -/
def refusing (process : Process) (happening : Happening) : List Db.QueryRecord :=
  match happening with
  | .answer _ _ _ _ true => []
  | _ => making proto codes process happening

def note (account : Account) (before : Process) (happening : Happening) : Account where
  shelves := match before.activity proto codes happening with
    | some activity => account.shelves.note before.log activity
    | none => account.shelves
  made := account.made ++ making proto codes before happening
  refused := account.refused ++ refusing proto codes before happening

end Account

/-! ### Everything a step can do -/

/-- What a step does to the queries. -/
inductive ProcessMove (before after : Process) : Happening → Prop
  | work {event : Work} (free : before.holds event = false)
      (stepped : before.work.step proto event = some after.work)
      (counting : after.counting = before.counting) : ProcessMove before after (.work event)
  | answer {index : Nat} {seen : Pipeline} {now : Instant} {stamp : Stamp} {room : Bool}
      {record : Db.QueryRecord}
      (concluded : before.conclude proto codes index seen now stamp = some (after.work, record))
      (counting : after.counting = if room then before.counting else index :: before.counting) :
      ProcessMove before after (.answer index seen now stamp room)
  | count {index : Nat} (member : index ∈ before.counting) (work : after.work = before.work)
      (counting : after.counting = before.counting.erase index) :
      ProcessMove before after (.count index)
  | other {happening : Happening} (work : after.work = before.work)
      (counting : after.counting = before.counting)
      (making : Account.making proto codes before happening = [])
      (refusing : Account.refusing proto codes before happening = [])
      (accepting : ∀ activity, before.activity proto codes happening = some activity →
        activity.accepting.filterMap LogEvent.queryRecord = []) :
      ProcessMove before after happening

/-- And to where `run` is. -/
inductive StopMove (before : Process) : Happening → Stop → Prop
  | same (happening : Happening) {stop : Stop} (stays : stop = before.stop) :
      StopMove before happening stop
  | early (happening : Happening) {stop : Stop} (undrained : stop.drained = false) :
      StopMove before happening stop
  | look {now since : Nat} (draining : before.stop = .draining since)
      (leaves : before.work.inFlight = 0 ∨ since + DRAIN ≤ now) :
      StopMove before (.look now) .flushing
  | flush (room : Bool) (flushing : before.stop = .flushing) :
      StopMove before (.flush room) (.waiting before.log.state.nextAck)
  | acked {ack : Db.Ack} (waiting : before.stop = .waiting ack)
      (ended : ack ∈ before.log.state.ended) : StopMove before .acked .stopped

section Step

variable {proto codes capacity} {before after : Process} {happening : Happening}
  {account : Account}

/-- A query that is answered leaves its record at the end of the log. -/
theorem answer_logs {index : Nat} {seen : Pipeline} {now : Instant} {work after : Workload}
    (stepped : work.step proto (.answer index seen now) = some after) :
    ∃ handling handled tap, after.handlings[index]? = some handling ∧
      handling.stage = .answered handled tap ∧ after.log = work.log ++ [handled.log] := by
  obtain ⟨handling, found, stepped⟩ := Option.bind_eq_some_iff.mp stepped
  have inside : index < work.handlings.length := (List.getElem?_eq_some_iff.mp found).1
  have placed : ∀ handled tap, (work.conclude index handling handled tap).handlings[index]? =
      some { handling with stage := .answered handled tap } :=
    fun handled tap => List.getElem?_set_self inside
  split at stepped
  · obtain ⟨handled, early, stepped⟩ := Option.bind_eq_some_iff.mp stepped
    cases stepped
    exact ⟨_, handled, none, placed handled none, rfl, rfl⟩
  · cases stepped
    exact ⟨_, _, _, placed _ _, rfl, rfl⟩
  · cases stepped

/-- The others are not touched, and neither is one that is between its answer and its leave. -/
theorem answered_stays {index : Nat} {handling : Handling} {handled : Handled}
    {tap : Option Tap} {work after : Workload} {event : Work}
    (found : work.handlings[index]? = some handling)
    (answered : handling.stage = .answered handled tap)
    (stepped : work.step proto event = some after) (stays : event ≠ .leave index) :
    after.handlings[index]? = some handling := by
  have kept : ∀ {place : Nat} {other moved : Handling} {after : Workload},
      after.handlings = work.handlings.set place moved → work.handlings[place]? = some other →
        other.stage ≠ .answered handled tap → after.handlings[index]? = some handling := by
    intro place other moved after same held apart
    rw [same, List.getElem?_set_ne, found]
    rintro rfl
    cases found.symm.trans held
    exact apart answered
  cases event with
  | call request client =>
      cases stepped
      have inside := (List.getElem?_eq_some_iff.mp found).1
      exact (List.getElem?_append_left inside).trans found
  | enter place =>
      obtain ⟨other, held, stepped⟩ := Option.bind_eq_some_iff.mp stepped
      split at stepped
      · next waiting =>
        cases stepped
        exact kept rfl held (by rw [waiting]; exact nofun)
      · cases stepped
  | load place =>
      obtain ⟨other, held, stepped⟩ := Option.bind_eq_some_iff.mp stepped
      split at stepped
      · next previously entered =>
        split at stepped
        · cases stepped
        · cases stepped
          exact kept rfl held (by rw [entered]; exact nofun)
      · cases stepped
  | answer place seen now =>
      obtain ⟨other, held, stepped⟩ := Option.bind_eq_some_iff.mp stepped
      split at stepped
      · next previously entered =>
        obtain ⟨early, _, stepped⟩ := Option.bind_eq_some_iff.mp stepped
        cases stepped
        exact kept rfl held (by rw [entered]; exact nofun)
      · next previously policy judging =>
        cases stepped
        exact kept rfl held (by rw [judging]; exact nofun)
      · cases stepped
  | leave place =>
      obtain ⟨other, held, stepped⟩ := Option.bind_eq_some_iff.mp stepped
      split at stepped
      · cases stepped
        apply (List.getElem?_set_ne _).trans found
        rintro rfl
        exact stays rfl
      · cases stepped
  | unwind place =>
      obtain ⟨other, held, stepped⟩ := Option.bind_eq_some_iff.mp stepped
      split at stepped
      · next previously entered =>
        cases stepped
        exact kept rfl held (by rw [entered]; exact nofun)
      · next previously policy judging =>
        cases stepped
        exact kept rfl held (by rw [judging]; exact nofun)
      · cases stepped
  | install policy =>
      cases stepped
      exact found

theorem log_kept {work after : Workload} {event : Work}
    (stepped : work.step proto event = some after)
    (quiet : ∀ index seen now, event ≠ .answer index seen now) : after.log = work.log := by
  cases event with
  | call request client =>
      cases stepped
      rfl
  | answer index seen now => exact absurd rfl (quiet index seen now)
  | install policy =>
      cases stepped
      rfl
  | load index =>
      obtain ⟨handling, found, stepped⟩ := Option.bind_eq_some_iff.mp stepped
      split at stepped
      · split at stepped
        · cases stepped
        · cases stepped
          rfl
      · cases stepped
  | enter index | leave index =>
      obtain ⟨handling, found, stepped⟩ := Option.bind_eq_some_iff.mp stepped
      split at stepped
      · cases stepped
        rfl
      · cases stepped
  | unwind index =>
      obtain ⟨handling, found, stepped⟩ := Option.bind_eq_some_iff.mp stepped
      split at stepped
      · cases stepped
        rfl
      · cases stepped
        rfl
      · cases stepped

theorem permits_quiet {stop : Stop} {activity : Db.Activity}
    (permitted : stop.permits activity = true) : activity.accepting = [] := by
  cases activity with
  | writer event =>
      cases event with
      | log _ _ => cases permitted
      | _ => rfl
  | sweepQueries _ _ => rfl
  | sweepDivergences _ => rfl

theorem ProcessMove.idle (work : after.work = before.work)
    (counting : after.counting = before.counting)
    (making : Account.making proto codes before happening = [])
    (refusing : Account.refusing proto codes before happening = [])
    (idle : before.activity proto codes happening = none) :
    ProcessMove proto codes before after happening := by
  apply ProcessMove.other work counting making refusing
  intro activity acts
  cases idle.symm.trans acts

theorem process_move (stepped : before.step proto codes capacity happening = some after) :
    before.logged proto codes capacity happening = some after.log ∧
      ProcessMove proto codes before after happening ∧ StopMove before happening after.stop := by
  obtain ⟨moved, went, stepped⟩ := Option.bind_eq_some_iff.mp stepped
  obtain ⟨log, logged, same⟩ := Option.bind_eq_some_iff.mp stepped
  cases same
  refine ⟨logged, ?_⟩
  cases happening with
  | work event =>
      simp only [Process.move] at went
      split at went
      · cases went
      · next free =>
        obtain ⟨work, ran, rfl⟩ := Option.map_eq_some_iff.mp went
        exact ⟨.work (Bool.eq_false_iff.mpr free) ran rfl, .same _ rfl⟩
  | answer index seen now stamp room =>
      obtain ⟨⟨work, record⟩, concluded, rfl⟩ := Option.map_eq_some_iff.mp went
      exact ⟨.answer concluded rfl, .same _ rfl⟩
  | count index =>
      simp only [Process.move] at went
      split at went
      · next member =>
        cases went
        exact ⟨.count member rfl rfl, .same _ rfl⟩
      · cases went
  | compare divergence room =>
      cases went
      refine ⟨.other rfl rfl rfl rfl ?_, .same _ rfl⟩
      rintro activity ⟨⟩
      cases room <;> rfl
  | countCompared =>
      simp only [Process.move] at went
      split at went
      · cases went
        refine ⟨.other rfl rfl rfl rfl ?_, .same _ rfl⟩
        rintro activity ⟨⟩
        rfl
      · cases went
  | log activity =>
      simp only [Process.move] at went
      split at went
      · next permitted =>
        cases went
        refine ⟨.other rfl rfl rfl rfl ?_, .same _ rfl⟩
        rintro activity ⟨⟩
        rw [permits_quiet permitted]
        rfl
      · cases went
  | signal =>
      simp only [Process.move] at went
      split at went
      · cases went
        exact ⟨.idle rfl rfl rfl rfl rfl, .early _ rfl⟩
      · cases went
  | closed now =>
      simp only [Process.move] at went
      split at went
      · cases went
        exact ⟨.idle rfl rfl rfl rfl rfl, .early _ rfl⟩
      · cases went
  | look now =>
      simp only [Process.move] at went
      split at went
      · next since draining =>
        split at went
        · cases went
          exact ⟨.idle rfl rfl rfl rfl rfl, .same _ rfl⟩
        · next leaves =>
          cases went
          exact ⟨.idle rfl rfl rfl rfl rfl, .look draining (by omega)⟩
      · cases went
  | flush room =>
      simp only [Process.move] at went
      split at went
      · next flushing =>
        cases went
        refine ⟨.other rfl rfl rfl rfl ?_, .flush room flushing⟩
        rintro activity ⟨⟩
        rfl
      · cases went
  | acked =>
      simp only [Process.move] at went
      split at went
      · next ack waiting =>
        split at went
        · next ended =>
          cases went
          exact ⟨.idle rfl rfl rfl rfl rfl, .acked waiting ended⟩
        · cases went
      · cases went

theorem concluded_logs {index : Nat} {seen : Pipeline} {now : Instant} {stamp : Stamp}
    {work : Workload} {record : Db.QueryRecord}
    (concluded : before.conclude proto codes index seen now stamp = some (work, record)) :
    before.work.step proto (.answer index seen now) = some work ∧
      ∃ handling handled tap, work.handlings[index]? = some handling ∧
        handling.stage = .answered handled tap ∧
        work.log = before.work.log ++ [handled.log] ∧ record = stamped codes handled.log stamp := by
  obtain ⟨reached, stepped, concluded⟩ := Option.bind_eq_some_iff.mp concluded
  obtain ⟨logged, last, same⟩ := Option.bind_eq_some_iff.mp concluded
  cases same
  obtain ⟨handling, handled, tap, held, answered, log⟩ := answer_logs stepped
  rw [log, List.getElem?_append_right (Nat.le_refl _), Nat.sub_self] at last
  cases last
  exact ⟨stepped, handling, handled, tap, held, answered, log, rfl⟩

end Step

/-! ### What holds at any moment -/

/-- What the log made of a query's record. -/
def Written (record : QueryRecord) (stored : Db.QueryRecord) : Prop :=
  ∃ stamp, stored = stamped codes record stamp

structure Booked (found : Db.Tables) (account : Account) (process : Process) : Prop where
  sound : process.work.Sound proto
  retained : Db.Retained found account.shelves process.log
  settling : Db.Settling account.shelves.ledger process.log.state
  written : List.Forall₂ (Written codes) process.work.log account.made
  handed : account.made.Perm
    (account.shelves.ledger.accepted.filterMap LogEvent.queryRecord ++ account.refused)
  /-- Who has yet to count a drop is still inside. -/
  pending : ∀ index ∈ process.counting, ∃ handling handled tap,
    process.work.handlings[index]? = some handling ∧ handling.stage = .answered handled tap
  counted : account.refused.length ≤ account.shelves.ledger.refused + process.counting.length

section Invariant

variable {proto codes capacity} {found : Db.Tables} {before after : Process}
  {happening : Happening} {account : Account}

theorem books_step (retained : Db.Retained found account.shelves before.log)
    (settling : Db.Settling account.shelves.ledger before.log.state) {log : Db.Log}
    (logged : before.logged proto codes capacity happening = some log) :
    Db.Retained found (account.note proto codes before happening).shelves log ∧
      Db.Settling (account.note proto codes before happening).shelves.ledger log.state := by
  simp only [Process.logged] at logged
  simp only [Account.note]
  split at logged
  · next activity acts =>
    exact ⟨Db.retained_step retained logged, Db.settling_step settling logged⟩
  · next silent =>
    cases logged
    exact ⟨retained, settling⟩

theorem accepted_step : (account.note proto codes before happening).shelves.ledger.accepted =
    account.shelves.ledger.accepted ++
      ((before.activity proto codes happening).map Db.Activity.accepting).getD [] := by
  simp only [Account.note]
  cases before.activity proto codes happening with
  | none => exact (List.append_nil _).symm
  | some activity => exact Db.accepted_grows

theorem refused_step : account.shelves.ledger.refused ≤
    (account.note proto codes before happening).shelves.ledger.refused := by
  simp only [Account.note]
  cases before.activity proto codes happening with
  | none => exact Nat.le_refl _
  | some activity => exact Db.refused_grows

theorem settled_step : account.shelves.ledger.settled <+:
    (account.note proto codes before happening).shelves.ledger.settled := by
  simp only [Account.note]
  cases before.activity proto codes happening with
  | none => exact List.prefix_refl _
  | some activity => exact Db.settled_grows

theorem sound_step (sound : before.work.Sound proto)
    (moved : ProcessMove proto codes before after happening) : after.work.Sound proto := by
  cases moved with
  | work free stepped counting => exact workload_step sound stepped
  | answer concluded counting => exact workload_step sound (concluded_logs concluded).1
  | count member work counting => exact work ▸ sound
  | other work counting making refusing accepting => exact work ▸ sound

theorem written_step (written : List.Forall₂ (Written codes) before.work.log account.made)
    (moved : ProcessMove proto codes before after happening) :
    List.Forall₂ (Written codes) after.work.log
      (account.note proto codes before happening).made := by
  have kept : after.work.log = before.work.log →
      Account.making proto codes before happening = [] →
      List.Forall₂ (Written codes) after.work.log
        (account.note proto codes before happening).made := by
    intro same none
    simp only [Account.note, same, none, List.append_nil]
    exact written
  cases moved with
  | @work event free stepped counting =>
      refine kept (log_kept stepped ?_) rfl
      rintro index seen now rfl
      cases free
  | answer concluded counting =>
      obtain ⟨_, handling, handled, tap, _, _, log, rfl⟩ := concluded_logs concluded
      simp only [Account.note, Account.making, concluded, Option.map_some, Option.toList_some, log]
      exact List.rel_append written (.cons ⟨_, rfl⟩ .nil)
  | count member work counting => exact kept (congrArg Workload.log work) rfl
  | other work counting making refusing accepting =>
      exact kept (congrArg Workload.log work) making

/-- A record that is handed over is accepted or refused. -/
theorem making_split (moved : ProcessMove proto codes before after happening) :
    Account.making proto codes before happening =
      (((before.activity proto codes happening).map Db.Activity.accepting).getD []).filterMap
          LogEvent.queryRecord ++
        Account.refusing proto codes before happening := by
  cases moved with
  | work free stepped counting => rfl
  | @answer index seen now stamp room record concluded counting =>
      have made : Account.making proto codes before (.answer index seen now stamp room) =
          [record] := by
        simp only [Account.making, concluded, Option.map_some, Option.toList_some]
      simp only [Process.activity, concluded, Option.map_some, Option.getD_some]
      cases room with
      | true => exact made
      | false => rfl
  | count member work counting => rfl
  | other work counting making refusing accepting =>
      rw [making, refusing, List.append_nil]
      cases acts : before.activity proto codes happening with
      | none => rfl
      | some activity => exact (accepting activity acts).symm

theorem handed_step (handed : account.made.Perm
      (account.shelves.ledger.accepted.filterMap LogEvent.queryRecord ++ account.refused))
    (moved : ProcessMove proto codes before after happening) :
    (account.note proto codes before happening).made.Perm
      ((account.note proto codes before happening).shelves.ledger.accepted.filterMap
        LogEvent.queryRecord ++ (account.note proto codes before happening).refused) := by
  rw [accepted_step, List.filterMap_append]
  simp only [Account.note]
  rw [making_split moved]
  refine (handed.append_right _).trans ?_
  rw [List.append_assoc, List.append_assoc]
  apply List.Perm.append_left
  rw [← List.append_assoc, ← List.append_assoc]
  exact List.perm_append_comm.append_right _

theorem pending_step (pending : ∀ index ∈ before.counting, ∃ handling handled tap,
      before.work.handlings[index]? = some handling ∧ handling.stage = .answered handled tap)
    (moved : ProcessMove proto codes before after happening) :
    ∀ index ∈ after.counting, ∃ handling handled tap,
      after.work.handlings[index]? = some handling ∧ handling.stage = .answered handled tap := by
  intro index member
  cases moved with
  | work free stepped counting =>
      rw [counting] at member
      obtain ⟨handling, handled, tap, found, answered⟩ := pending index member
      refine ⟨handling, handled, tap, answered_stays found answered stepped ?_, answered⟩
      rintro rfl
      simp only [Process.holds, decide_eq_false_iff_not] at free
      exact free member
  | @answer place seen now stamp room record concluded counting =>
      obtain ⟨stepped, handling, handled, tap, found, answered, _⟩ := concluded_logs concluded
      have earlier : index ∈ before.counting → ∃ handling handled tap,
          after.work.handlings[index]? = some handling ∧
            handling.stage = .answered handled tap := by
        intro known
        obtain ⟨other, had, told, held, was⟩ := pending index known
        exact ⟨other, had, told, answered_stays held was stepped nofun, was⟩
      rw [counting] at member
      split at member
      · exact earlier member
      · rcases List.mem_cons.mp member with rfl | known
        · exact ⟨handling, handled, tap, found, answered⟩
        · exact earlier known
  | count gone work counting =>
      rw [counting] at member
      rw [work]
      exact pending index (List.mem_of_mem_erase member)
  | other work counting making refusing accepting =>
      rw [counting] at member
      rw [work]
      exact pending index member

theorem counted_step
    (counted : account.refused.length ≤ account.shelves.ledger.refused + before.counting.length)
    (moved : ProcessMove proto codes before after happening) :
    (account.note proto codes before happening).refused.length ≤
      (account.note proto codes before happening).shelves.ledger.refused +
        after.counting.length := by
  have grown := @refused_step proto codes before happening account
  have refused : (account.note proto codes before happening).refused.length =
      account.refused.length + (Account.refusing proto codes before happening).length :=
    List.length_append
  cases moved with
  | @work event free stepped counting =>
      have none : (Account.refusing proto codes before (.work event)).length = 0 := rfl
      rw [counting]
      omega
  | @answer index seen now stamp room record concluded counting =>
      rw [counting]
      cases room with
      | true =>
          have none : (Account.refusing proto codes before
              (.answer index seen now stamp true)).length = 0 := rfl
          simp only [if_true]
          omega
      | false =>
          have one : (Account.refusing proto codes before
              (.answer index seen now stamp false)).length = 1 := by
            simp only [Account.refusing, Account.making, concluded, Option.map_some,
              Option.toList_some, List.length_singleton]
          simp only [Bool.false_eq_true, if_false, List.length_cons]
          omega
  | @count index member work counting =>
      have one : (account.note proto codes before (.count index)).shelves.ledger.refused =
          account.shelves.ledger.refused + 1 := rfl
      have none : (Account.refusing proto codes before (.count index)).length = 0 := rfl
      have fewer := List.length_erase_of_mem member
      have waiting := List.length_pos_of_mem member
      rw [counting]
      omega
  | other work counting making refusing accepting =>
      have none : (Account.refusing proto codes before happening).length = 0 :=
        congrArg List.length refusing
      rw [counting]
      omega

theorem booked_step (booked : Booked proto codes found account before)
    (stepped : before.step proto codes capacity happening = some after) :
    Booked proto codes found (account.note proto codes before happening) after := by
  obtain ⟨logged, moved, _⟩ := process_move stepped
  obtain ⟨retained, settling⟩ := books_step booked.retained booked.settling logged
  exact
    { sound := sound_step booked.sound moved
      retained
      settling
      written := written_step booked.written moved
      handed := handed_step booked.handed moved
      pending := pending_step booked.pending moved
      counted := counted_step booked.counted moved }

theorem booked_new (policy : Policy) (found : Db.Tables) :
    Booked proto codes found (Account.opened found) (.new policy found) where
  sound := workload_new policy
  retained := Db.retained_opened
  settling := Db.settling_opened found
  written := .nil
  handed := List.Perm.refl _
  pending := fun _ none => nomatch none
  counted := Nat.le_refl _

/-- A gauge at zero shows that whoever entered is out, its record handed over and, if it was
refused, counted. -/
theorem Booked.drained {process : Process}
    (booked : Booked proto codes found account process)
    (empty : process.work.inFlight = 0) :
    (∀ handling ∈ process.work.handlings, handling.inside = false) ∧
      account.refused.length ≤ account.shelves.ledger.refused := by
  have nobody : ∀ handling ∈ process.work.handlings, handling.inside = false := by
    intro handling member
    have none : process.work.handlings.countP Handling.inside = 0 :=
      booked.sound.gauge.symm.trans empty
    exact Bool.eq_false_iff.mpr (List.countP_eq_zero.mp none handling member)
  refine ⟨nobody, ?_⟩
  have counted := booked.counted
  cases waiting : process.counting with
  | nil =>
      rw [waiting] at counted
      exact counted
  | cons index rest =>
      have first : index ∈ process.counting := waiting ▸ List.mem_cons_self
      obtain ⟨handling, handled, tap, held, answered⟩ := booked.pending index first
      have out := nobody handling (List.mem_of_getElem? held)
      simp only [Handling.inside, answered, Bool.true_eq_false] at out

end Invariant

/-! ### The flush -/

/-- What was accepted before the flush is waited for, and what was counted stays counted. -/
structure Promised (taken : List LogEvent) (dropped : Nat) (account : Account)
    (process : Process) : Prop where
  counted : dropped ≤ account.shelves.ledger.refused
  accepted : taken <+: account.shelves.ledger.accepted
  waited : ∀ ack, process.stop = .waiting ack → Db.Covers account.shelves.ledger taken ack
  settled : process.stop = .stopped → taken <+: account.shelves.ledger.settled

section Flush

variable {proto codes capacity} {found : Db.Tables} {before after : Process}
  {happening : Happening} {account : Account} {taken : List LogEvent} {dropped : Nat}

theorem promised_step (promised : Promised taken dropped account before)
    (booked : Booked proto codes found account before)
    (stepped : before.step proto codes capacity happening = some after) :
    Promised taken dropped (account.note proto codes before happening) after := by
  obtain ⟨_, _, stops⟩ := process_move stepped
  have covered : ∀ ack, Db.Covers account.shelves.ledger taken ack →
      Db.Covers (account.note proto codes before happening).shelves.ledger taken ack := by
    intro ack covers
    simp only [Account.note]
    cases before.activity proto codes happening with
    | none => exact covers
    | some activity => exact covers.step promised.accepted
  have settled : taken <+: account.shelves.ledger.settled →
      taken <+: (account.note proto codes before happening).shelves.ledger.settled :=
    fun already => already.trans settled_step
  refine ⟨promised.counted.trans refused_step, ?_, ?_, ?_⟩
  · rw [accepted_step]
    exact promised.accepted.trans (List.prefix_append _ _)
  · intro ack waiting
    generalize after.stop = stop at stops waiting
    subst waiting
    cases stops with
    | same _ stays => exact covered ack (promised.waited ack stays.symm)
    | early _ undrained => cases undrained
    | flush room => exact booked.settling.covers_next promised.accepted
  · intro stopped
    generalize after.stop = stop at stops stopped
    subst stopped
    cases stops with
    | same _ stays => exact settled (promised.settled stays.symm)
    | early _ undrained => cases undrained
    | acked waiting ended =>
        exact settled (booked.settling.settled_of_ended promised.accepted
          (promised.waited _ waiting) ended)

end Flush

/-! ### Every run -/

/-- What a stop owes the queries that were answered by the last look at the gauge. -/
structure StopKeeps (found : Db.Tables) (atLook atEnd : Account) (last final : Process) : Prop where
  answered : last.work.log.Perm (last.work.handlings.filterMap fun handling =>
    handling.handled?.map Handled.log)
  written : List.Forall₂ (Written codes) last.work.log atLook.made
  handed : atLook.made.Perm
    (atLook.shelves.ledger.accepted.filterMap LogEvent.queryRecord ++ atLook.refused)
  /-- What was accepted is committed, or was in a batch that failed. -/
  settled : atLook.shelves.ledger.accepted <+: atEnd.shelves.ledger.settled
  rows : Db.Retained found atEnd.shelves final.log
  drops : final.log.state.drops = UInt64.ofNat atEnd.shelves.ledger.refused
  drained : last.work.inFlight = 0 →
    (∀ handling ∈ last.work.handlings, handling.inside = false) ∧
      atLook.refused.length ≤ atEnd.shelves.ledger.refused

section Runs

/-- The books of a run. -/
def accountOf (policy : Policy) (found : Db.Tables) (happenings : List Happening) : Account :=
  history (Process.step proto codes capacity) (Account.note proto codes) (.opened found)
    (.new policy found) happenings

variable {proto codes capacity}

/-- A run that has left the drain has left it by a look. -/
theorem drain_left {process final : Process} {happenings : List Happening}
    (undrained : process.stop.drained = false)
    (ran : run (Process.step proto codes capacity) process happenings = some final)
    (drained : final.stop.drained = true) :
    ∃ front now back last since, happenings = front ++ .look now :: back ∧
      run (Process.step proto codes capacity) process front = some last ∧
      run (Process.step proto codes capacity) last (.look now :: back) = some final ∧
      last.stop = .draining since ∧ (last.work.inFlight = 0 ∨ since + DRAIN ≤ now) := by
  induction happenings generalizing process with
  | nil =>
      cases ran
      rw [undrained] at drained
      cases drained
  | cons happening rest ih =>
      have whole := ran
      obtain ⟨next, stepped, later⟩ := run_cons ran
      cases still : next.stop.drained with
      | false =>
          obtain ⟨front, now, back, last, since, rfl, reached, left, draining, leaves⟩ :=
            ih still later
          refine ⟨happening :: front, now, back, last, since, rfl, ?_, left, draining, leaves⟩
          rw [run_cons_of_step front stepped]
          exact reached
      | true =>
          obtain ⟨_, _, stops⟩ := process_move stepped
          generalize next.stop = stop at stops still
          cases stops with
          | same _ stays =>
              rw [stays, undrained] at still
              cases still
          | early _ early =>
              rw [early] at still
              cases still
          | @look now since draining leaves =>
              exact ⟨[], now, rest, process, since, rfl, rfl, whole, draining, leaves⟩
          | flush room flushing =>
              rw [flushing] at undrained
              cases undrained
          | acked waiting ended =>
              rw [waiting] at undrained
              cases undrained

/-- However queries, comparisons, the writer and the sweeps interleave with a stop, the drain ends
with nobody inside or not before its deadline.  When `run` returns, the record of every query that
was answered by then is in a batch that is over, or was refused; and with nobody inside, that is
every query that had entered, but for those that panicked, and every refusal is counted. -/
theorem stop_keeps_answered {policy : Policy} {found : Db.Tables} {happenings : List Happening}
    {final : Process}
    (ran : run (Process.step proto codes capacity) (.new policy found) happenings = some final)
    (stopped : final.stop = .stopped) :
    ∃ front now back last since, happenings = front ++ .look now :: back ∧
      run (Process.step proto codes capacity) (.new policy found) front = some last ∧
      last.stop = .draining since ∧ (last.work.inFlight = 0 ∨ since + DRAIN ≤ now) ∧
      StopKeeps codes found (accountOf proto codes capacity policy found front)
        (accountOf proto codes capacity policy found happenings) last final := by
  obtain ⟨front, now, back, last, since, rfl, reached, left, draining, leaves⟩ :=
    drain_left rfl ran (by rw [stopped]; rfl)
  refine ⟨front, now, back, last, since, rfl, reached, draining, leaves, ?_⟩
  let books := accountOf proto codes capacity policy found front
  have whole : accountOf proto codes capacity policy found (front ++ .look now :: back) =
      history _ (Account.note proto codes) books last (.look now :: back) := history_append reached
  have atLook : Booked proto codes found books last :=
    invariant_of_history (fun _ _ _ _ => booked_step) (booked_new policy found) reached
  have promised : Promised books.shelves.ledger.accepted books.shelves.ledger.refused books
      last := by
    refine ⟨Nat.le_refl _, List.prefix_refl _, ?_, ?_⟩
    · intro ack waiting
      cases draining.symm.trans waiting
    · intro ended
      cases draining.symm.trans ended
  have both : ∀ account before happening after,
      Booked proto codes found account before ∧
        Promised books.shelves.ledger.accepted books.shelves.ledger.refused account before →
      Process.step proto codes capacity before happening = some after →
      Booked proto codes found (account.note proto codes before happening) after ∧
        Promised books.shelves.ledger.accepted books.shelves.ledger.refused
          (account.note proto codes before happening) after := by
    intro account before happening after held stepped
    exact ⟨booked_step held.1 stepped, promised_step held.2 held.1 stepped⟩
  have reachedEnd := invariant_of_history both ⟨atLook, promised⟩ left
  rw [← whole] at reachedEnd
  obtain ⟨atEnd, kept⟩ := reachedEnd
  exact
    { answered := atLook.sound.log
      written := atLook.written
      handed := atLook.handed
      settled := kept.settled stopped
      rows := atEnd.retained
      drops := atEnd.settling.recorded.drops
      drained := by
        intro empty
        obtain ⟨nobody, counted⟩ := atLook.drained empty
        exact ⟨nobody, counted.trans kept.counted⟩ }

end Runs

/-- The numbers of the types and codes that the model names. -/
def plainCodes : Codes where
  qtype
    | .A => 1
    | .AAAA => 28
    | .CNAME => 5
    | .SOA => 6
    | .ANY => 255
    | .Unknown code => code.toUInt16
  rcode
    | .NoError => 0
    | .FormErr => 1
    | .ServFail => 2
    | .NXDomain => 3
    | .Refused => 5
    | .Unknown code => code.toUInt16

/-- A query is inside when the signal comes; the second look finds it gone. -/
def stoppedMeanwhile (policy : Policy) : List Happening :=
  [.work (.call (Message.asking 7 shopQuestion) laptop), .work (.enter 0), .work (.load 0), .signal,
    .closed 1000, .look 1000,
    .answer 0 (Pipeline.idle policy fun _ => none) atStart { ts := 5000, elapsedUs := 310 } true,
    .work (.leave 0), .look 1020, .flush true, .log (.writer .recv), .log (.writer .recv),
    .log (.writer (.begin true)), .log (.writer (.insert true)), .log (.writer (.insert true)),
    .log (.writer (.commit true)), .log (.writer .ack), .acked]

theorem stop_keeps_answered_meanwhile : ∃ engine final,
    LoadedEngine.load .insertion ["||tracker.test^".toList] = some engine ∧
      final.stop = .stopped ∧ final.log.state.tables.queries.map Db.QueryRow.rcode = [5] ∧
      ∃ front now back last since,
        stoppedMeanwhile { engine, safesearch := { enabled := 0 }, allow := [] } =
          front ++ .look now :: back ∧
        run (Process.step plainProto plainCodes 4)
          (.new { engine, safesearch := { enabled := 0 }, allow := [] }
            { queries := [], divergences := [] }) front = some last ∧
        last.stop = .draining since ∧ (last.work.inFlight = 0 ∨ since + DRAIN ≤ now) ∧
        StopKeeps plainCodes { queries := [], divergences := [] }
          (accountOf plainProto plainCodes 4
            { engine, safesearch := { enabled := 0 }, allow := [] }
            { queries := [], divergences := [] } front)
          (accountOf plainProto plainCodes 4
            { engine, safesearch := { enabled := 0 }, allow := [] }
            { queries := [], divergences := [] }
            (stoppedMeanwhile { engine, safesearch := { enabled := 0 }, allow := [] }))
          last final := by
  obtain ⟨engine, loaded⟩ := trackerEngine
  obtain ⟨final, ran, stopped, row⟩ : ∃ final, run (Process.step plainProto plainCodes 4)
      (.new { engine, safesearch := { enabled := 0 }, allow := [] }
        { queries := [], divergences := [] })
      (stoppedMeanwhile { engine, safesearch := { enabled := 0 }, allow := [] }) = some final ∧
        final.stop = .stopped ∧ final.log.state.tables.queries.map Db.QueryRow.rcode = [5] :=
    ⟨_, rfl, rfl, rfl⟩
  exact ⟨engine, final, loaded, stopped, row, stop_keeps_answered ran stopped⟩

end Sumidero.Daemon
