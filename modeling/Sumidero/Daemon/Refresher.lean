import Sumidero.Data.Runs
import Sumidero.Daemon.Report

namespace Sumidero.Daemon

/-! The daemon's signal loop and refresher, its one report row in the database,
and one `sumidero reload` command beside them.  The two daemon tasks share the
policy pointer, the report and a reload queue of one; each access to one of
these is a step.  A load ends with an arbitrary result after any time. -/

/-- A report and, as history, which received SIGHUP its `last_reload` is due to. -/
structure Copy where
  report : RuntimeReport
  read : Option Nat

/-- A config to load: what triggered it and, as history, for which SIGHUP. -/
structure Job where
  trigger : Trigger
  config : Config
  read : Option Nat

inductive LoopPhase where
  | waiting
  | reading (read : Nat)
  | publishing
  | beating (copy : Copy)
  | writing (copy : Copy)

inductive RefresherPhase (Policy : Type) where
  | idle
  | loading (job : Job)
  | installing (job : Job) (policy : Policy) (loaded : LoadedLists)
  | recording (job : Job) (result : Except String LoadedLists)
  | scheduling (wait : Nat)
  | publishing
  | writing (copy : Copy)
  | beating
  | writingBeat (copy : Copy)

/-- `before` is the outcome read before the signal was sent; `received` and
`installed` record, as history, what the daemon had done by then. -/
structure Signalled where
  before : Option ReloadOutcome
  received : Nat
  installed : List Nat

inductive CommandPhase where
  | ready
  | sampled (before : Option ReloadOutcome)
  | waiting (signalled : Signalled)
  | exited (signalled : Signalled) (acknowledged : Option (ReloadOutcome × Option Nat))
  | gaveUp

structure State (Policy : Type) where
  now : Nat
  sighup : Bool
  loop : LoopPhase
  reloads : List (Config × Nat)
  refresher : RefresherPhase Policy
  deadline : Nat
  startedWith : Config
  current : Config
  policy : Policy
  shared : Copy
  row : Option Copy
  heartbeat : Option (Str × Str)
  command : CommandPhase
  /-- History: SIGHUPs received by the signal loop. -/
  received : Nat
  /-- History: the config the last SIGHUP read, and the last one attempted for one. -/
  lastRead : Option Config
  attempted : Option Config
  /-- History: the SIGHUPs whose policy was installed, and those whose load failed. -/
  installed : List Nat
  failed : List Nat

inductive Event (Policy : Type) where
  | tick (secs : Nat)
  | sighup
  | receiveSighup
  | readConfig (result : Except String Config) (ts : Int)
  | loopSnapshot
  | heartbeatTick
  | loopBeat (written : Bool)
  | loopWrite (written : Bool)
  | recvReload
  | timerFires
  | loaded (result : Except String (Policy × LoadedLists))
  | install
  | record (loadedTs ts : Int) (durationMs : Nat)
  | schedule (unixNow : Int)
  | snapshot
  | write (written : Bool)
  | snapshotBeat
  | writeBeat (written : Bool)
  | sample (readable : Bool)
  | signal (waitSecs : Nat)
  | poll
  | giveUp

/-- The reload channel holds one config. -/
def RELOAD_CAPACITY : Nat := 1

variable {Policy : Type}

/-- `try_send` of the config a SIGHUP read: dropped when one is already queued. -/
def trySend (reloads : List (Config × Nat)) (config : Config) (read : Nat) :
    List (Config × Nat) :=
  if reloads.length < RELOAD_CAPACITY then reloads ++ [(config, read)] else reloads

/-- The refresher's section on the report, after its load. -/
def recordReport (configHash : Config → Str) (startedWith : Config) (report : RuntimeReport)
    (job : Job) (result : Except String LoadedLists) (loadedTs ts : Int) (durationMs : Nat) :
    RuntimeReport :=
  match result with
  | .ok loaded =>
      { report with
        listsLoadedTs := loadedTs
        listsHash := loaded.hash
        lists := loaded.reports
        appliedConfigHash := configHash job.config
        pendingRestart := restartOnlyChanges startedWith job.config
        lastReload := some (outcome job.trigger ts durationMs (.ok ())) }
  | .error err =>
      { report with lastReload := some (outcome job.trigger ts durationMs (.error err)) }

/-- A refused config reaches the report without a load. -/
def rejectReport (report : RuntimeReport) (err : String) (ts : Int) : RuntimeReport :=
  { report with lastReload := some (outcome .signal ts 0 (.error ("config: " ++ err))) }

def heartbeatOf (copy : Copy) : Str × Str :=
  (copy.report.appliedConfigHash, copy.report.listsHash)

/-- The refresher's section after a load, and what it does to its own fields. -/
def State.record (configHash : Config → Str) (state : State Policy) (job : Job)
    (result : Except String LoadedLists) (loadedTs ts : Int) (durationMs : Nat) : State Policy :=
  { state with
    shared :=
      { report := recordReport configHash state.startedWith state.shared.report job result
          loadedTs ts durationMs
        read := job.read }
    current := match result with
      | .ok _ => job.config
      | .error _ => state.current
    failed := match result, job.read with
      | .error _, some read => read :: state.failed
      | _, _ => state.failed
    refresher := .scheduling (match result with
      | .ok loaded => nextRefresh loaded
      | .error _ => RETRY_AFTER_FETCH_FAILURE) }

def step (configHash : Config → Str) (state : State Policy) : Event Policy → Option (State Policy)
  | .tick secs => some { state with now := state.now + secs }
  | .sighup => some { state with sighup := true }
  | .receiveSighup =>
      match state.loop, state.sighup with
      | .waiting, true =>
          some { state with
            sighup := false
            loop := .reading state.received
            received := state.received + 1 }
      | _, _ => none
  | .readConfig result ts =>
      match state.loop, result with
      | .reading read, .ok config =>
          some { state with
            loop := .waiting
            reloads := trySend state.reloads config read
            lastRead := some config }
      | .reading read, .error err =>
          some { state with
            loop := .publishing
            shared := { report := rejectReport state.shared.report err ts, read := some read }
            failed := read :: state.failed }
      | _, _ => none
  | .loopSnapshot =>
      match state.loop with
      | .publishing => some { state with loop := .writing state.shared }
      | _ => none
  | .heartbeatTick =>
      match state.loop with
      | .waiting => some { state with loop := .beating state.shared }
      | _ => none
  | .loopBeat written =>
      match state.loop with
      | .beating copy =>
          some { state with
            loop := .writing copy
            heartbeat := if written then some (heartbeatOf copy) else state.heartbeat }
      | _ => none
  | .loopWrite written =>
      match state.loop with
      | .writing copy =>
          some { state with loop := .waiting, row := if written then some copy else state.row }
      | _ => none
  | .recvReload =>
      match state.refresher, state.reloads with
      | .idle, (config, read) :: rest =>
          some { state with
            reloads := rest
            refresher := .loading { trigger := .signal, config, read := some read }
            attempted := some config }
      | _, _ => none
  | .timerFires =>
      match state.refresher with
      | .idle =>
          if state.deadline ≤ state.now then
            some { state with
              refresher := .loading { trigger := .timer, config := state.current, read := none } }
          else none
      | _ => none
  | .loaded result =>
      match state.refresher, result with
      | .loading job, .ok (policy, loaded) =>
          some { state with refresher := .installing job policy loaded }
      | .loading job, .error err => some { state with refresher := .recording job (.error err) }
      | _, _ => none
  | .install =>
      match state.refresher with
      | .installing job policy loaded =>
          some { state with
            policy := policy
            refresher := .recording job (.ok loaded)
            installed := match job.read with
              | some read => read :: state.installed
              | none => state.installed }
      | _ => none
  | .record loadedTs ts durationMs =>
      match state.refresher with
      | .recording job result => some (state.record configHash job result loadedTs ts durationMs)
      | _ => none
  | .schedule unixNow =>
      match state.refresher with
      | .scheduling wait =>
          some { state with
            deadline := state.now + wait
            shared := { state.shared with
              report := { state.shared.report with nextRefreshTs := unixNow + wait } }
            refresher := .publishing }
      | _ => none
  | .snapshot =>
      match state.refresher with
      | .publishing => some { state with refresher := .writing state.shared }
      | _ => none
  | .write written =>
      match state.refresher with
      | .writing copy =>
          some { state with refresher := .beating, row := if written then some copy else state.row }
      | _ => none
  | .snapshotBeat =>
      match state.refresher with
      | .beating => some { state with refresher := .writingBeat state.shared }
      | _ => none
  | .writeBeat written =>
      match state.refresher with
      | .writingBeat copy =>
          some { state with
            refresher := .idle
            heartbeat := if written then some (heartbeatOf copy) else state.heartbeat }
      | _ => none
  | .sample readable =>
      match state.command with
      | .ready =>
          some { state with
            command := .sampled
              (if readable then state.row.bind fun copy => copy.report.lastSignalReload else none) }
      | _ => none
  | .signal waitSecs =>
      match state.command with
      | .sampled before =>
          let signalled :=
            { before, received := state.received, installed := state.installed : Signalled }
          some { state with
            sighup := true
            command := if waitSecs = 0 then .exited signalled none else .waiting signalled }
      | _ => none
  | .poll =>
      match state.command, state.row with
      | .waiting signalled, some copy =>
          match copy.report.lastSignalReload with
          | some outcome =>
              if some outcome = signalled.before then some state
              else some { state with command := .exited signalled (some (outcome, copy.read)) }
          | none => some state
      | .waiting _, none => some state
      | _, _ => none
  | .giveUp =>
      match state.command with
      | .waiting _ => some { state with command := .gaveUp }
      | _ => none

/-- The daemon when it starts serving: the start-up load is reported, nothing is
in flight, and the row may still hold anything an earlier process wrote. -/
structure Initial (state : State Policy) : Prop where
  sighup : state.sighup = false
  loop : state.loop = .waiting
  reloads : state.reloads = []
  refresher : state.refresher = .idle
  current : state.current = state.startedWith
  shared : state.shared.report.lastSignalReload = none
  command : state.command = .ready
  received : state.received = 0
  lastRead : state.lastRead = none
  attempted : state.attempted = none
  installed : state.installed = []
  failed : state.failed = []

end Sumidero.Daemon
