import Sumidero.Config

namespace Sumidero.Daemon

/-! What the daemon reports about itself, and the functions that fill it in. -/

/-- Seconds between refreshes, and between retries while a list fails. -/
def REFRESH_EVERY : Nat := 86400
def RETRY_AFTER_FETCH_FAILURE : Nat := 3600

inductive Trigger where
  | startup
  | signal
  | timer
deriving Repr, DecidableEq

/-- One attempt to build and install a policy. -/
structure ReloadOutcome where
  ts : Int
  trigger : Trigger
  ok : Bool
  error : Option String
  durationMs : Nat
deriving Repr, DecidableEq

inductive ListOrigin where
  | downloaded
  | notModified
  | storedAfterFetchFailure (reason : String)
  | seedAfterFetchFailure (reason : String)
  | localFile
  | storedOffline
  | seedOffline
deriving Repr, DecidableEq

def ListOrigin.fetchFailed : ListOrigin → Bool
  | .storedAfterFetchFailure _ => true
  | .seedAfterFetchFailure _ => true
  | _ => false

structure ListReport where
  name : Str
  origin : ListOrigin
  rules : Nat
  issues : Nat
  verifiedAgeSecs : Option Nat
deriving Repr, DecidableEq

/-- The provenance half of a successful list load; its engine is in the policy. -/
structure LoadedLists where
  hash : Str
  reports : List ListReport
deriving Repr, DecidableEq

structure RuntimeReport where
  listsLoadedTs : Int
  lists : List ListReport
  listsHash : Str
  appliedConfigHash : Str
  lastReload : Option ReloadOutcome
  pendingRestart : List String
  nextRefreshTs : Int
deriving Repr, DecidableEq

/-- Settings that differ between the start-up config and `new` and that no reload
can apply. -/
def restartOnlyChanges (started new : Config) : List String :=
  (if started.server.bind ≠ new.server.bind then ["server.bind"] else []) ++
  (if started.upstreams ≠ new.upstreams then ["upstreams"] else []) ++
  (if started.database ≠ new.database then ["database"] else []) ++
  (if started.tls ≠ new.tls then ["tls"] else []) ++
  (if started.cache ≠ new.cache then ["cache"] else [])

def outcome (trigger : Trigger) (ts : Int) (durationMs : Nat) (result : Except String Unit) :
    ReloadOutcome :=
  match result with
  | .ok _ => { ts, trigger, ok := true, error := none, durationMs }
  | .error err => { ts, trigger, ok := false, error := some err, durationMs }

def nextRefresh (loaded : LoadedLists) : Nat :=
  if loaded.reports.any (fun report => report.origin.fetchFailed) then RETRY_AFTER_FETCH_FAILURE
  else REFRESH_EVERY

/-- `reload`'s filter: the newest outcome, if a signal triggered it. -/
def RuntimeReport.lastSignalReload (report : RuntimeReport) : Option ReloadOutcome :=
  report.lastReload.filter fun outcome => outcome.trigger = .signal

/-- One reason the daemon is degraded, with the operator's next step. -/
structure Degraded where
  reason : String
  detail : String
  next : String
deriving Repr, DecidableEq

/-- A list last confirmed longer ago than this makes the daemon degraded. -/
def STALE_LIST_SECS : Nat := 3 * 86400

/-- The reasons one list gives, this many seconds after it was loaded. -/
def ListReport.degradedReasons (list : ListReport) (sinceLoad : Nat) : List Degraded :=
  (match list.origin with
    | .storedAfterFetchFailure reason | .seedAfterFetchFailure reason =>
        [{ reason := "list_fetch_failed"
           detail := String.ofList list.name ++ ": " ++ reason
           next := "the last good copy is in use; the refresher retries hourly" }]
    | _ => []) ++
  (match list.verifiedAgeSecs.map (· + sinceLoad) with
    | some age =>
        if STALE_LIST_SECS < age then
          [{ reason := "list_stale"
             detail := String.ofList list.name ++ ": content last confirmed " ++
               toString (age / 3600) ++ " h ago"
             next := "check the list URL; `sumidero reload` retries now" }]
        else []
    | none => [])

/-- Everything wrong with a running daemon, from its own report. -/
def degradedReasons (runtime : RuntimeReport) (consecutiveAllFailed logEventsDroppedRecent : Nat)
    (now : Int) : List Degraded :=
  (if 0 < consecutiveAllFailed then
    [{ reason := "cannot_resolve"
       detail := toString consecutiveAllFailed ++ " consecutive queries found no upstream"
       next := "check the WAN link and `sumidero status --json` upstreams" }]
  else []) ++
  (if 0 < logEventsDroppedRecent then
    [{ reason := "log_events_dropped"
       detail := toString logEventsDroppedRecent ++
         " query-log events dropped since the last sample"
       next := "the SQLite writer cannot keep up; check disk latency" }]
  else []) ++
  runtime.lists.flatMap (fun list =>
    list.degradedReasons (now - runtime.listsLoadedTs).toNat) ++
  (match runtime.lastReload with
    | some last =>
        if last.ok then []
        else
          [{ reason := "reload_failed"
             detail := last.error.getD ""
             next := "the previous lists and policy are still in force; fix the cause and reload" }]
    | none => []) ++
  (if runtime.pendingRestart.isEmpty then []
  else
    [{ reason := "pending_restart"
       detail := ", ".intercalate runtime.pendingRestart
       next := "systemctl restart sumidero" }])

@[simp] theorem outcome_trigger (trigger : Trigger) (ts : Int) (durationMs : Nat)
    (result : Except String Unit) : (outcome trigger ts durationMs result).trigger = trigger := by
  cases result <;> rfl

@[simp] theorem outcome_ok (trigger : Trigger) (ts : Int) (durationMs : Nat)
    (result : Except String Unit) :
    (outcome trigger ts durationMs result).ok = result.isOk := by
  cases result <;> rfl

/-- A list that was fetched when it should be, and confirmed recently enough by its load. -/
def ListReport.sound (list : ListReport) : Bool :=
  !list.origin.fetchFailed && list.verifiedAgeSecs.all fun age => age ≤ STALE_LIST_SECS

/-- A report with nothing wrong in it, as of the load of its lists. -/
def RuntimeReport.healthy (report : RuntimeReport) : Bool :=
  report.lists.all ListReport.sound && report.lastReload.all ReloadOutcome.ok &&
    report.pendingRestart.isEmpty

theorem unhealthy_of_failed {report : RuntimeReport} {last : ReloadOutcome}
    (reloaded : report.lastReload = some last) (failed : last.ok = false) :
    report.healthy = false := by
  simp [RuntimeReport.healthy, reloaded, failed]

/-- A list that is not sound gives a reason ever after. -/
theorem sound_of_no_reasons {list : ListReport} {sinceLoad : Nat}
    (quiet : list.degradedReasons sinceLoad = []) : list.sound = true := by
  obtain ⟨fetched, fresh⟩ := List.append_eq_nil_iff.mp quiet
  simp only [ListReport.sound]
  rw [Bool.and_eq_true]
  constructor
  · simp only [ListOrigin.fetchFailed]
    cases origin : list.origin <;> simp [origin] at fetched ⊢
  · cases verified : list.verifiedAgeSecs with
    | none => rfl
    | some age =>
        have recent : age + sinceLoad ≤ STALE_LIST_SECS := by
          simpa [verified] using fresh
        simp only [Option.all_some, decide_eq_true_eq]
        omega

theorem no_reasons_of_sound {list : ListReport} (sound : list.sound = true) :
    list.degradedReasons 0 = [] := by
  simp only [ListReport.sound] at sound
  obtain ⟨fetched, fresh⟩ := Bool.and_eq_true_iff.mp sound
  apply List.append_eq_nil_iff.mpr
  constructor
  · simp only [ListOrigin.fetchFailed] at fetched
    cases origin : list.origin <;> simp [origin] at fetched ⊢
  · cases verified : list.verifiedAgeSecs with
    | none => rfl
    | some age => simpa [verified] using fresh

/-- Some reason is given whatever the counters and the clock say exactly if the report is
not healthy. -/
theorem degraded_iff (report : RuntimeReport) :
    (∀ failed dropped now, degradedReasons report failed dropped now ≠ []) ↔
      report.healthy = false := by
  constructor
  · intro degraded
    by_contra healthy
    have all : report.healthy = true := by simpa using healthy
    simp only [RuntimeReport.healthy] at all
    simp only [Bool.and_eq_true, List.all_eq_true] at all
    obtain ⟨⟨lists, reloaded⟩, settled⟩ := all
    apply degraded 0 0 report.listsLoadedTs
    simp only [degradedReasons]
    have quiet : report.lists.flatMap (fun list =>
        list.degradedReasons (report.listsLoadedTs - report.listsLoadedTs).toNat) = [] := by
      rw [List.flatMap_eq_nil_iff]
      intro list member
      rw [Int.sub_self]
      exact no_reasons_of_sound (lists list member)
    rw [quiet]
    cases last : report.lastReload with
    | none => simp [settled]
    | some outcome =>
        rw [last] at reloaded
        have ok : outcome.ok = true := by simpa using reloaded
        simp [settled, ok]
  · intro sick failed dropped now quiet
    simp only [degradedReasons] at quiet
    simp only [List.append_eq_nil_iff, List.flatMap_eq_nil_iff] at quiet
    obtain ⟨⟨⟨_, lists⟩, reloaded⟩, settled⟩ := quiet
    have healthy : report.healthy = true := by
      simp only [RuntimeReport.healthy]
      simp only [Bool.and_eq_true, List.all_eq_true]
      refine ⟨⟨fun list member => sound_of_no_reasons (lists list member), ?_⟩, ?_⟩
      · cases last : report.lastReload with
        | none => rfl
        | some outcome =>
            rw [last] at reloaded
            simpa using reloaded
      · simpa using settled
    rw [sick] at healthy
    cases healthy

end Sumidero.Daemon
