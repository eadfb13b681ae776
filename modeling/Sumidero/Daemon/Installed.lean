import Sumidero.Daemon.LatestReload
import Sumidero.Server.Pipeline

namespace Sumidero.Daemon

open Sumidero.Data Sumidero.Server Sumidero.Filter

/-! A reload is all or nothing: the policy, the refresher's config and the report all come
from one config and one load.  What disk and network hold when a load runs is its world. -/

/-- What loading these sources from this directory comes to. -/
abbrev World := List Config.ListSource → Str → Except String (LoadedEngine × LoadedLists)

/-- `SafeSearch::new`, with the error of the first unknown provider. -/
def safeSearchOf (config : Config) : Except String SafeSearch :=
  match SafeSearch.new config.safeSearch.enabled config.safeSearch.providers with
  | some safesearch => .ok safesearch
  | none =>
      let unknown := config.safeSearch.providers.find? fun provider =>
        !listed SUPPORTED_PROVIDERS provider
      .error ("safe-search: unknown safe-search provider \"" ++ String.ofList (unknown.getD []) ++
        "\"; supported: google, youtube, bing, duckduckgo")

/-- Load lists for a config and assemble the policy they imply; `network` reads the text of
an allowed network. -/
def buildPolicy (network : Str → IpNet) (config : Config) (world : World) :
    Except String (Policy × LoadedLists) :=
  match safeSearchOf config, world config.effectiveLists config.filtering.listDir with
  | .error err, _ => .error err
  | .ok _, .error err => .error ("blocklists: " ++ err)
  | .ok safesearch, .ok (engine, loaded) =>
      .ok ({ engine, safesearch, allow := config.server.allow.map network }, loaded)

/-- Stored copies first; the network only when they are not complete.  With the time to the
first refresh. -/
def startUp (network : Str → IpNet) (config : Config) (stored online : World) :
    Except String (Policy × LoadedLists × Nat) :=
  match buildPolicy network config stored with
  | .ok (policy, loaded) => .ok (policy, loaded, 0)
  | .error _ =>
      match buildPolicy network config online with
      | .ok (policy, loaded) => .ok (policy, loaded, nextRefresh loaded)
      | .error err => .error err

/-- The world start-up loaded from. -/
def startWorld (network : Str → IpNet) (config : Config) (stored online : World) : World :=
  match buildPolicy network config stored with
  | .ok _ => stored
  | .error _ => online

theorem startUp_built {network : Str → IpNet} {config : Config} {stored online : World}
    {policy : Policy} {loaded : LoadedLists} {refreshIn : Nat}
    (starts : startUp network config stored online = .ok (policy, loaded, refreshIn)) :
    buildPolicy network config (startWorld network config stored online) =
      .ok (policy, loaded) := by
  simp only [startUp] at starts
  simp only [startWorld]
  cases offline : buildPolicy network config stored with
  | ok built =>
      rw [offline] at starts
      cases starts
      exact offline
  | error err =>
      rw [offline] at starts
      dsimp only at starts ⊢
      cases downloaded : buildPolicy network config online with
      | ok built =>
          rw [downloaded] at starts
          cases starts
          rfl
      | error reason =>
          rw [downloaded] at starts
          cases starts

/-- What the clocks showed at start-up. -/
structure StartClock where
  now : Nat
  loadedTs : Int
  ts : Int
  durationMs : Nat
  unixNow : Int

variable (configHash : Config → Str) (network : Str → IpNet)

/-- The daemon once it serves what start-up built; the row is its own or an earlier
process's. -/
def started (config : Config) (policy : Policy) (loaded : LoadedLists) (refreshIn : Nat)
    (clock : StartClock) (row : Option Copy) (heartbeat : Option (Str × Str)) : State Policy where
  now := clock.now
  sighup := false
  loop := .waiting
  reloads := []
  refresher := .idle
  deadline := clock.now + refreshIn
  startedWith := config
  current := config
  policy
  shared :=
    { report :=
        { listsLoadedTs := clock.loadedTs
          lists := loaded.reports
          listsHash := loaded.hash
          appliedConfigHash := configHash config
          lastReload := some (outcome .startup clock.ts clock.durationMs (.ok ()))
          pendingRestart := []
          nextRefreshTs := clock.unixNow + refreshIn }
      read := none }
  row
  heartbeat
  command := .ready
  received := 0
  lastRead := none
  attempted := none
  installed := []
  failed := []

/-- A load of the job's config ends in some world; every other event is one of the daemon's
own. -/
inductive Move where
  | loads (world : World)
  | moves (event : Event Policy)

def daemonStep (state : State Policy) : Move → Option (State Policy)
  | .loads world =>
      match state.refresher with
      | .loading job => step configHash state (.loaded (buildPolicy network job.config world))
      | _ => none
  | .moves (.loaded _) => none
  | .moves event => step configHash state event

/-! ### The last successful load -/

/-- What the loads of a run came to: the config and world of the last successful one, how
the last one ended, and when the refresher last set its timer. -/
structure Ledger where
  config : Config
  world : World
  last : Option (Except String LoadedLists)
  scheduledAt : Int

def Ledger.note (ledger : Ledger) (before : State Policy) : Move → Ledger
  | .loads world =>
      match before.refresher with
      | .loading job =>
          match buildPolicy network job.config world with
          | .ok (_, loaded) =>
              { ledger with config := job.config, world, last := some (.ok loaded) }
          | .error err => { ledger with last := some (.error err) }
      | _ => ledger
  | .moves (.schedule unixNow) => { ledger with scheduledAt := unixNow }
  | .moves _ => ledger

/-- An hour after a failed load or a failed fetch, a day otherwise. -/
def dueIn : Except String LoadedLists → Int
  | .error _ => 3600
  | .ok loaded => if loaded.reports.any (fun report => report.origin.fetchFailed) then 3600 else 86400

/-- Policy, refresher and report all derive from the ledger's config and world. -/
structure Reflects (started : Config) (ledger : Ledger) (state : State Policy) : Prop where
  current : state.current = ledger.config
  applied : state.shared.report.appliedConfigHash = configHash ledger.config
  pending : state.shared.report.pendingRestart = restartOnlyChanges started ledger.config
  built : ∃ loaded, buildPolicy network ledger.config ledger.world = .ok (state.policy, loaded) ∧
    state.shared.report.lists = loaded.reports ∧ state.shared.report.listsHash = loaded.hash

/-- The next refresh is due by how the last load ended. -/
def Due (ledger : Ledger) (state : State Policy) : Prop :=
  ∀ result, ledger.last = some result →
    state.shared.report.nextRefreshTs = ledger.scheduledAt + dueIn result

/-- Nothing changed but `last_reload` and `next_refresh_ts`. -/
structure Kept (before after : State Policy) : Prop where
  policy : after.policy = before.policy
  current : after.current = before.current
  report : { after.shared.report with
    lastReload := before.shared.report.lastReload
    nextRefreshTs := before.shared.report.nextRefreshTs } = before.shared.report

/-- The move installs a policy, or records its load. -/
def Applies (before : State Policy) (move : Move) : Prop :=
  (move = .moves .install ∧ ∃ job policy loaded, before.refresher = .installing job policy loaded) ∨
    ∃ loadedTs ts durationMs job loaded, move = .moves (.record loadedTs ts durationMs) ∧
      before.refresher = .recording job (.ok loaded)

variable {configHash network} {before after : State Policy}

section Kept

theorem Kept.fields (kept : Kept before after) :
    after.shared.report.lists = before.shared.report.lists ∧
      after.shared.report.listsHash = before.shared.report.listsHash ∧
      after.shared.report.appliedConfigHash = before.shared.report.appliedConfigHash ∧
      after.shared.report.pendingRestart = before.shared.report.pendingRestart := by
  have lists := congrArg RuntimeReport.lists kept.report
  have hash := congrArg RuntimeReport.listsHash kept.report
  have applied := congrArg RuntimeReport.appliedConfigHash kept.report
  have pending := congrArg RuntimeReport.pendingRestart kept.report
  exact ⟨lists, hash, applied, pending⟩

theorem Reflects.of_kept {config : Config} {ledger : Ledger}
    (reflects : Reflects configHash network config ledger before) (kept : Kept before after) :
    Reflects configHash network config ledger after := by
  obtain ⟨lists, hash, applied, pending⟩ := kept.fields
  obtain ⟨loaded, built, inForce, hashed⟩ := reflects.built
  exact
    { current := kept.current.trans reflects.current
      applied := applied.trans reflects.applied
      pending := pending.trans reflects.pending
      built := ⟨loaded, by rw [kept.policy]; exact built, lists.trans inForce, hash.trans hashed⟩ }

/-- Only the install of a policy and the record of its load change more than the outcome and
the timer. -/
theorem step_kept {event : Event Policy} (stepped : step configHash before event = some after)
    (install : event ≠ .install)
    (record : ∀ loadedTs ts durationMs job loaded, event = .record loadedTs ts durationMs →
      before.refresher ≠ .recording job (.ok loaded)) : Kept before after := by
  cases step_transition stepped with
  | install => exact absurd rfl install
  | @record job result loadedTs ts durationMs recording =>
      cases result with
      | ok loaded => exact absurd recording (record _ _ _ _ _ rfl)
      | error err => exact ⟨rfl, rfl, rfl⟩
  | _ => exact ⟨rfl, rfl, rfl⟩

theorem moves_step {event : Event Policy}
    (stepped : daemonStep configHash network before (.moves event) = some after) :
    step configHash before event = some after := by
  cases event with
  | loaded result => cases stepped
  | _ => exact stepped

theorem daemonStep_kept {move : Move}
    (stepped : daemonStep configHash network before move = some after)
    (plain : ¬ Applies before move) : Kept before after := by
  cases move with
  | loads world =>
      simp only [daemonStep] at stepped
      split at stepped
      · apply step_kept stepped
        · intro same
          cases same
        · intro _ _ _ _ _ same
          cases same
      · contradiction
  | moves event =>
      have own := moves_step stepped
      apply step_kept own
      · intro same
        subst same
        cases step_transition own with
        | install installing => exact plain (.inl ⟨rfl, _, _, _, installing⟩)
      · intro loadedTs ts durationMs job loaded same recording
        exact plain (.inr ⟨loadedTs, ts, durationMs, job, loaded, by rw [same], recording⟩)

end Kept

/-! ### One iteration of the refresher -/

/-- What holds at each point of an iteration. -/
def Consistent (configHash : Config → Str) (network : Str → IpNet) (config : Config)
    (ledger : Ledger) (state : State Policy) : Prop :=
  state.startedWith = config ∧
  match state.refresher with
  | .installing job policy loaded =>
      ledger.config = job.config ∧ ledger.last = some (.ok loaded) ∧
        buildPolicy network job.config ledger.world = .ok (policy, loaded)
  | .recording job (.ok loaded) =>
      ledger.config = job.config ∧ ledger.last = some (.ok loaded) ∧
        buildPolicy network job.config ledger.world = .ok (state.policy, loaded)
  | .recording _ (.error err) =>
      Reflects configHash network config ledger state ∧ ledger.last = some (.error err)
  | .scheduling wait =>
      Reflects configHash network config ledger state ∧
        ∃ result, ledger.last = some result ∧ (wait : Int) = dueIn result
  | _ => Reflects configHash network config ledger state ∧ Due ledger state

theorem Consistent.frame {config : Config} {ledger : Ledger}
    (inv : Consistent configHash network config ledger before) (kept : Kept before after)
    (same : after.refresher = before.refresher) (startedWith : after.startedWith = before.startedWith)
    (timer : after.shared.report.nextRefreshTs = before.shared.report.nextRefreshTs) :
    Consistent configHash network config ledger after := by
  obtain ⟨origin, phase⟩ := inv
  refine ⟨startedWith.trans origin, ?_⟩
  have due : Due ledger before → Due ledger after := by
    intro due result last
    rw [timer]
    exact due result last
  rw [same]
  cases refresher : before.refresher with
  | installing job policy loaded =>
      rw [refresher] at phase
      exact phase
  | recording job result =>
      rw [refresher] at phase
      cases result with
      | ok loaded =>
          dsimp only at phase ⊢
          rw [kept.policy]
          exact phase
      | error err => exact ⟨phase.1.of_kept kept, phase.2⟩
  | scheduling wait =>
      rw [refresher] at phase
      exact ⟨phase.1.of_kept kept, phase.2⟩
  | _ =>
      rw [refresher] at phase
      exact ⟨phase.1.of_kept kept, due phase.2⟩

theorem dueIn_ok (loaded : LoadedLists) : dueIn (.ok loaded) = nextRefresh loaded := by
  simp only [dueIn, nextRefresh, RETRY_AFTER_FETCH_FAILURE, REFRESH_EVERY]
  split <;> rfl

theorem consistent_step {config : Config} {ledger : Ledger} {move : Move}
    (inv : Consistent configHash network config ledger before)
    (stepped : daemonStep configHash network before move = some after) :
    Consistent configHash network config (ledger.note network before move) after := by
  obtain ⟨origin, phase⟩ := inv
  cases move with
  | loads world =>
      simp only [daemonStep] at stepped
      split at stepped
      · rename_i job loading
        simp only [Ledger.note, loading]
        rw [loading] at phase
        cases built : buildPolicy network job.config world with
        | ok result =>
            simp only [step, loading, built] at stepped
            cases stepped
            exact ⟨origin, rfl, rfl, built⟩
        | error err =>
            simp only [step, loading, built] at stepped
            cases stepped
            exact ⟨origin, ⟨phase.1.current, phase.1.applied, phase.1.pending, phase.1.built⟩, rfl⟩
      · contradiction
  | moves event =>
      cases step_transition (moves_step stepped) with
      | loads | loadFails => cases stepped
      | install installing =>
          rw [installing] at phase
          exact ⟨origin, phase⟩
      | @record job result loadedTs ts durationMs recording =>
          rw [recording] at phase
          cases result with
          | ok loaded =>
              obtain ⟨config, last, built⟩ := phase
              rw [← config] at built
              refine ⟨origin, ⟨config.symm, ?_, ?_, ⟨loaded, built, rfl, rfl⟩⟩, .ok loaded, last,
                (dueIn_ok loaded).symm⟩
              · change configHash job.config = configHash ledger.config
                rw [config]
              · change restartOnlyChanges before.startedWith job.config = _
                rw [origin, ← config]
                rfl
          | error err => exact ⟨origin, phase.1.of_kept ⟨rfl, rfl, rfl⟩, .error err, phase.2, rfl⟩
      | schedule unixNow scheduling =>
          rw [scheduling] at phase
          obtain ⟨reflects, result, last, due⟩ := phase
          have kept : Reflects configHash network config ledger _ := reflects
          refine ⟨origin, ⟨kept.current, kept.applied, kept.pending, kept.built⟩, ?_⟩
          intro other otherLast
          have same : some result = some other := last.symm.trans otherLast
          cases same
          exact congrArg (unixNow + ·) due
      | recvReload idle _ | timerFires idle _ =>
          rw [idle] at phase
          exact ⟨origin, phase.1.of_kept ⟨rfl, rfl, rfl⟩, phase.2⟩
      | snapshot refresher | write _ refresher | snapshotBeat refresher | writeBeat _ refresher =>
          rw [refresher] at phase
          exact ⟨origin, phase.1.of_kept ⟨rfl, rfl, rfl⟩, phase.2⟩
      | _ => exact Consistent.frame ⟨origin, phase⟩ ⟨rfl, rfl, rfl⟩ rfl rfl rfl

/-- What start-up leaves in the ledger. -/
def Ledger.opened (network : Str → IpNet) (config : Config) (stored online : World)
    (scheduledAt : Int) : Ledger :=
  { config, world := startWorld network config stored online, last := none, scheduledAt }

/-- After every iteration policy, refresher and report come from the last successful load,
and the timer from the last one; in between nothing changes but the outcome and the timer,
unless a success is installed or recorded. -/
theorem reload_all_or_nothing (configHash : Config → Str) (network : Str → IpNet)
    (config : Config) (stored online : World) {policy : Policy} {loaded : LoadedLists}
    {refreshIn : Nat}
    (starts : startUp network config stored online = .ok (policy, loaded, refreshIn))
    (clock : StartClock) (row : Option Copy) (heartbeat : Option (Str × Str))
    (moves : List Move) :
    let start := started configHash config policy loaded refreshIn clock row heartbeat
    let ledger := history (daemonStep configHash network) (Ledger.note network)
      (Ledger.opened network config stored online clock.unixNow) start moves
    (∀ final, run (daemonStep configHash network) start moves = some final →
      final.refresher = .idle →
        Reflects configHash network config ledger final ∧ Due ledger final) ∧
      Along (daemonStep configHash network)
        (fun before move after => ¬ Applies before move → Kept before after) start moves := by
  intro start ledger
  constructor
  · intro final ran idle
    have opened : Consistent configHash network config
        (Ledger.opened network config stored online clock.unixNow) start := by
      refine ⟨rfl, ⟨rfl, rfl, ?_, ⟨loaded, startUp_built starts, rfl, rfl⟩⟩, ?_⟩
      · simp [start, started, Ledger.opened, restartOnlyChanges]
      · intro result last
        cases last
    have closed : Consistent configHash network config ledger final :=
      invariant_of_history (fun _ _ _ _ => consistent_step) opened ran
    obtain ⟨_, phase⟩ := closed
    rw [idle] at phase
    exact phase
  · apply along_of_steps
    intro before move after stepped plain
    exact daemonStep_kept stepped plain

/-- A load with one list that could not be fetched. -/
def fetchless : LoadedLists where
  hash := "00".toList
  reports := [{ name := "hagezi-pro".toList, origin := .storedAfterFetchFailure "timed out",
                rules := 1, issues := 0, verifiedAgeSecs := none }]

/-- The first refresh after a start from stored copies. -/
def firstRefresh (world : World) : List Move :=
  [.moves .timerFires, .loads world, .moves .install, .moves (.record 1000 1000 5),
   .moves (.schedule 1000), .moves .snapshot, .moves (.write true), .moves .snapshotBeat,
   .moves (.writeBeat true)]

theorem first_refresh_consistent : ∃ engine final, LoadedEngine.load .insertion [] = some engine ∧
    run (daemonStep (fun _ => []) fun _ => { contains := fun _ => true })
      (started (fun _ => []) (configWith 10)
        { engine, safesearch := { enabled := 0 }, allow := [] } fetchless 0
        { now := 0, loadedTs := 990, ts := 990, durationMs := 3, unixNow := 990 } none none)
      (firstRefresh fun _ _ => .ok (engine, fetchless)) = some final ∧
    final.refresher = .idle ∧ final.shared.report.nextRefreshTs = 4600 := by
  have loads : (LoadedEngine.load .insertion []).isSome = true := by decide
  obtain ⟨engine, loaded⟩ := Option.isSome_iff_exists.mp loads
  obtain ⟨iterated, _⟩ := reload_all_or_nothing (fun _ => [])
    (fun _ => { contains := fun _ => true }) (configWith 10) (fun _ _ => .ok (engine, fetchless))
    (fun _ _ => .ok (engine, fetchless)) rfl
    { now := 0, loadedTs := 990, ts := 990, durationMs := 3, unixNow := 990 } none none
    (firstRefresh fun _ _ => .ok (engine, fetchless))
  have ran : ∃ final, run (daemonStep (fun _ => []) fun _ => { contains := fun _ => true })
      (started (fun _ => []) (configWith 10)
        { engine, safesearch := { enabled := 0 }, allow := [] } fetchless 0
        { now := 0, loadedTs := 990, ts := 990, durationMs := 3, unixNow := 990 } none none)
      (firstRefresh fun _ _ => .ok (engine, fetchless)) = some final ∧ final.refresher = .idle :=
    ⟨_, rfl, rfl⟩
  obtain ⟨final, reached, idle⟩ := ran
  obtain ⟨_, due⟩ := iterated final reached idle
  exact ⟨engine, final, loaded, reached, idle, due _ rfl⟩

end Sumidero.Daemon
