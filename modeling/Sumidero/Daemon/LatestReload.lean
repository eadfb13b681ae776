import Sumidero.Daemon.Transitions

namespace Sumidero.Daemon

open Sumidero.Data

/-! Which configuration the refresher ends up attempting after a burst of
SIGHUPs: the reload channel holds one config, parsed when its signal came. -/

variable {Policy : Type} {configHash : Config → Str}

/-- Idle with nothing queued, the refresher last attempted what the most recent
SIGHUP read. -/
def LatestAttempted (state : State Policy) : Prop :=
  state.refresher = .idle → state.reloads = [] → state.attempted = state.lastRead

/-- The config a SIGHUP read is nowhere in the queue after `try_send`. -/
def Discards (_ : State Policy) (event : Event Policy) (after : State Policy) : Prop :=
  ∃ config ts, event = .readConfig (.ok config) ts ∧ ∀ read, (config, read) ∉ after.reloads

/-- A SIGHUP that finds a config queued reads that same config. -/
def AgreesWithQueued (before : State Policy) (event : Event Policy) (_ : State Policy) : Prop :=
  ∀ config ts queued read, event = .readConfig (.ok config) ts →
    before.reloads = [(queued, read)] → config = queued

structure LatestQueued (state : State Policy) : Prop where
  room : state.reloads.length ≤ RELOAD_CAPACITY
  queued : ∀ {config read}, state.reloads = [(config, read)] → state.lastRead = some config
  attempted : state.reloads = [] → state.attempted = state.lastRead

section Steps

variable {before after : State Policy}

theorem reloads_frame {event : Event Policy} (stepped : step configHash before event = some after)
    (read : ∀ config ts, event ≠ .readConfig (.ok config) ts) (received : event ≠ .recvReload) :
    after.reloads = before.reloads ∧ after.lastRead = before.lastRead ∧
      after.attempted = before.attempted := by
  cases step_transition stepped with
  | recvReload => exact absurd rfl received
  | accept config ts => exact absurd rfl (read config ts)
  | _ => exact ⟨rfl, rfl, rfl⟩

theorem readConfig_ok {config : Config} {ts : Int}
    (stepped : step configHash before (.readConfig (.ok config) ts) = some after) :
    ∃ read, after.reloads = trySend before.reloads config read ∧
      after.lastRead = some config ∧ after.attempted = before.attempted := by
  cases step_transition stepped with
  | accept config ts reading => exact ⟨_, rfl, rfl, rfl⟩

theorem recvReload_step (stepped : step configHash before .recvReload = some after) :
    ∃ config read rest, before.reloads = (config, read) :: rest ∧ after.reloads = rest ∧
      after.lastRead = before.lastRead ∧ after.attempted = some config := by
  cases step_transition stepped with
  | recvReload idle queued => exact ⟨_, _, _, queued, rfl, rfl, rfl⟩

theorem trySend_cases {reloads : List (Config × Nat)} (config : Config) (read : Nat)
    (room : reloads.length ≤ RELOAD_CAPACITY) :
    (reloads = [] ∧ trySend reloads config read = [(config, read)]) ∨
      ∃ queued earlier, reloads = [(queued, earlier)] ∧
        trySend reloads config read = [(queued, earlier)] := by
  unfold trySend RELOAD_CAPACITY at *
  cases reloads with
  | nil => exact .inl ⟨rfl, by simp⟩
  | cons item rest =>
      have alone : rest = [] := List.eq_nil_of_length_eq_zero (by simpa using room)
      subst alone
      exact .inr ⟨item.1, item.2, rfl, by simp⟩

end Steps

theorem latestQueued_step {before after : State Policy} {event : Event Policy}
    (inv : LatestQueued before) (stepped : step configHash before event = some after)
    (agrees : AgreesWithQueued before event after) : LatestQueued after := by
  by_cases received : event = .recvReload
  · subst received
    obtain ⟨config, read, rest, reloads, taken, lastRead, attempted⟩ := recvReload_step stepped
    have alone : rest = [] := by
      have room := inv.room
      rw [reloads] at room
      exact List.eq_nil_of_length_eq_zero (by simpa [RELOAD_CAPACITY] using room)
    subst alone
    refine ⟨by simp [taken], fun none => by simp [taken] at none, fun _ => ?_⟩
    rw [attempted, lastRead, inv.queued reloads]
  by_cases read : ∃ config ts, event = .readConfig (.ok config) ts
  · obtain ⟨config, ts, rfl⟩ := read
    obtain ⟨number, reloads, lastRead, attempted⟩ := readConfig_ok stepped
    rcases trySend_cases config number inv.room with ⟨_, sent⟩ | ⟨queued, earlier, full, kept⟩
    · rw [sent] at reloads
      refine ⟨by simp [reloads, RELOAD_CAPACITY], ?_, fun none => by simp [reloads] at none⟩
      intro other otherRead only
      rw [reloads] at only
      cases only
      exact lastRead
    · rw [kept] at reloads
      refine ⟨by simp [reloads, RELOAD_CAPACITY], ?_, fun none => by simp [reloads] at none⟩
      intro other otherRead only
      rw [reloads] at only
      cases only
      rw [lastRead, agrees config ts queued earlier rfl full]
  · obtain ⟨reloads, lastRead, attempted⟩ := reloads_frame stepped
      (fun config ts same => read ⟨config, ts, same⟩) received
    refine ⟨by rw [reloads]; exact inv.room, ?_, ?_⟩
    · intro config number only
      rw [lastRead]
      exact inv.queued (reloads ▸ only)
    · intro none
      rw [attempted, lastRead]
      exact inv.attempted (reloads ▸ none)

/-- With at most one config queued, a config is discarded exactly when another one
is in the queue. -/
theorem discards_iff {before after : State Policy} {event : Event Policy}
    (inv : LatestQueued before) (stepped : step configHash before event = some after) :
    Discards before event after ↔ ¬ AgreesWithQueued before event after := by
  constructor
  · intro given
    obtain ⟨config, ts, rfl, gone⟩ := given
    intro agrees
    obtain ⟨number, reloads, -, -⟩ := readConfig_ok stepped
    rcases trySend_cases config number inv.room with ⟨_, sent⟩ | ⟨queued, earlier, full, kept⟩
    · exact gone number (by rw [reloads, sent]; exact List.mem_cons_self)
    · refine gone earlier ?_
      rw [reloads, kept, agrees config ts queued earlier rfl full]
      exact List.mem_cons_self
  · intro differs
    simp only [AgreesWithQueued, not_forall] at differs
    obtain ⟨config, ts, queued, earlier, rfl, full, different⟩ := differs
    refine ⟨config, ts, rfl, ?_⟩
    obtain ⟨number, reloads, -, -⟩ := readConfig_ok stepped
    rcases trySend_cases config number inv.room with ⟨empty, _⟩ | ⟨other, otherRead, only, kept⟩
    · rw [full] at empty
      contradiction
    · intro read member
      rw [full] at only
      cases only
      rw [reloads, kept, List.mem_singleton, Prod.mk.injEq] at member
      exact different member.1

/-- The latest reload wins along a run: idle with an empty queue, the refresher
attempted the last config read, and no config is dropped for an older one. -/
def LatestReloadWins (configHash : Config → Str) (start : State Policy)
    (events : List (Event Policy)) : Prop :=
  Visits (step configHash) LatestAttempted start events ∧
    Along (step configHash) (fun before event after => ¬ Discards before event after) start events

theorem latestQueued_initial {start : State Policy} (initial : Initial start) :
    LatestQueued start := by
  refine ⟨by simp [initial.reloads], fun only => by simp [initial.reloads] at only, fun _ => ?_⟩
  rw [initial.attempted, initial.lastRead]

private theorem agrees_of_kept {start : State Policy} {events : List (Event Policy)}
    (inv : LatestQueued start)
    (kept : Along (step configHash) (fun before event after => ¬ Discards before event after)
      start events) : Along (step configHash) AgreesWithQueued start events := by
  induction events generalizing start with
  | nil => trivial
  | cons event rest ih =>
      intro next stepped
      obtain ⟨here, there⟩ := kept next stepped
      have agrees : AgreesWithQueued start event next := by
        by_contra differs
        exact here ((discards_iff inv stepped).mpr differs)
      exact ⟨agrees, ih (latestQueued_step inv stepped agrees) there⟩

/-- The latest reload wins in a run exactly when every SIGHUP that finds a config
still queued reads that same config. -/
theorem latest_reload_wins_iff {start : State Policy} (initial : Initial start)
    (events : List (Event Policy)) :
    LatestReloadWins configHash start events ↔
      Along (step configHash) AgreesWithQueued start events := by
  have inv := latestQueued_initial initial
  constructor
  · intro given
    obtain ⟨_, kept⟩ := given
    exact agrees_of_kept inv kept
  · intro agrees
    refine ⟨visits_mono (fun _ reached _ => reached.attempted)
      (visits_of_along (fun _ _ _ => latestQueued_step) inv agrees), ?_⟩
    refine along_of_invariant (fun _ _ _ => latestQueued_step) ?_ inv agrees
    intro before event after held stepped here gone
    exact (discards_iff held stepped).mp gone here

/-- A config that asks for the profile's own lists and for `maxEntries` in the cache. -/
def configWith (maxEntries : Nat) : Config where
  server := { bind := ["127.0.0.1:53".toList], allow := [] }
  filtering := { profile := some .balanced, lists := [], listDir := "/var/lib/lists".toList }
  upstreams := { servers := ["https://dns.example/dns-query".toList], bootstrap := [], timeoutMs := 5000 }
  database := { path := "/var/lib/sumidero.db".toList }
  safeSearch := { enabled := false, providers := [] }
  tls := { extraRoots := [] }
  cache := { maxEntries, serveStaleSecs := 0 }

/-- A daemon that has just started with `config`. -/
def serving (config : Config) : State Unit where
  now := 0
  sighup := false
  loop := .waiting
  reloads := []
  refresher := .idle
  deadline := REFRESH_EVERY
  startedWith := config
  current := config
  policy := ()
  shared :=
    { report :=
        { listsLoadedTs := 0, lists := [], listsHash := [], appliedConfigHash := [],
          lastReload := some (outcome .startup 0 0 (.ok ())), pendingRestart := [],
          nextRefreshTs := 0 }
      read := none }
  row := none
  heartbeat := none
  command := .ready
  received := 0
  lastRead := none
  attempted := none
  installed := []
  failed := []

theorem serving_initial (config : Config) : Initial (serving config) :=
  ⟨rfl, rfl, rfl, rfl, rfl, rfl, rfl, rfl, rfl, rfl, rfl, rfl⟩

/-- One signal arrives during the load the one before it asked for. -/
def twoReloads : List (Event Unit) :=
  [.sighup, .receiveSighup, .readConfig (.ok (configWith 100)) 1, .recvReload,
   .sighup, .receiveSighup, .readConfig (.ok (configWith 200)) 2,
   .loaded (.error "no list"), .record 3 3 0, .schedule 3, .snapshot, .write true, .snapshotBeat,
   .writeBeat true, .recvReload]

theorem two_reloads_win : LatestReloadWins (fun _ => []) (serving (configWith 1)) twoReloads := by
  refine (latest_reload_wins_iff (serving_initial (configWith 1)) twoReloads).mpr ?_
  have quiet : ∀ before after (event : Event Unit), before.reloads = [] →
      AgreesWithQueued before event after := by
    intro before after event empty config ts queued read _ full
    rw [empty] at full
    contradiction
  have other : ∀ before after (event : Event Unit),
      (∀ config ts, event ≠ .readConfig (.ok config) ts) → AgreesWithQueued before event after :=
    fun _ _ _ differs config ts _ _ same _ => absurd same (differs config ts)
  repeat' first
    | exact trivial
    | (refine along_cons rfl (quiet _ _ _ rfl) ?_)
    | (refine along_cons rfl (other _ _ _ nofun) ?_)

/-- Two signals arrive during one load; the config of the second is dropped for
the one queued by the first, and the refresher falls idle without it. -/
def threeReloads : List (Event Unit) :=
  [.sighup, .receiveSighup, .readConfig (.ok (configWith 100)) 1, .recvReload,
   .sighup, .receiveSighup, .readConfig (.ok (configWith 200)) 2,
   .sighup, .receiveSighup, .readConfig (.ok (configWith 300)) 3,
   .loaded (.error "no list"), .record 4 4 0, .schedule 4, .snapshot, .write true, .snapshotBeat,
   .writeBeat true, .recvReload,
   .loaded (.ok ((), { hash := [], reports := [] })), .install, .record 5 5 0, .schedule 5,
   .snapshot, .write true, .snapshotBeat, .writeBeat true]

theorem latest_reload_dropped :
    ∃ final, run (step fun _ => []) (serving (configWith 1)) threeReloads = some final ∧
      final.refresher = .idle ∧ final.reloads = [] ∧
      final.attempted = some (configWith 200) ∧ final.lastRead = some (configWith 300) ∧
      ¬ LatestReloadWins (fun _ => []) (serving (configWith 1)) threeReloads := by
  have ran : ∃ final, run (step fun _ => []) (serving (configWith 1)) threeReloads = some final ∧
      final.refresher = .idle ∧ final.reloads = [] ∧
      final.attempted = some (configWith 200) ∧ final.lastRead = some (configWith 300) :=
    ⟨_, rfl, rfl, rfl, rfl, rfl⟩
  obtain ⟨final, reached, idle, reloads, attempted, lastRead⟩ := ran
  refine ⟨final, reached, idle, reloads, attempted, lastRead, ?_⟩
  intro given
  obtain ⟨latest, _⟩ := given
  have last := latest threeReloads [] final (List.append_nil _).symm reached idle reloads
  rw [attempted, lastRead] at last
  exact absurd last (by decide)

end Sumidero.Daemon
