import Sumidero.Daemon.LatestReload

namespace Sumidero.Daemon

open Sumidero.Data

/-! What an exit of `sumidero reload` says: whose outcome the command took for its
own.  Received SIGHUPs are numbered; a copy of the report carries the number of
the one its `last_reload` is due to. -/

variable {Policy : Type} {configHash : Config → Str}

def LoopPhase.copy? : LoopPhase → Option Copy
  | .beating copy | .writing copy => some copy
  | _ => none

def RefresherPhase.copy? : RefresherPhase Policy → Option Copy
  | .writing copy => some copy
  | _ => none

def RefresherPhase.job? : RefresherPhase Policy → Option Job
  | .loading job | .installing job _ _ | .recording job _ => some job
  | _ => none

/-- The daemon holds a copy of the report whose last reload is this outcome of a
signal, and may still write it to the row. -/
def State.Reported (state : State Policy) (outcome : ReloadOutcome) (read : Option Nat) : Prop :=
  ∃ copy, (copy = state.shared ∨ state.loop.copy? = some copy ∨
    state.refresher.copy? = some copy) ∧
    copy.report.lastSignalReload = some outcome ∧ copy.read = read

/-- The row holds such a copy. -/
def State.Posted (state : State Policy) (outcome : ReloadOutcome) (read : Option Nat) : Prop :=
  ∃ copy, state.row = some copy ∧ copy.report.lastSignalReload = some outcome ∧ copy.read = read

/-- A received SIGHUP whose reload has no outcome yet. -/
def State.Unsettled (state : State Policy) (read : Nat) : Prop :=
  state.loop = .reading read ∨ (∃ config, (config, read) ∈ state.reloads) ∨
    ∃ job, state.refresher.job? = some job ∧ job.read = some read

/-- What became of the SIGHUP with number `own`: its policy was installed, or its
config or load failed. -/
def State.Became (state : State Policy) (ok : Bool) (own : Nat) : Prop :=
  match ok with
  | true => own ∈ state.installed
  | false => own ∈ state.failed

/-- A SIGHUP received once the command had signalled came to this. -/
def State.Answers (state : State Policy) (signalled : Signalled) (ok : Bool) (own : Nat) : Prop :=
  signalled.received ≤ own ∧ own ∉ signalled.installed ∧ state.Became ok own

/-- The acknowledged outcome is that of such a SIGHUP; an exit without an outcome
claims that one was applied. -/
def Acknowledges (state : State Policy) (signalled : Signalled) :
    Option (ReloadOutcome × Option Nat) → Prop
  | none => ∃ own, state.Answers signalled true own
  | some (outcome, read) => ∃ own, read = some own ∧ state.Answers signalled outcome.ok own

/-- An exit of the command acknowledges its own reload or a later one. -/
def AcknowledgesOwn (state : State Policy) : Prop :=
  ∀ signalled acknowledged, state.command = .exited signalled acknowledged →
    Acknowledges state signalled acknowledged

/-- When the command signals, it will wait, no received SIGHUP is without an
outcome, and the outcome sampled is the only one of a signal still around. -/
def SignalsAlone (before : State Policy) (event : Event Policy) (_ : State Policy) : Prop :=
  ∀ waitSecs sampled, event = .signal waitSecs → before.command = .sampled sampled →
    waitSecs ≠ 0 ∧ (∀ read, ¬ before.Unsettled read) ∧
      ∀ outcome read, before.Reported outcome read ∨ before.Posted outcome read →
        some outcome = sampled

/-- Every number and outcome the daemon holds is accounted for. -/
structure Accounted (state : State Policy) : Prop where
  unsettled : ∀ {read}, state.Unsettled read → read < state.received
  installed : ∀ {read}, read ∈ state.installed → read < state.received
  job : ∀ {job}, state.refresher.job? = some job → job.trigger = .signal →
    ∃ read, job.read = some read
  recording : ∀ {job loaded read}, state.refresher = .recording job (.ok loaded) →
    job.read = some read → read ∈ state.installed
  reported : ∀ {outcome read}, state.Reported outcome read →
    ∃ own, read = some own ∧ state.Became outcome.ok own

/-- Since the command signalled, every other number and outcome around is newer. -/
structure Since (state : State Policy) (signalled : Signalled) : Prop where
  received : signalled.received ≤ state.received
  installed : ∀ {read}, read ∈ signalled.installed → read < signalled.received
  unsettled : ∀ {read}, state.Unsettled read → signalled.received ≤ read
  reported : ∀ {outcome read}, state.Reported outcome read → some outcome = signalled.before ∨
    ∃ own, read = some own ∧ signalled.received ≤ own
  posted : ∀ {outcome read}, state.Posted outcome read → some outcome = signalled.before ∨
    Acknowledges state signalled (some (outcome, read))

section Steps

variable {before after : State Policy} {event : Event Policy}

theorem histories_grow (stepped : step configHash before event = some after) :
    before.received ≤ after.received ∧ before.installed ⊆ after.installed ∧
      before.failed ⊆ after.failed := by
  cases step_transition stepped with
  | receiveSighup => exact ⟨Nat.le_succ _, List.Subset.refl _, List.Subset.refl _⟩
  | refuse => exact ⟨Nat.le_refl _, List.Subset.refl _, List.subset_cons_self _ _⟩
  | install =>
      refine ⟨Nat.le_refl _, ?_, List.Subset.refl _⟩
      dsimp only
      split
      · exact List.subset_cons_self _ _
      · exact List.Subset.refl _
  | record =>
      refine ⟨Nat.le_refl _, List.Subset.refl _, ?_⟩
      simp only [State.record]
      split
      · exact List.subset_cons_self _ _
      · exact List.Subset.refl _
  | _ => exact ⟨Nat.le_refl _, List.Subset.refl _, List.Subset.refl _⟩

theorem mem_trySend {reloads : List (Config × Nat)} {config queued : Config} {read number : Nat}
    (member : (queued, number) ∈ trySend reloads config read) :
    (queued, number) ∈ reloads ∨ number = read := by
  simp only [trySend] at member
  split at member
  · rw [List.mem_append, List.mem_singleton, Prod.mk.injEq] at member
    exact member.imp_right And.right
  · exact .inl member

/-- A SIGHUP becomes unsettled only by being received. -/
theorem unsettled_step (stepped : step configHash before event = some after) {read : Nat}
    (unsettled : after.Unsettled read) :
    before.Unsettled read ∨ (read = before.received ∧ after.received = before.received + 1) := by
  cases step_transition stepped with
  | receiveSighup =>
      rcases unsettled with reading | queued | running
      · cases reading
        exact .inr ⟨rfl, rfl⟩
      · exact .inl (.inr (.inl queued))
      · exact .inl (.inr (.inr running))
  | accept config ts reading =>
      rcases unsettled with waiting | ⟨config, queued⟩ | running
      · contradiction
      · rcases mem_trySend queued with earlier | rfl
        · exact .inl (.inr (.inl ⟨config, earlier⟩))
        · exact .inl (.inl reading)
      · exact .inl (.inr (.inr running))
  | recvReload idle reloads =>
      rcases unsettled with reading | ⟨other, queued⟩ | ⟨job, running, read⟩
      · exact .inl (.inl reading)
      · exact .inl (.inr (.inl ⟨other, reloads ▸ List.mem_cons_of_mem _ queued⟩))
      · cases running
        cases read
        exact .inl (.inr (.inl ⟨_, reloads ▸ List.mem_cons_self⟩))
  | record =>
      rcases unsettled with reading | queued | ⟨job, running, _⟩
      · exact .inl (.inl reading)
      · exact .inl (.inr (.inl queued))
      · contradiction
  | _ =>
      left
      grind [State.Unsettled, RefresherPhase.job?]

theorem recordReport_signal {startedWith : Config} {report : RuntimeReport} {job : Job}
    {result : Except String LoadedLists} {loadedTs ts : Int} {durationMs : Nat}
    {acknowledged : ReloadOutcome}
    (last : (recordReport configHash startedWith report job result loadedTs ts durationMs).lastSignalReload =
      some acknowledged) : job.trigger = .signal ∧ acknowledged.ok = result.isOk := by
  cases result <;>
    simp only [recordReport, RuntimeReport.lastSignalReload, Option.filter_eq_some_iff,
      decide_eq_true_eq, Option.some.injEq] at last <;>
    obtain ⟨rfl, signal⟩ := last <;>
    exact ⟨by simpa using signal, rfl⟩

theorem reported_step (stepped : step configHash before event = some after)
    {outcome : ReloadOutcome} {read : Option Nat} (reported : after.Reported outcome read) :
    before.Reported outcome read ∨
    (∃ own, before.loop = .reading own ∧ read = some own ∧ outcome.ok = false ∧
      own ∈ after.failed) ∨
    (∃ job result, before.refresher = .recording job result ∧ job.trigger = .signal ∧
      read = job.read ∧ outcome.ok = result.isOk ∧
      ∀ own, job.read = some own → result.isOk = false → own ∈ after.failed) := by
  obtain ⟨copy, place, last, number⟩ := reported
  cases step_transition stepped with
  | refuse err ts reading =>
      rcases place with rfl | loop | refresher
      · cases last
        exact .inr (.inl ⟨_, reading, number.symm, rfl, List.mem_cons_self⟩)
      · contradiction
      · exact .inl ⟨copy, .inr (.inr refresher), last, number⟩
  | @record job result loadedTs ts durationMs recording =>
      rcases place with rfl | loop | refresher
      · obtain ⟨signal, ok⟩ := recordReport_signal last
        refine .inr (.inr ⟨job, result, recording, signal, number.symm, ok, ?_⟩)
        intro own read failed
        cases result with
        | ok loaded => contradiction
        | error err => simp [State.record, read]
      · exact .inl ⟨copy, .inr (.inl loop), last, number⟩
      · contradiction
  | schedule unixNow =>
      rcases place with rfl | loop | refresher
      · exact .inl ⟨before.shared, .inl rfl, last, number⟩
      · exact .inl ⟨copy, .inr (.inl loop), last, number⟩
      · contradiction
  | _ =>
      refine .inl ⟨copy, ?_, last, number⟩
      grind [RefresherPhase.copy?, LoopPhase.copy?]

theorem posted_step (stepped : step configHash before event = some after)
    {outcome : ReloadOutcome} {read : Option Nat} (posted : after.Posted outcome read) :
    before.Posted outcome read ∨ before.Reported outcome read := by
  cases step_transition stepped with
  | @loopWrite copy written writing =>
      cases written with
      | false =>
          simp only [State.Posted, Bool.false_eq_true, if_false] at posted
          exact .inl posted
      | true =>
          obtain ⟨posted, row, last, number⟩ := posted
          cases row
          exact .inr ⟨copy, .inr (.inl (by rw [writing]; rfl)), last, number⟩
  | @write copy written writing =>
      cases written with
      | false =>
          simp only [State.Posted, Bool.false_eq_true, if_false] at posted
          exact .inl posted
      | true =>
          obtain ⟨posted, row, last, number⟩ := posted
          cases row
          exact .inr ⟨copy, .inr (.inr (by rw [writing]; rfl)), last, number⟩
  | _ => exact .inl posted

theorem installed_step (stepped : step configHash before event = some after) {read : Nat}
    (installed : read ∈ after.installed) : read ∈ before.installed ∨ before.Unsettled read := by
  cases step_transition stepped with
  | @install job policy loaded installing =>
      cases own : job.read with
      | none => exact .inl (by simpa [own] using installed)
      | some number =>
          rw [own] at installed
          rcases List.mem_cons.mp installed with rfl | earlier
          · exact .inr (.inr (.inr ⟨job, by rw [installing]; rfl, own⟩))
          · exact .inl earlier
  | _ => exact .inl installed

theorem job_step (stepped : step configHash before event = some after) {job : Job}
    (running : after.refresher.job? = some job) :
    before.refresher.job? = some job ∨ job.trigger = .timer ∨ ∃ read, job.read = some read := by
  cases step_transition stepped with
  | recvReload =>
      cases running
      exact .inr (.inr ⟨_, rfl⟩)
  | timerFires =>
      cases running
      exact .inr (.inl rfl)
  | loads policy loaded loading =>
      rw [loading]
      exact .inl running
  | loadFails err loading =>
      rw [loading]
      exact .inl running
  | install installing =>
      rw [installing]
      exact .inl running
  | record | schedule | snapshot | write | snapshotBeat | writeBeat => contradiction
  | _ => exact .inl running

theorem recording_step (stepped : step configHash before event = some after) {job : Job}
    {loaded : LoadedLists} {read : Nat} (recording : after.refresher = .recording job (.ok loaded))
    (own : job.read = some read) :
    before.refresher = .recording job (.ok loaded) ∨ read ∈ after.installed := by
  cases step_transition stepped with
  | install =>
      cases recording
      right
      simp only [own]
      exact List.mem_cons_self
  | recvReload | timerFires | loads | loadFails | record | schedule | snapshot | write
  | snapshotBeat | writeBeat => cases recording
  | _ => exact .inl recording

theorem became_grow {ok : Bool} {own : Nat}
    (stepped : step configHash before event = some after) (became : before.Became ok own) :
    after.Became ok own := by
  obtain ⟨_, installed, failed⟩ := histories_grow stepped
  cases ok with
  | true => exact installed became
  | false => exact failed became

theorem acknowledges_grow {signalled : Signalled}
    {acknowledged : Option (ReloadOutcome × Option Nat)}
    (stepped : step configHash before event = some after)
    (held : Acknowledges before signalled acknowledged) :
    Acknowledges after signalled acknowledged := by
  cases acknowledged with
  | none =>
      obtain ⟨own, later, new, became⟩ := held
      exact ⟨own, later, new, became_grow stepped became⟩
  | some pair =>
      obtain ⟨own, number, later, new, became⟩ := held
      exact ⟨own, number, later, new, became_grow stepped became⟩

theorem Accounted.settled (inv : Accounted before)
    (stepped : step configHash before event = some after) {outcome : ReloadOutcome}
    {read : Option Nat} (reported : after.Reported outcome read) :
    before.Reported outcome read ∨
      ∃ own, read = some own ∧ before.Unsettled own ∧ after.Became outcome.ok own := by
  obtain ⟨_, installed, _⟩ := histories_grow stepped
  rcases reported_step stepped reported with
    earlier | ⟨own, reading, rfl, refused, failed⟩ | ⟨job, result, recording, signal, rfl, ok, failed⟩
  · exact .inl earlier
  · exact .inr ⟨own, rfl, .inl reading, by rw [refused]; exact failed⟩
  · have running : before.refresher.job? = some job := by rw [recording]; rfl
    obtain ⟨own, read⟩ := inv.job running signal
    refine .inr ⟨own, read, .inr (.inr ⟨job, running, read⟩), ?_⟩
    rw [ok]
    cases result with
    | ok loaded => exact installed (inv.recording recording read)
    | error err => exact failed own read rfl

theorem accounted_step (inv : Accounted before)
    (stepped : step configHash before event = some after) : Accounted after := by
  obtain ⟨received, installed, failed⟩ := histories_grow stepped
  refine ⟨?_, ?_, ?_, ?_, ?_⟩
  · intro read unsettled
    rcases unsettled_step stepped unsettled with earlier | ⟨rfl, more⟩
    · exact Nat.lt_of_lt_of_le (inv.unsettled earlier) received
    · omega
  · intro read member
    rcases installed_step stepped member with earlier | unsettled
    · exact Nat.lt_of_lt_of_le (inv.installed earlier) received
    · exact Nat.lt_of_lt_of_le (inv.unsettled unsettled) received
  · intro job running signal
    rcases job_step stepped running with earlier | timer | read
    · exact inv.job earlier signal
    · rw [timer] at signal
      contradiction
    · exact read
  · intro job loaded read recording own
    rcases recording_step stepped recording own with earlier | done
    · exact installed (inv.recording earlier own)
    · exact done
  · intro outcome read reported
    rcases inv.settled stepped reported with earlier | ⟨own, number, _, became⟩
    · obtain ⟨own, number, became⟩ := inv.reported earlier
      exact ⟨own, number, became_grow stepped became⟩
    · exact ⟨own, number, became⟩

/-- What is reported after the signal, and not the sampled outcome, acknowledges it. -/
theorem Since.acknowledges {state : State Policy} {signalled : Signalled}
    (since : Since state signalled) (inv : Accounted state) {outcome : ReloadOutcome}
    {read : Option Nat} (reported : state.Reported outcome read) :
    some outcome = signalled.before ∨ Acknowledges state signalled (some (outcome, read)) := by
  rcases since.reported reported with sampled | ⟨own, number, later⟩
  · exact .inl sampled
  · obtain ⟨other, same, became⟩ := inv.reported reported
    obtain rfl : own = other := Option.some.inj (number.symm.trans same)
    exact .inr ⟨own, number, later,
      fun old => absurd (since.installed old) (Nat.not_lt.mpr later), became⟩

theorem since_step {signalled : Signalled} (since : Since before signalled)
    (inv : Accounted before) (stepped : step configHash before event = some after) :
    Since after signalled := by
  obtain ⟨received, _, _⟩ := histories_grow stepped
  refine ⟨Nat.le_trans since.received received, since.installed, ?_, ?_, ?_⟩
  · intro read unsettled
    rcases unsettled_step stepped unsettled with earlier | ⟨rfl, _⟩
    · exact since.unsettled earlier
    · exact since.received
  · intro outcome read reported
    rcases inv.settled stepped reported with earlier | ⟨own, number, unsettled, _⟩
    · exact since.reported earlier
    · exact .inr ⟨own, number, since.unsettled unsettled⟩
  · intro outcome read posted
    have earlier : some outcome = signalled.before ∨
        Acknowledges before signalled (some (outcome, read)) := by
      rcases posted_step stepped posted with posted | reported
      · exact since.posted posted
      · exact since.acknowledges inv reported
    exact earlier.imp_right (acknowledges_grow stepped)

theorem command_step (stepped : step configHash before event = some after) :
    (∀ signalled, after.command = .waiting signalled → before.command = .waiting signalled ∨
      ∃ waitSecs, event = .signal waitSecs ∧ before.command = .sampled signalled.before ∧
        signalled.received = before.received ∧ signalled.installed = before.installed) ∧
    ∀ signalled acknowledged, after.command = .exited signalled acknowledged →
      before.command = .exited signalled acknowledged ∨
      (event = .signal 0 ∧ before.command = .sampled signalled.before) ∨
      ∃ outcome read, acknowledged = some (outcome, read) ∧
        before.command = .waiting signalled ∧ before.Posted outcome read ∧
        some outcome ≠ signalled.before := by
  cases step_transition stepped with
  | signal waitSecs ready => by_cases returns : waitSecs = 0 <;> simp_all
  | @sees signalled copy outcome waiting row last new =>
      constructor
      · intro other held
        contradiction
      · intro other acknowledged exited
        cases exited
        exact .inr (.inr ⟨outcome, copy.read, rfl, waiting, ⟨copy, row, last, rfl⟩, new⟩)
  | sample | giveUp =>
      constructor
      · intro other held
        contradiction
      · intro other acknowledged exited
        contradiction
  | _ => exact ⟨fun _ same => .inl same, fun _ _ same => .inl same⟩

end Steps

/-- The command's phase and all that is around agree on what is its own. -/
structure AckInvariant (state : State Policy) : Prop extends Accounted state where
  waiting : ∀ {signalled}, state.command = .waiting signalled → Since state signalled
  exited : AcknowledgesOwn state

theorem ackInvariant_step {before after : State Policy} {event : Event Policy}
    (inv : AckInvariant before) (stepped : step configHash before event = some after)
    (alone : SignalsAlone before event after) : AckInvariant after := by
  obtain ⟨waits, exits⟩ := command_step stepped
  refine ⟨accounted_step inv.toAccounted stepped, ?_, ?_⟩
  · intro signalled waiting
    rcases waits signalled waiting with earlier | ⟨waitSecs, rfl, sampled, received, installed⟩
    · exact since_step (inv.waiting earlier) inv.toAccounted stepped
    · obtain ⟨_, settled, only⟩ := alone waitSecs signalled.before rfl sampled
      have since : Since before signalled :=
        ⟨Nat.le_of_eq received,
          fun old => received ▸ inv.installed (installed ▸ old),
          fun unsettled => absurd unsettled (settled _),
          fun reported => .inl (only _ _ (.inl reported)),
          fun posted => .inl (only _ _ (.inr posted))⟩
      exact since_step since inv.toAccounted stepped
  · intro signalled acknowledged exited
    rcases exits signalled acknowledged exited with
      earlier | ⟨rfl, sampled⟩ | ⟨outcome, read, rfl, waiting, posted, new⟩
    · exact acknowledges_grow stepped (inv.exited signalled acknowledged earlier)
    · exact absurd rfl (alone 0 signalled.before rfl sampled).1
    · refine acknowledges_grow stepped ?_
      exact ((inv.waiting waiting).posted posted).resolve_left new

theorem ackInvariant_initial {start : State Policy} (initial : Initial start) :
    AckInvariant start := by
  have unsettled : ∀ read, ¬ start.Unsettled read := by
    intro read
    simp [State.Unsettled, initial.loop, initial.reloads, initial.refresher, RefresherPhase.job?]
  have reported : ∀ outcome read, ¬ start.Reported outcome read := by
    intro outcome read given
    rcases given with ⟨copy, rfl | loop | refresher, last, _⟩
    · rw [initial.shared] at last
      contradiction
    · rw [initial.loop] at loop
      contradiction
    · rw [initial.refresher] at refresher
      contradiction
  refine ⟨⟨fun held => absurd held (unsettled _), ?_, ?_, ?_,
    fun held => absurd held (reported _ _)⟩, ?_, ?_⟩
  · simp [initial.installed]
  · simp [initial.refresher, RefresherPhase.job?]
  · simp [initial.refresher]
  · simp [initial.command]
  · simp [AcknowledgesOwn, initial.command]

/-- In a run whose command waits and signals with nothing else of a signal
unsettled, unwritten or newer than its sample, whatever exit it takes
acknowledges its own reload or a later one. -/
theorem reload_acknowledges_own {start : State Policy} (initial : Initial start)
    {events : List (Event Policy)} (alone : Along (step configHash) SignalsAlone start events) :
    Visits (step configHash) AcknowledgesOwn start events :=
  visits_mono (fun _ reached => reached.exited)
    (visits_of_along (fun _ _ _ => ackInvariant_step) (ackInvariant_initial initial) alone)

/-- A command reloads a daemon that no one else signals. -/
def ownReload : List (Event Unit) :=
  [.sample true, .signal 300, .receiveSighup, .readConfig (.ok (configWith 100)) 1, .recvReload,
   .loaded (.ok ((), { hash := [], reports := [] })), .install, .record 2 2 0, .schedule 2,
   .snapshot, .write true, .poll]

theorem own_reload_acknowledged :
    Visits (step fun _ => []) AcknowledgesOwn (serving (configWith 1)) ownReload := by
  refine reload_acknowledges_own (serving_initial (configWith 1)) ?_
  have other : ∀ before after (event : Event Unit), (∀ waitSecs, event ≠ .signal waitSecs) →
      SignalsAlone before event after :=
    fun _ _ _ differs waitSecs _ same _ => absurd same (differs waitSecs)
  refine along_cons rfl (other _ _ _ nofun) (along_cons rfl ?_ ?_)
  · intro waitSecs sampled same _
    cases same
    refine ⟨by decide, ?_, ?_⟩
    · intro read given
      rcases given with reading | ⟨config, queued⟩ | ⟨job, running, _⟩
      · contradiction
      · contradiction
      · contradiction
    · intro outcome read given
      rcases given with ⟨copy, rfl | loop | refresher, last, _⟩ | ⟨copy, row, _⟩
      · cases last
      · contradiction
      · contradiction
      · contradiction
  · repeat' first
      | exact trivial
      | (refine along_cons rfl (other _ _ _ nofun) ?_)

/-- The command signals while the load of an earlier SIGHUP runs, and takes that
load's outcome for its own before its own signal is even received. -/
def earlierReload : List (Event Unit) :=
  [.sighup, .receiveSighup, .readConfig (.ok (configWith 100)) 1, .recvReload,
   .sample true, .signal 300,
   .loaded (.ok ((), { hash := [], reports := [] })), .install, .record 2 2 0, .schedule 2,
   .snapshot, .write true, .poll]

theorem earlier_reload_acknowledged :
    ∃ final signalled outcome, run (step fun _ => []) (serving (configWith 1)) earlierReload =
        some final ∧
      final.command = .exited signalled (some (outcome, some 0)) ∧ outcome.ok = true ∧
      signalled.received = 1 ∧ final.installed = [0] ∧
      ¬ Visits (step fun _ => []) AcknowledgesOwn (serving (configWith 1)) earlierReload := by
  have ran : ∃ final signalled outcome,
      run (step fun _ => []) (serving (configWith 1)) earlierReload = some final ∧
      final.command = .exited signalled (some (outcome, some 0)) ∧ outcome.ok = true ∧
      signalled.received = 1 ∧ final.installed = [0] := ⟨_, _, _, rfl, rfl, rfl, rfl, rfl⟩
  obtain ⟨final, signalled, outcome, reached, exited, ok, received, installed⟩ := ran
  refine ⟨final, signalled, outcome, reached, exited, ok, received, installed, ?_⟩
  intro acknowledges
  obtain ⟨own, number, later, _⟩ := acknowledges earlierReload [] final
    (List.append_nil _).symm reached signalled (some (outcome, some 0)) exited
  cases number
  rw [received] at later
  exact absurd later (by decide)

end Sumidero.Daemon
