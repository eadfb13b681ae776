import Sumidero.Daemon.Refresher

namespace Sumidero.Daemon

/-! Everything a step of the daemon can do, with its guard. -/

variable {Policy : Type}

inductive Transition (configHash : Config → Str) (before : State Policy) :
    Event Policy → State Policy → Prop
  | tick (secs : Nat) :
      Transition configHash before (.tick secs) { before with now := before.now + secs }
  | sighup : Transition configHash before .sighup { before with sighup := true }
  | receiveSighup (waiting : before.loop = .waiting) (pending : before.sighup = true) :
      Transition configHash before .receiveSighup
        { before with
          sighup := false
          loop := .reading before.received
          received := before.received + 1 }
  | accept {read : Nat} (config : Config) (ts : Int) (reading : before.loop = .reading read) :
      Transition configHash before (.readConfig (.ok config) ts)
        { before with
          loop := .waiting
          reloads := trySend before.reloads config read
          lastRead := some config }
  | refuse {read : Nat} (err : String) (ts : Int) (reading : before.loop = .reading read) :
      Transition configHash before (.readConfig (.error err) ts)
        { before with
          loop := .publishing
          shared := { report := rejectReport before.shared.report err ts, read := some read }
          failed := read :: before.failed }
  | loopSnapshot (publishing : before.loop = .publishing) :
      Transition configHash before .loopSnapshot { before with loop := .writing before.shared }
  | heartbeatTick (waiting : before.loop = .waiting) :
      Transition configHash before .heartbeatTick { before with loop := .beating before.shared }
  | loopBeat {copy : Copy} (written : Bool) (beating : before.loop = .beating copy) :
      Transition configHash before (.loopBeat written)
        { before with
          loop := .writing copy
          heartbeat := if written then some (heartbeatOf copy) else before.heartbeat }
  | loopWrite {copy : Copy} (written : Bool) (writing : before.loop = .writing copy) :
      Transition configHash before (.loopWrite written)
        { before with loop := .waiting, row := if written then some copy else before.row }
  | recvReload {config : Config} {read : Nat} {rest : List (Config × Nat)}
      (idle : before.refresher = .idle) (queued : before.reloads = (config, read) :: rest) :
      Transition configHash before .recvReload
        { before with
          reloads := rest
          refresher := .loading { trigger := .signal, config, read := some read }
          attempted := some config }
  | timerFires (idle : before.refresher = .idle) (due : before.deadline ≤ before.now) :
      Transition configHash before .timerFires
        { before with
          refresher := .loading { trigger := .timer, config := before.current, read := none } }
  | loads {job : Job} (policy : Policy) (loaded : LoadedLists)
      (loading : before.refresher = .loading job) :
      Transition configHash before (.loaded (.ok (policy, loaded)))
        { before with refresher := .installing job policy loaded }
  | loadFails {job : Job} (err : String) (loading : before.refresher = .loading job) :
      Transition configHash before (.loaded (.error err))
        { before with refresher := .recording job (.error err) }
  | install {job : Job} {policy : Policy} {loaded : LoadedLists}
      (installing : before.refresher = .installing job policy loaded) :
      Transition configHash before .install
        { before with
          policy := policy
          refresher := .recording job (.ok loaded)
          installed := match job.read with
            | some read => read :: before.installed
            | none => before.installed }
  | record {job : Job} {result : Except String LoadedLists} (loadedTs ts : Int)
      (durationMs : Nat) (recording : before.refresher = .recording job result) :
      Transition configHash before (.record loadedTs ts durationMs)
        (before.record configHash job result loadedTs ts durationMs)
  | schedule {wait : Nat} (unixNow : Int) (scheduling : before.refresher = .scheduling wait) :
      Transition configHash before (.schedule unixNow)
        { before with
          deadline := before.now + wait
          shared :=
            { before.shared with
              report := { before.shared.report with nextRefreshTs := unixNow + wait } }
          refresher := .publishing }
  | snapshot (publishing : before.refresher = .publishing) :
      Transition configHash before .snapshot { before with refresher := .writing before.shared }
  | write {copy : Copy} (written : Bool) (writing : before.refresher = .writing copy) :
      Transition configHash before (.write written)
        { before with refresher := .beating, row := if written then some copy else before.row }
  | snapshotBeat (beating : before.refresher = .beating) :
      Transition configHash before .snapshotBeat
        { before with refresher := .writingBeat before.shared }
  | writeBeat {copy : Copy} (written : Bool) (writing : before.refresher = .writingBeat copy) :
      Transition configHash before (.writeBeat written)
        { before with
          refresher := .idle
          heartbeat := if written then some (heartbeatOf copy) else before.heartbeat }
  | sample (readable : Bool) (ready : before.command = .ready) :
      Transition configHash before (.sample readable)
        { before with
          command := .sampled (if readable then
            before.row.bind fun copy => copy.report.lastSignalReload else none) }
  | signal {sampled : Option ReloadOutcome} (waitSecs : Nat)
      (ready : before.command = .sampled sampled) :
      Transition configHash before (.signal waitSecs)
        { before with
          sighup := true
          command :=
            if waitSecs = 0 then .exited ⟨sampled, before.received, before.installed⟩ none
            else .waiting ⟨sampled, before.received, before.installed⟩ }
  | sees {signalled : Signalled} {copy : Copy} {outcome : ReloadOutcome}
      (waiting : before.command = .waiting signalled) (row : before.row = some copy)
      (last : copy.report.lastSignalReload = some outcome) (new : some outcome ≠ signalled.before) :
      Transition configHash before .poll
        { before with command := .exited signalled (some (outcome, copy.read)) }
  | pollsAgain {signalled : Signalled} (waiting : before.command = .waiting signalled) :
      Transition configHash before .poll before
  | giveUp {signalled : Signalled} (waiting : before.command = .waiting signalled) :
      Transition configHash before .giveUp { before with command := .gaveUp }

theorem step_transition {configHash : Config → Str} {before after : State Policy}
    {event : Event Policy} (stepped : step configHash before event = some after) :
    Transition configHash before event after := by
  cases event with
  | tick secs =>
      cases stepped
      exact .tick secs
  | sighup =>
      cases stepped
      exact .sighup
  | receiveSighup =>
      simp only [step] at stepped
      split at stepped
      · cases stepped
        exact .receiveSighup ‹_› ‹_›
      · contradiction
  | readConfig result ts =>
      simp only [step] at stepped
      split at stepped
      · rename_i reading
        cases stepped
        exact .accept _ ts reading
      · rename_i reading
        cases stepped
        exact .refuse _ ts reading
      · contradiction
  | loopSnapshot =>
      simp only [step] at stepped
      split at stepped
      · cases stepped
        exact .loopSnapshot ‹_›
      · contradiction
  | heartbeatTick =>
      simp only [step] at stepped
      split at stepped
      · cases stepped
        exact .heartbeatTick ‹_›
      · contradiction
  | loopBeat written =>
      simp only [step] at stepped
      split at stepped
      · cases stepped
        exact .loopBeat written ‹_›
      · contradiction
  | loopWrite written =>
      simp only [step] at stepped
      split at stepped
      · cases stepped
        exact .loopWrite written ‹_›
      · contradiction
  | recvReload =>
      simp only [step] at stepped
      split at stepped
      · rename_i idle queued
        cases stepped
        exact .recvReload idle queued
      · contradiction
  | timerFires =>
      simp only [step] at stepped
      split at stepped
      · rename_i idle
        split at stepped
        · rename_i due
          cases stepped
          exact .timerFires idle due
        · contradiction
      · contradiction
  | loaded result =>
      simp only [step] at stepped
      split at stepped
      · rename_i loading
        cases stepped
        exact .loads _ _ loading
      · rename_i loading
        cases stepped
        exact .loadFails _ loading
      · contradiction
  | install =>
      simp only [step] at stepped
      split at stepped
      · cases stepped
        exact .install ‹_›
      · contradiction
  | record loadedTs ts durationMs =>
      simp only [step] at stepped
      split at stepped
      · cases stepped
        exact .record loadedTs ts durationMs ‹_›
      · contradiction
  | schedule unixNow =>
      simp only [step] at stepped
      split at stepped
      · cases stepped
        exact .schedule unixNow ‹_›
      · contradiction
  | snapshot =>
      simp only [step] at stepped
      split at stepped
      · cases stepped
        exact .snapshot ‹_›
      · contradiction
  | write written =>
      simp only [step] at stepped
      split at stepped
      · cases stepped
        exact .write written ‹_›
      · contradiction
  | snapshotBeat =>
      simp only [step] at stepped
      split at stepped
      · cases stepped
        exact .snapshotBeat ‹_›
      · contradiction
  | writeBeat written =>
      simp only [step] at stepped
      split at stepped
      · cases stepped
        exact .writeBeat written ‹_›
      · contradiction
  | sample readable =>
      simp only [step] at stepped
      split at stepped
      · cases stepped
        exact .sample readable ‹_›
      · contradiction
  | signal waitSecs =>
      simp only [step] at stepped
      split at stepped
      · rename_i sampled ready
        cases stepped
        exact .signal waitSecs ready
      · contradiction
  | poll =>
      simp only [step] at stepped
      split at stepped
      · rename_i waiting row
        split at stepped
        · rename_i last
          split at stepped
          · cases stepped
            exact .pollsAgain waiting
          · rename_i new
            cases stepped
            exact .sees waiting row last new
        · cases stepped
          exact .pollsAgain waiting
      · rename_i waiting _
        cases stepped
        exact .pollsAgain waiting
      · contradiction
  | giveUp =>
      simp only [step] at stepped
      split at stepped
      · cases stepped
        exact .giveUp ‹_›
      · contradiction

end Sumidero.Daemon
