import Sumidero.Server.Flight

namespace Sumidero.Server

open Sumidero.Cache Sumidero.Dns

/-! Everything a step can do, with its guard, sorted by which part of the flight
it moves. -/

inductive ClientMove (flight : Flight) : ClientPhase → ClientPhase → Prop
  | arrive (request : Message) (key : CacheKey) :
      ClientMove flight .absent (.asking { request, key, now := flight.clock })
  | hit : ClientMove flight (.asking query) (.answered outcome)
  | stale : ClientMove flight (.asking query) (.stale query cached)
  | miss : ClientMove flight (.asking query) (.missed query)
  | held : ClientMove flight (.missed query) (.answered .servfail)
  | unheld (free : flight.failures.held query.key query.now = none) :
      ClientMove flight (.missed query) (.unheld query)
  | recv (received : flight.receive leader late = some outcome) :
      ClientMove flight (.waiting leader late) (.served leader outcome)
  | cancel : ClientMove flight (.waiting leader late) .cancelled

/-- The moves of a leader that keep its guard and what it has sent. -/
inductive LeaderMove : LeaderPhase → LeaderPhase → Prop
  | start : LeaderMove .spawned .resolving
  | store : LeaderMove (.storing answer) (.settled (some answer))
  | finish : LeaderMove .published .ended
  | release {kept : Bool} : LeaderMove (.unwinding kept true) (.unwinding kept false)
  | crash {phase : LeaderPhase} (quiet : phase ≠ .published ∧ phase ≠ .ended ∧
      ∀ kept tx, phase ≠ .unwinding kept tx) :
      LeaderMove phase (.unwinding phase.guardAlive true)

inductive DropGuard : LeaderPhase → LeaderPhase → Prop
  | settled : DropGuard (.settled result) (.unguarded result)
  | unwinding : DropGuard (.unwinding true tx) (.unwinding false tx)

/-- The moves of a refresh that keep its guard. -/
inductive RefreshMove (flight : Flight) (key : CacheKey) : RefreshPhase → RefreshPhase → Prop
  | held : RefreshMove flight key .spawned .settled
  | unheld (free : flight.failures.held key flight.clock = none) :
      RefreshMove flight key .spawned (.checked flight.clock)
  | start : RefreshMove flight key (.checked now) (.resolving now)
  | store : RefreshMove flight key (.storing now answer) .settled

inductive Move (before : Flight) : Event → Flight → Prop
  | tick {later : Instant} (forward : before.clock.nanos ≤ later.nanos) :
      Move before event { before with clock := later }
  | client (cache : Inner) (sound : before.cache.Sound → cache.Sound) {old new : ClientPhase}
      (waiting : before.clients client = old) (moved : ClientMove before old new) :
      Move before event ({ before with cache }.setClient client new)
  | subscribe (waiting : before.clients client = .unheld query) :
      Move before event (before.subscribe client query)
  | refreshSection (waiting : before.clients client = .stale query cached) :
      Move before event ((before.spawnRefresh query).setClient client (.answered (.answer cached)))
  | leader (cache : Inner) (sound : before.cache.Sound → cache.Sound) {task : Leader}
      {new : LeaderPhase} (found : before.leaders[leader]? = some task)
      (moved : LeaderMove task.phase new) :
      Move before event ({ before with cache }.setLeader leader task new)
  | dropGuard {task : Leader} {new : LeaderPhase} (found : before.leaders[leader]? = some task)
      (moved : DropGuard task.phase new) :
      Move before event
        ({ before with lookups := Function.update before.lookups task.key none }.setLeader leader
          task new)
  | publish {task : Leader} (found : before.leaders[leader]? = some task)
      (unguarded : task.phase = .unguarded result) :
      Move before event (before.setLeader leader { task with sent := some result } .published)
  | concludeLeader {task : Leader} {next : Flight} {stored : Option Message}
      (found : before.leaders[leader]? = some task) (resolving : task.phase = .resolving)
      (concluded : before.conclude task.key task.now result victim = some (next, stored)) :
      Move before (.concludeLeader leader result victim)
        (next.setLeader leader task (.concluded result stored))
  | refresh (cache : Inner) (sound : before.cache.Sound → cache.Sound) {task : Refresh}
      {new : RefreshPhase} (found : before.refreshes[refresh]? = some task)
      (moved : RefreshMove before task.key task.phase new) :
      Move before event ({ before with cache }.setRefresh refresh task new)
  | concludeRefresh {task : Refresh} {next : Flight} {stored : Option Message}
      (found : before.refreshes[refresh]? = some task) (resolving : task.phase = .resolving now)
      (concluded : before.conclude task.key now result victim = some (next, stored)) :
      Move before (.concludeRefresh refresh result victim)
        (next.setRefresh refresh task (.concluded now stored))
  | endRefresh {task : Refresh} (found : before.refreshes[refresh]? = some task)
      (running : task.phase ≠ .ended) :
      Move before event
        ({ before with refreshing := Function.update before.refreshing task.key false }.setRefresh
          refresh task .ended)

theorem insert_sound {wireLen : Message → Option Nat} {cache after : Inner} {key : CacheKey}
    {msg : Message} {now : Instant} (ran : cache.insert wireLen key msg now = some after)
    (sound : cache.Sound) : after.Sound := by
  obtain ⟨next, again, held⟩ := sound.insert wireLen key msg now
  cases ran.symm.trans again
  exact held

theorem step_move {wireLen : Message → Option Nat} {before after : Flight} {event : Event}
    (stepped : step wireLen before event = some after) : Move before event after := by
  cases event with
  | tick later =>
      simp only [step] at stepped
      split at stepped
      · cases stepped
        exact .tick ‹_›
      · contradiction
  | arrive client request key =>
      simp only [step] at stepped
      split at stepped
      · cases stepped
        exact .client before.cache id ‹_› (.arrive request key)
      · contradiction
  | lookup client =>
      simp only [step] at stepped
      split at stepped
      · obtain ⟨⟨cache, lookup⟩, ran, moved⟩ := Option.bind_eq_some_iff.mp stepped
        cases moved
        have sound : before.cache.Sound → cache.Sound := by
          intro sound
          obtain ⟨after, _, again, next⟩ := sound.get _ _
          cases ran.symm.trans again
          exact next
        cases lookup
        · exact .client cache sound ‹_› .hit
        · exact .client cache sound ‹_› .stale
        · exact .client cache sound ‹_› .miss
      · contradiction
  | refreshSection client =>
      simp only [step] at stepped
      split at stepped
      · cases stepped
        exact .refreshSection ‹_›
      · contradiction
  | checkHeld client =>
      simp only [step] at stepped
      split at stepped
      · rename_i query waiting
        cases stepped
        cases free : before.failures.held query.key query.now with
        | none => exact .client before.cache id waiting (.unheld free)
        | some left => exact .client before.cache id waiting .held
      · contradiction
  | join client =>
      simp only [step] at stepped
      split at stepped
      · cases stepped
        exact .subscribe ‹_›
      · contradiction
  | recv client =>
      simp only [step] at stepped
      split at stepped
      · obtain ⟨outcome, received, moved⟩ := Option.bind_eq_some_iff.mp stepped
        cases moved
        exact .client before.cache id ‹_› (.recv received)
      · contradiction
  | cancel client =>
      simp only [step] at stepped
      split at stepped
      · cases stepped
        exact .client before.cache id ‹_› .cancel
      · contradiction
  | startLeader leader =>
      obtain ⟨task, found, moved⟩ := Option.bind_eq_some_iff.mp stepped
      split at moved
      · rename_i phase
        cases moved
        exact .leader before.cache id found (phase ▸ .start)
      · contradiction
  | concludeLeader leader result victim =>
      obtain ⟨task, found, moved⟩ := Option.bind_eq_some_iff.mp stepped
      split at moved
      · obtain ⟨⟨next, stored⟩, concluded, moved⟩ := Option.bind_eq_some_iff.mp moved
        cases moved
        exact .concludeLeader found ‹_› concluded
      · contradiction
  | storeLeader leader =>
      obtain ⟨task, found, moved⟩ := Option.bind_eq_some_iff.mp stepped
      split at moved
      · rename_i answer phase
        obtain ⟨cache, ran, moved⟩ := Option.bind_eq_some_iff.mp moved
        cases moved
        exact .leader cache (insert_sound ran) found (phase ▸ .store)
      · contradiction
  | dropGuard leader =>
      obtain ⟨task, found, moved⟩ := Option.bind_eq_some_iff.mp stepped
      split at moved
      · rename_i phase
        cases moved
        exact .dropGuard found (phase ▸ .settled)
      · rename_i phase
        cases moved
        exact .dropGuard found (phase ▸ .unwinding)
      · contradiction
  | publish leader =>
      obtain ⟨task, found, moved⟩ := Option.bind_eq_some_iff.mp stepped
      split at moved
      · cases moved
        exact .publish found ‹_›
      · contradiction
  | dropTx leader =>
      obtain ⟨task, found, moved⟩ := Option.bind_eq_some_iff.mp stepped
      split at moved
      · rename_i phase
        cases moved
        exact .leader before.cache id found (phase ▸ .finish)
      · rename_i phase
        cases moved
        exact .leader before.cache id found (phase ▸ .release)
      · contradiction
  | crashLeader leader =>
      obtain ⟨task, found, moved⟩ := Option.bind_eq_some_iff.mp stepped
      split at moved
      · contradiction
      · contradiction
      · contradiction
      · rename_i published unwinding ended
        cases moved
        exact .leader before.cache id found (.crash ⟨published, ended, unwinding⟩)
  | checkRefresh refresh =>
      obtain ⟨task, found, moved⟩ := Option.bind_eq_some_iff.mp stepped
      split at moved
      · rename_i phase
        cases moved
        cases free : before.failures.held task.key before.clock with
        | none => exact .refresh before.cache id found (phase ▸ .unheld free)
        | some left => exact .refresh before.cache id found (phase ▸ .held)
      · contradiction
  | startRefresh refresh =>
      obtain ⟨task, found, moved⟩ := Option.bind_eq_some_iff.mp stepped
      split at moved
      · rename_i phase
        cases moved
        exact .refresh before.cache id found (phase ▸ .start)
      · contradiction
  | concludeRefresh refresh result victim =>
      obtain ⟨task, found, moved⟩ := Option.bind_eq_some_iff.mp stepped
      split at moved
      · obtain ⟨⟨next, stored⟩, concluded, moved⟩ := Option.bind_eq_some_iff.mp moved
        cases moved
        exact .concludeRefresh found ‹_› concluded
      · contradiction
  | storeRefresh refresh =>
      obtain ⟨task, found, moved⟩ := Option.bind_eq_some_iff.mp stepped
      split at moved
      · rename_i phase
        obtain ⟨cache, ran, moved⟩ := Option.bind_eq_some_iff.mp moved
        cases moved
        exact .refresh cache (insert_sound ran) found (phase ▸ .store)
      · contradiction
  | endRefresh refresh =>
      obtain ⟨task, found, moved⟩ := Option.bind_eq_some_iff.mp stepped
      split at moved
      · contradiction
      · cases moved
        exact .endRefresh found ‹_›

end Sumidero.Server
