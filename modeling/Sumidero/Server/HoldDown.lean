import Sumidero.Server.SingleFlight

namespace Sumidero.Server

open Sumidero.Cache Sumidero.Dns Sumidero.Data

/-! Hold-downs: how long a recorded failure keeps the upstream from being asked
for its key again. -/

namespace FailureCache

variable {failures room next : FailureCache} {key victim other : CacheKey} {now : Instant}
  {failure : Failure} {hold : Nat}

theorem makeRoom_lookup (made : failures.makeRoom key now victim = some room)
    (found : room.lookup other = some failure) : failures.lookup other = some failure := by
  have retained : ∀ {keep : Failure → Bool}, (failures.retain keep).lookup other = some failure →
      failures.lookup other = some failure := by
    intro keep kept
    have member := AList.mem_lookup_iff.mp kept
    exact AList.mem_lookup_iff.mpr (List.mem_filter.mp member).1
  unfold makeRoom at made
  simp only at made
  repeat' split at made
  · cases made
    by_cases same : other = victim
    · subst same
      rw [AList.lookup_erase] at found
      contradiction
    · rw [AList.lookup_erase_ne same] at found
      exact retained found
  · contradiction
  · cases made
    exact retained found
  · cases made
    exact found

theorem record_spec (recorded : failures.record key now victim = some (next, hold)) :
    hold = failures.holdFor key now ∧ ∃ room, failures.makeRoom key now victim = some room ∧
      next.lookup key = some { endsAt := now.nanos + hold, hold } ∧
      ∀ other, other ≠ key → next.lookup other = room.lookup other := by
  obtain ⟨room, made, same⟩ := Option.bind_eq_some_iff.mp recorded
  cases same
  exact ⟨rfl, room, made, AList.lookup_insert _, fun other different => AList.lookup_insert_ne different⟩

theorem holdFor_bounds (bounds : ∀ prev, failures.lookup key = some prev → FIRST_HOLD ≤ prev.hold) :
    FIRST_HOLD ≤ failures.holdFor key now ∧ failures.holdFor key now ≤ MAX_HOLD := by
  have ladder : FIRST_HOLD ≤ MAX_HOLD := by decide
  simp only [holdFor]
  cases found : failures.lookup key with
  | none => exact ⟨Nat.le_refl _, ladder⟩
  | some prev =>
      have first := bounds prev found
      simp only
      split <;> omega

/-- A failure during a hold, or soon after, is held for no less than before. -/
theorem holdFor_grows {prev : Failure} (found : failures.lookup key = some prev)
    (longest : prev.hold ≤ MAX_HOLD) (soon : now.nanos < prev.endsAt + MAX_HOLD) :
    prev.hold ≤ failures.holdFor key now := by
  simp only [holdFor]
  rw [found]
  simp only [if_pos soon]
  omega

theorem held_of_active (found : failures.lookup key = some failure)
    (active : now.nanos < failure.endsAt) : failures.held key now ≠ none := by
  simp [held, found, active]

end FailureCache

namespace Flight

/-- A query or a task for the key that has passed its hold check and not started. -/
inductive PastCheck (flight : Flight) (key : CacheKey) : Prop
  | client {client : Nat} {query : Asking} (waiting : flight.clients client = .unheld query)
      (same : query.key = key)
  | leader {leader : Nat} {task : Leader} (found : flight.leaders[leader]? = some task)
      (same : task.key = key) (waiting : task.phase = .spawned)
  | refresh {refresh : Nat} {task : Refresh} {now : Instant}
      (found : flight.refreshes[refresh]? = some task) (same : task.key = key)
      (waiting : task.phase = .checked now)

/-- No hold on the key should be running. -/
def Free (flight : Flight) (key : CacheKey) : Prop :=
  ∀ endsAt, (key, endsAt) ∈ flight.pledges → endsAt ≤ flight.clock.nanos

/-- The failure is filed at the instant it is known, with no one for the key past
the check, and no running hold has to make room for it. -/
def Prompt (flight : Flight) (key : CacheKey) (now : Instant) (victim : CacheKey) : Prop :=
  now = flight.clock ∧ ¬ flight.PastCheck key ∧
    ∀ room, flight.failures.makeRoom key now victim = some room →
      ∀ other failure, flight.failures.lookup other = some failure →
        now.nanos < failure.endsAt → room.lookup other = some failure

end Flight

/-- The key whose upstream resolution a step starts. -/
def Event.starts? (flight : Flight) : Event → Option CacheKey
  | .startLeader leader => (flight.leaders[leader]?).map Leader.key
  | .startRefresh refresh => (flight.refreshes[refresh]?).map Refresh.key
  | _ => none

/-- Nothing starts for a key before the hold recorded for it, counted from the
moment its failure was known, is over; and every hold is at least a second. -/
def RespectsHolds (before : Flight) (event : Event) (after : Flight) : Prop :=
  (∀ key, event.starts? before = some key → before.Free key) ∧
    ∀ pledge ∈ after.pledges, pledge ∈ before.pledges ∨ before.clock.nanos + secs 1 ≤ pledge.2

def Failed (result : Resolved) : Prop :=
  ∀ answer, result = some answer → answer.responseCode = .ServFail

/-- Every failed resolution is recorded promptly. -/
def RecordsPromptly (before : Flight) (event : Event) (_ : Flight) : Prop :=
  (∀ leader result victim task, event = .concludeLeader leader result victim → Failed result →
    before.leaders[leader]? = some task → before.Prompt task.key task.now victim) ∧
  ∀ refresh result victim task now, event = .concludeRefresh refresh result victim →
    Failed result → before.refreshes[refresh]? = some task → task.phase = .resolving now →
    before.Prompt task.key now victim

/-- The failure cache covers every hold that should be running, and no one past the
check is in the way of one. -/
structure Guarded (flight : Flight) : Prop where
  arrived : ∀ {client query}, flight.clients client = .asking query ∨
    flight.clients client = .missed query → query.now.nanos ≤ flight.clock.nanos
  bounds : ∀ {key failure}, flight.failures.lookup key = some failure →
    FIRST_HOLD ≤ failure.hold ∧ failure.hold ≤ MAX_HOLD ∧
      failure.endsAt ≤ flight.clock.nanos + failure.hold
  covered : ∀ {key endsAt}, (key, endsAt) ∈ flight.pledges → flight.clock.nanos < endsAt →
    ∃ failure, flight.failures.lookup key = some failure ∧ endsAt ≤ failure.endsAt
  past : ∀ {key}, flight.PastCheck key → flight.Free key

section Steps

variable {before after : Flight} {key : CacheKey} {now : Instant} {victim : CacheKey}

/-- A check that finds no hold, as of now or earlier, finds none that should run. -/
theorem Guarded.free (inv : Guarded before) (unheld : before.failures.held key now = none)
    (earlier : now.nanos ≤ before.clock.nanos) : before.Free key := by
  intro endsAt pledged
  by_contra running
  obtain ⟨failure, found, covers⟩ := inv.covered pledged (Nat.lt_of_not_le running)
  exact FailureCache.held_of_active found (by omega) unheld

theorem Flight.PastCheck.congr (checked : after.PastCheck key)
    (clients : after.clients = before.clients) (leaders : after.leaders = before.leaders)
    (refreshes : after.refreshes = before.refreshes) : before.PastCheck key := by
  cases checked with
  | client waiting same => exact .client (clients ▸ waiting) same
  | leader found same waiting => exact .leader (leaders ▸ found) same waiting
  | refresh found same waiting => exact .refresh (refreshes ▸ found) same waiting

theorem Guarded.frame (inv : Guarded before) (clock : after.clock = before.clock)
    (failures : after.failures = before.failures) (pledges : after.pledges = before.pledges)
    (arrived : ∀ {client query}, after.clients client = .asking query ∨
      after.clients client = .missed query → query.now.nanos ≤ before.clock.nanos)
    (past : ∀ {key}, after.PastCheck key → before.Free key) : Guarded after := by
  refine ⟨?_, ?_, ?_, ?_⟩
  · rw [clock]
    exact arrived
  · rw [clock, failures]
    exact inv.bounds
  · rw [clock, failures, pledges]
    exact inv.covered
  · intro key checked
    simp only [Flight.Free]
    rw [clock, pledges]
    exact past checked

theorem guarded_record (inv : Guarded before)
    (recorded : before.recordFailure key now victim = some after)
    (prompt : before.Prompt key now victim) :
    Guarded after ∧
      ∀ pledge ∈ after.pledges, pledge ∈ before.pledges ∨ before.clock.nanos + secs 1 ≤ pledge.2 := by
  obtain ⟨atOnce, unchecked, kept⟩ := prompt
  subst atOnce
  obtain ⟨⟨failures, hold⟩, ran, same⟩ := Option.bind_eq_some_iff.mp recorded
  cases same
  obtain ⟨held, room, made, own, others⟩ := FailureCache.record_spec ran
  have holdBounds : FIRST_HOLD ≤ hold ∧ hold ≤ MAX_HOLD := by
    rw [held]
    exact FailureCache.holdFor_bounds fun prev found => (inv.bounds found).1
  refine ⟨⟨inv.arrived, ?_, ?_, ?_⟩, ?_⟩
  · intro other failure found
    by_cases same : other = key
    · subst same
      rw [own] at found
      cases found
      exact ⟨holdBounds.1, holdBounds.2, Nat.le_refl _⟩
    · rw [others other same] at found
      exact inv.bounds (FailureCache.makeRoom_lookup made found)
  · intro other endsAt pledged later
    have running : before.clock.nanos < endsAt := later
    by_cases same : other = key
    · subst same
      refine ⟨_, own, ?_⟩
      rcases List.mem_cons.mp pledged with new | earlier
      · cases new
        exact Nat.le_refl _
      · obtain ⟨prev, found, covers⟩ := inv.covered earlier running
        have prevBounds := inv.bounds found
        have soon : before.clock.nanos < prev.endsAt + MAX_HOLD := by omega
        have grows := FailureCache.holdFor_grows found prevBounds.2.1 soon
        rw [← held] at grows
        exact Nat.le_trans covers (Nat.le_trans prevBounds.2.2 (Nat.add_le_add_left grows _))
    · have earlier : (other, endsAt) ∈ before.pledges := by
        rcases List.mem_cons.mp pledged with new | earlier
        · cases new
          exact absurd rfl same
        · exact earlier
      obtain ⟨failure, found, covers⟩ := inv.covered earlier running
      refine ⟨failure, ?_, covers⟩
      rw [others other same]
      exact kept room made other failure found (Nat.lt_of_lt_of_le running covers)
  · intro other checked
    have earlier : before.PastCheck other := checked.congr rfl rfl rfl
    intro endsAt pledged
    rcases List.mem_cons.mp pledged with new | old
    · cases new
      exact absurd earlier unchecked
    · exact inv.past earlier endsAt old
  · intro pledge member
    rcases List.mem_cons.mp member with rfl | earlier
    · refine .inr (Nat.add_le_add_left ?_ _)
      exact Nat.le_trans (by decide) holdBounds.1
    · exact .inl earlier

theorem guarded_clear (inv : Guarded before) (key : CacheKey) :
    Guarded (before.clearFailures key) := by
  have kept : ∀ {other endsAt}, (other, endsAt) ∈ (before.clearFailures key).pledges →
      (other, endsAt) ∈ before.pledges ∧ other ≠ key := by
    intro other endsAt pledged
    obtain ⟨member, different⟩ := List.mem_filter.mp pledged
    exact ⟨member, by simpa using different⟩
  refine ⟨inv.arrived, ?_, ?_, ?_⟩
  · intro other failure found
    by_cases same : other = key
    · subst same
      rw [show (before.clearFailures other).failures.lookup other = none from
        AList.lookup_erase ..] at found
      contradiction
    · rw [show (before.clearFailures key).failures.lookup other = before.failures.lookup other from
        AList.lookup_erase_ne same] at found
      exact inv.bounds found
  · intro other endsAt pledged running
    obtain ⟨earlier, different⟩ := kept pledged
    obtain ⟨failure, found, covers⟩ := inv.covered earlier running
    exact ⟨failure, (AList.lookup_erase_ne different).trans found, covers⟩
  · intro other checked endsAt pledged
    have earlier : before.PastCheck other := checked.congr rfl rfl rfl
    exact inv.past earlier endsAt (kept pledged).1

theorem guarded_conclude {result : Resolved} {stored : Option Message} (inv : Guarded before)
    (concluded : before.conclude key now result victim = some (after, stored))
    (prompt : Failed result → before.Prompt key now victim) :
    Guarded after ∧
      ∀ pledge ∈ after.pledges, pledge ∈ before.pledges ∨ before.clock.nanos + secs 1 ≤ pledge.2 := by
  simp only [Flight.conclude] at concluded
  split at concluded
  · obtain ⟨next, ran, same⟩ := Option.bind_eq_some_iff.mp concluded
    cases same
    exact guarded_record inv ran (prompt fun _ same => by cases same)
  · rename_i answer
    split at concluded
    · rename_i servfail
      obtain ⟨next, ran, same⟩ := Option.bind_eq_some_iff.mp concluded
      cases same
      refine guarded_record inv ran (prompt ?_)
      intro other same
      cases same
      exact servfail
    · cases concluded
      refine ⟨guarded_clear inv key, fun pledge member => .inl ?_⟩
      exact (List.mem_filter.mp member).1

theorem Guarded.client (inv : Guarded before) (clock : after.clock = before.clock)
    (failures : after.failures = before.failures) (pledges : after.pledges = before.pledges)
    (leaders : after.leaders = before.leaders) (refreshes : after.refreshes = before.refreshes)
    {client : Nat} {new : ClientPhase}
    (clients : after.clients = Function.update before.clients client new)
    (arrived : ∀ query, new = .asking query ∨ new = .missed query →
      query.now.nanos ≤ before.clock.nanos)
    (past : ∀ query, new = .unheld query → before.Free query.key) : Guarded after := by
  refine inv.frame clock failures pledges ?_ ?_
  · intro other query phase
    rw [clients] at phase
    by_cases self : other = client
    · subst self
      rw [Function.update_self] at phase
      exact arrived query phase
    · rw [Function.update_of_ne self] at phase
      exact inv.arrived phase
  · intro key checked
    cases checked with
    | client waiting same =>
        rename_i other query
        rw [clients] at waiting
        by_cases self : other = client
        · subst self
          rw [Function.update_self] at waiting
          exact same ▸ past query waiting
        · rw [Function.update_of_ne self] at waiting
          exact inv.past (.client waiting same)
    | leader found same waiting => exact inv.past (.leader (leaders ▸ found) same waiting)
    | refresh found same waiting => exact inv.past (.refresh (refreshes ▸ found) same waiting)

theorem Guarded.leader (inv : Guarded before) (clock : after.clock = before.clock)
    (failures : after.failures = before.failures) (pledges : after.pledges = before.pledges)
    (clients : after.clients = before.clients) (refreshes : after.refreshes = before.refreshes)
    {leader : Nat} {new : Leader} (leaders : after.leaders = before.leaders.set leader new)
    (started : new.phase ≠ .spawned) : Guarded after := by
  refine inv.frame clock failures pledges (by rw [clients]; exact inv.arrived) ?_
  intro key checked
  cases checked with
  | client waiting same => exact inv.past (.client (clients ▸ waiting) same)
  | leader found same waiting =>
      rename_i other task
      rw [leaders] at found
      rcases getElem?_moved found with rfl | earlier
      · exact absurd waiting started
      · exact inv.past (.leader earlier same waiting)
  | refresh found same waiting => exact inv.past (.refresh (refreshes ▸ found) same waiting)

theorem Guarded.refresh (inv : Guarded before) (clock : after.clock = before.clock)
    (failures : after.failures = before.failures) (pledges : after.pledges = before.pledges)
    (clients : after.clients = before.clients) (leaders : after.leaders = before.leaders)
    {refresh : Nat} {new : Refresh} (refreshes : after.refreshes = before.refreshes.set refresh new)
    (past : ∀ now, new.phase = .checked now → before.Free new.key) : Guarded after := by
  refine inv.frame clock failures pledges (by rw [clients]; exact inv.arrived) ?_
  intro key checked
  cases checked with
  | client waiting same => exact inv.past (.client (clients ▸ waiting) same)
  | leader found same waiting => exact inv.past (.leader (leaders ▸ found) same waiting)
  | refresh found same waiting =>
      rw [refreshes] at found
      rcases getElem?_moved found with rfl | earlier
      · exact same ▸ past _ waiting
      · exact inv.past (.refresh earlier same waiting)

theorem Guarded.spawnRefresh (inv : Guarded before) (query : Asking) :
    Guarded (before.spawnRefresh query) := by
  simp only [Flight.spawnRefresh]
  split
  · exact inv
  · refine inv.frame rfl rfl rfl inv.arrived ?_
    intro key checked
    cases checked with
    | client waiting same => exact inv.past (.client waiting same)
    | leader found same waiting => exact inv.past (.leader found same waiting)
    | refresh found same waiting =>
        rcases getElem?_spawned found with earlier | ⟨_, rfl⟩
        · exact inv.past (.refresh earlier same waiting)
        · cases waiting

theorem Guarded.subscribe (inv : Guarded before) {client : Nat} {query : Asking}
    (waiting : before.clients client = .unheld query) : Guarded (before.subscribe client query) := by
  simp only [Flight.subscribe]
  split
  · exact inv.client rfl rfl rfl rfl rfl rfl (fun _ phase => by rcases phase with h | h <;> cases h)
      (fun _ phase => by cases phase)
  · refine inv.frame rfl rfl rfl ?_ ?_
    · intro other asking phase
      by_cases self : other = client
      · subst self
        rw [show (before.lead other query).clients other = .waiting before.leaders.length false from
          Function.update_self ..] at phase
        rcases phase with phase | phase <;> cases phase
      · rw [show (before.lead client query).clients other = before.clients other from
          Function.update_of_ne self ..] at phase
        exact inv.arrived phase
    · intro key checked
      cases checked with
      | client unheld same =>
          rename_i other asking
          by_cases self : other = client
          · subst self
            rw [show (before.lead other query).clients other = .waiting before.leaders.length false
              from Function.update_self ..] at unheld
            cases unheld
          · rw [show (before.lead client query).clients other = before.clients other from
              Function.update_of_ne self ..] at unheld
            exact inv.past (.client unheld same)
      | leader found same spawned =>
          rcases getElem?_spawned found with earlier | ⟨_, rfl⟩
          · exact inv.past (.leader earlier same spawned)
          · exact inv.past (.client waiting same)
      | refresh found same checked => exact inv.past (.refresh found same checked)

theorem guarded_tick (inv : Guarded before) {later : Instant}
    (forward : before.clock.nanos ≤ later.nanos) : Guarded { before with clock := later } := by
  refine ⟨?_, ?_, ?_, ?_⟩
  · exact fun phase => Nat.le_trans (inv.arrived phase) forward
  · intro key failure found
    obtain ⟨first, longest, ends⟩ := inv.bounds found
    exact ⟨first, longest, Nat.le_trans ends (Nat.add_le_add_right forward _)⟩
  · intro key endsAt pledged running
    exact inv.covered pledged (Nat.lt_of_le_of_lt forward running)
  · intro key checked endsAt pledged
    have earlier : before.PastCheck key := checked.congr rfl rfl rfl
    exact Nat.le_trans (inv.past earlier endsAt pledged) forward

theorem Guarded.answered (inv : Guarded before) {client : Nat} {outcome : Outcome} :
    Guarded (before.setClient client (.answered outcome)) := by
  refine inv.client rfl rfl rfl rfl rfl rfl ?_ ?_
  · intro query given
    rcases given with same | same <;> cases same
  · intro query same
    cases same

theorem LeaderMove.started {old new : LeaderPhase} (moved : LeaderMove old new) :
    new ≠ .spawned := by
  intro same
  subst same
  cases moved

theorem DropGuard.started {old new : LeaderPhase} (moved : DropGuard old new) :
    new ≠ .spawned := by
  intro same
  subst same
  cases moved

theorem concluded_started (result : Resolved) (stored : Option Message) :
    LeaderPhase.concluded result stored ≠ .spawned := by
  intro same
  cases stored <;> cases same

theorem concluded_checked {now other : Instant} {stored : Option Message}
    (same : RefreshPhase.concluded now stored = .checked other) : False := by
  cases stored <;> cases same

theorem ClientMove.guarded {old new : ClientPhase} (inv : Guarded before) {client : Nat}
    (waiting : before.clients client = old) (moved : ClientMove before old new) :
    (∀ query, new = .asking query ∨ new = .missed query →
      query.now.nanos ≤ before.clock.nanos) ∧
    ∀ query, new = .unheld query → before.Free query.key := by
  constructor
  · intro query given
    rcases given with rfl | rfl
    · cases moved
      exact Nat.le_refl _
    · cases moved
      exact inv.arrived (.inl waiting)
  · intro query equal
    subst equal
    cases moved with
    | unheld free => exact inv.free free (inv.arrived (.inr waiting))

theorem RefreshMove.guarded {old new : RefreshPhase} (inv : Guarded before)
    (moved : RefreshMove before key old new) : ∀ now, new = .checked now → before.Free key := by
  intro now equal
  subst equal
  cases moved with
  | unheld free => exact inv.free free (Nat.le_refl _)

theorem guarded_move {event : Event} (inv : Guarded before) (moved : Move before event after)
    (prompt : RecordsPromptly before event after) :
    Guarded after ∧
      ∀ pledge ∈ after.pledges, pledge ∈ before.pledges ∨ before.clock.nanos + secs 1 ≤ pledge.2 := by
  cases moved with
  | tick forward => exact ⟨guarded_tick inv forward, fun _ => .inl⟩
  | client cache _ waiting moved =>
      obtain ⟨arrived, past⟩ := moved.guarded inv waiting
      exact ⟨inv.client rfl rfl rfl rfl rfl rfl arrived past, fun _ => .inl⟩
  | subscribe waiting => exact ⟨inv.subscribe waiting, fun _ member => .inl (by simpa using member)⟩
  | refreshSection waiting =>
      refine ⟨(inv.spawnRefresh _).answered, fun _ member => .inl ?_⟩
      exact (before.spawnRefresh_pledges _) ▸ member
  | leader cache _ found moved =>
      exact ⟨inv.leader rfl rfl rfl rfl rfl rfl moved.started, fun _ => .inl⟩
  | dropGuard found moved =>
      exact ⟨inv.leader rfl rfl rfl rfl rfl rfl moved.started, fun _ => .inl⟩
  | publish found unguarded =>
      exact ⟨inv.leader rfl rfl rfl rfl rfl rfl (fun same => by cases same), fun _ => .inl⟩
  | concludeLeader found resolving concluded =>
      obtain ⟨next, grown⟩ := guarded_conclude inv concluded
        fun failed => prompt.1 _ _ _ _ rfl failed found
      exact ⟨next.leader rfl rfl rfl rfl rfl rfl (concluded_started _ _), grown⟩
  | refresh cache _ found moved =>
      exact ⟨inv.refresh rfl rfl rfl rfl rfl rfl (moved.guarded inv), fun _ => .inl⟩
  | concludeRefresh found resolving concluded =>
      obtain ⟨next, grown⟩ := guarded_conclude inv concluded
        fun failed => prompt.2 _ _ _ _ _ rfl failed found resolving
      exact ⟨next.refresh rfl rfl rfl rfl rfl rfl (fun _ same => (concluded_checked same).elim), grown⟩
  | endRefresh found running =>
      exact ⟨inv.refresh rfl rfl rfl rfl rfl rfl (fun _ same => by cases same), fun _ => .inl⟩

theorem starts_past {wireLen : Message → Option Nat} {event : Event}
    (stepped : step wireLen before event = some after)
    (starts : event.starts? before = some key) : before.PastCheck key := by
  cases event with
  | startLeader leader =>
      obtain ⟨task, found, same⟩ := Option.map_eq_some_iff.mp starts
      simp only [step, found, Option.bind_eq_bind, Option.bind_some] at stepped
      split at stepped
      · exact .leader found same ‹_›
      · contradiction
  | startRefresh refresh =>
      obtain ⟨task, found, same⟩ := Option.map_eq_some_iff.mp starts
      simp only [step, found, Option.bind_eq_bind, Option.bind_some] at stepped
      split at stepped
      · exact .refresh found same ‹_›
      · contradiction
  | _ => contradiction

end Steps

theorem guarded_initial {start : Flight} (initial : Initial start) : Guarded start := by
  refine ⟨?_, ?_, ?_, ?_⟩
  · simp [initial.clients]
  · simp [initial.failures]
  · simp [initial.pledges]
  · intro key _ endsAt pledged
    rw [initial.pledges] at pledged
    contradiction

/-- In a run that records every failure promptly, nothing starts for a key before
its hold, counted from the moment the failure was known, is over. -/
theorem holds_respected {wireLen : Message → Option Nat} {start : Flight} (initial : Initial start)
    {events : List Event} (prompt : Along (step wireLen) RecordsPromptly start events) :
    Along (step wireLen) RespectsHolds start events := by
  refine along_of_invariant ?_ ?_ (guarded_initial initial) prompt
  · intro before event after inv stepped prompt
    exact (guarded_move inv (step_move stepped) prompt).1
  · intro before event after inv stepped prompt
    exact ⟨fun key starts => inv.past (starts_past stepped starts),
      (guarded_move inv (step_move stepped) prompt).2⟩

/-- A lookup that fails in the instant its query arrived. -/
def promptFailure : List Event :=
  (missing 0 ++ [.startLeader 0]) ++ [.concludeLeader 0 none exampleKey]

theorem prompt_failure_held :
    Along (step fun _ => none) RespectsHolds quiet promptFailure := by
  refine holds_respected quiet_initial ?_
  refine along_snoc (along_of_forall ?_ quiet) ?_
  · intro event member before after
    simp only [missing, List.cons_append, List.nil_append, List.mem_cons, List.not_mem_nil,
      or_false] at member
    rcases member with rfl | rfl | rfl | rfl | rfl <;>
      exact ⟨fun _ _ _ _ same => (by cases same), fun _ _ _ _ _ same => (by cases same)⟩
  · intro before after reached _
    have ran : ∃ middle, run (step fun _ => none) quiet (missing 0 ++ [.startLeader 0]) =
        some middle ∧ middle.failures = ∅ ∧ middle.refreshes = [] ∧
        (∃ task, middle.leaders = [task] ∧ task.phase = .resolving ∧ task.now = middle.clock) ∧
        ∀ client query, middle.clients client ≠ .unheld query := by
      refine ⟨_, rfl, rfl, rfl, ⟨_, rfl, rfl, rfl⟩, fun client query waiting => ?_⟩
      by_cases first : client = 0
      · subst first
        cases waiting
      · simp [Flight.setLeader, Flight.subscribe, Flight.lead, Flight.setClient, quiet, first] at waiting
    obtain ⟨middle, again, failures, refreshes, ⟨task, leaders, resolving, now⟩, clients⟩ := ran
    cases reached.symm.trans again
    refine ⟨?_, fun _ _ _ _ _ same => by cases same⟩
    intro leader result victim other same _ found
    cases same
    rw [leaders] at found
    cases found
    refine ⟨now, ?_, ?_⟩
    · intro given
      rcases given with ⟨waiting, _⟩ | ⟨found, _, spawned⟩ | ⟨found, _, _⟩
      · exact clients _ _ waiting
      · rw [leaders] at found
        cases (List.getElem?_eq_some_iff.mp found).1 with
        | refl =>
            cases found
            rw [resolving] at spawned
            cases spawned
        | step below => cases below
      · rw [refreshes] at found
        cases found
    · intro room _ key failure tracked
      rw [failures] at tracked
      cases tracked

/-- The lookup fails ten seconds after its query arrived; `record` is given the
arrival, so the hold of five seconds has ended before it begins. -/
def lateRecord : List Event :=
  missing 0 ++ [.startLeader 0, .tick ⟨secs 10, by decide⟩, .concludeLeader 0 none exampleKey,
    .dropGuard 0, .publish 0, .dropTx 0] ++ missing 1

theorem late_record_unheld :
    ∃ before, run (step fun _ => none) quiet lateRecord = some before ∧
      before.clock.nanos = secs 10 ∧ before.pledges = [(exampleKey, secs 15)] ∧
      ¬ Along (step fun _ => none) RespectsHolds quiet (lateRecord ++ [.startLeader 1]) := by
  have ran : ∃ before after, run (step fun _ => none) quiet lateRecord = some before ∧
      step (fun _ => none) before (.startLeader 1) = some after ∧
      Event.starts? before (.startLeader 1) = some exampleKey ∧
      before.clock.nanos = secs 10 ∧ before.pledges = [(exampleKey, secs 15)] :=
    ⟨_, _, rfl, rfl, rfl, rfl, rfl⟩
  obtain ⟨before, after, reached, stepped, starts, clock, pledges⟩ := ran
  refine ⟨before, reached, clock, pledges, fun respects => ?_⟩
  have early := (along_at respects reached stepped).1 exampleKey starts (secs 15)
    (by rw [pledges]; exact List.mem_singleton_self _)
  rw [clock] at early
  exact absurd early (by decide)

end Sumidero.Server
