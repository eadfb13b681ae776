import Sumidero.Server.FlightMoves

namespace Sumidero.Server

open Sumidero.Cache Sumidero.Dns Sumidero.Data

/-! Single flight: one leader and one refresh a key, and no query left without an
outcome, in any interleaving of clients, tasks, panics and cancellations. -/

namespace Flight

/-- A leader whose guard on the key is alive. -/
def Leads (flight : Flight) (key : CacheKey) (leader : Nat) : Prop :=
  ∃ task, flight.leaders[leader]? = some task ∧ task.key = key ∧ task.phase.guardAlive = true

/-- A refresh whose guard on the key is alive. -/
def Refreshes (flight : Flight) (key : CacheKey) (refresh : Nat) : Prop :=
  ∃ task, flight.refreshes[refresh]? = some task ∧ task.key = key ∧ task.phase.guardAlive = true

def Published (flight : Flight) (leader : Nat) (result : Resolved) : Prop :=
  ∃ task, flight.leaders[leader]? = some task ∧ task.sent = some result

end Flight

def LeaderPhase.done : LeaderPhase → Bool
  | .published | .ended => true
  | _ => false

/-- What the maps say about the tasks, and the clients about the leaders. -/
structure Coherent (flight : Flight) : Prop where
  lookups : ∀ {key leader}, flight.lookups key = some leader ↔ flight.Leads key leader
  refreshing : ∀ {key}, flight.refreshing key = true ↔ ∃ refresh, flight.Refreshes key refresh
  oneRefresh : ∀ {key first second}, flight.Refreshes key first → flight.Refreshes key second →
    first = second
  unsent : ∀ {leader : Nat} {task : Leader}, flight.leaders[leader]? = some task →
    task.phase.done = false → task.sent = none
  waiting : ∀ {client leader late}, flight.clients client = .waiting leader late →
    late = false ∧ ∃ task, flight.leaders[leader]? = some task
  served : ∀ {client leader outcome}, flight.clients client = .served leader outcome →
    outcome = .servfail ∨ ∃ answer, outcome = .answer answer ∧ flight.Published leader (some answer)

/-- Maps and tasks are the same. -/
structure SameTasks (before after : Flight) : Prop where
  lookups : after.lookups = before.lookups
  refreshing : after.refreshing = before.refreshing
  leaders : after.leaders = before.leaders
  refreshes : after.refreshes = before.refreshes

section Frames

variable {before after : Flight}

theorem SameTasks.leads (same : SameTasks before after) (key : CacheKey) (leader : Nat) :
    after.Leads key leader ↔ before.Leads key leader := by
  simp only [Flight.Leads]
  rw [same.leaders]

theorem SameTasks.refreshes_iff (same : SameTasks before after) (key : CacheKey) (refresh : Nat) :
    after.Refreshes key refresh ↔ before.Refreshes key refresh := by
  simp only [Flight.Refreshes]
  rw [same.refreshes]

theorem SameTasks.published (same : SameTasks before after) (leader : Nat) (result : Resolved) :
    after.Published leader result ↔ before.Published leader result := by
  simp only [Flight.Published]
  rw [same.leaders]

/-- A client that moves alone, to a wait on a known leader or to an outcome it got. -/
theorem Coherent.client (inv : Coherent before) (same : SameTasks before after) (client : Nat)
    (new : ClientPhase) (clients : after.clients = Function.update before.clients client new)
    (waiting : ∀ leader late, new = .waiting leader late →
      late = false ∧ ∃ task, before.leaders[leader]? = some task)
    (served : ∀ leader outcome, new = .served leader outcome →
      outcome = .servfail ∨
        ∃ answer, outcome = .answer answer ∧ before.Published leader (some answer)) :
    Coherent after := by
  refine ⟨?_, ?_, ?_, ?_, ?_, ?_⟩
  · intro key leader
    rw [same.lookups, same.leads]
    exact inv.lookups
  · intro key
    rw [same.refreshing]
    simp only [same.refreshes_iff]
    exact inv.refreshing
  · intro key first second one two
    exact inv.oneRefresh ((same.refreshes_iff key first).mp one) ((same.refreshes_iff key second).mp two)
  · intro leader task found
    rw [same.leaders] at found
    exact inv.unsent found
  · intro other leader late phase
    rw [clients] at phase
    rw [same.leaders]
    by_cases self : other = client
    · subst self
      rw [Function.update_self] at phase
      exact waiting leader late phase
    · rw [Function.update_of_ne self] at phase
      exact inv.waiting phase
  · intro other leader outcome phase
    rw [clients] at phase
    simp only [same.published]
    by_cases self : other = client
    · subst self
      rw [Function.update_self] at phase
      exact served leader outcome phase
    · rw [Function.update_of_ne self] at phase
      exact inv.served phase

theorem Coherent.sameTasks (inv : Coherent before) (same : SameTasks before after)
    (clients : after.clients = before.clients) : Coherent after :=
  inv.client same 0 (before.clients 0) (by rw [clients, Function.update_eq_self])
    (fun _ _ phase => inv.waiting phase) (fun _ _ phase => inv.served phase)

theorem Coherent.answered (inv : Coherent before) {client : Nat} {outcome : Outcome} :
    Coherent (before.setClient client (.answered outcome)) :=
  inv.client ⟨rfl, rfl, rfl, rfl⟩ client (.answered outcome) rfl (fun _ _ same => by cases same)
    (fun _ _ same => by cases same)

theorem leads_set {leader : Nat} {task new : Leader} (found : before.leaders[leader]? = some task)
    (leaders : after.leaders = before.leaders.set leader new) (key : CacheKey) (other : Nat) :
    after.Leads key other ↔ (other = leader ∧ new.key = key ∧ new.phase.guardAlive = true) ∨
      (other ≠ leader ∧ before.Leads key other) := by
  have bound : leader < before.leaders.length := (List.getElem?_eq_some_iff.mp found).1
  simp only [Flight.Leads]
  rw [leaders]
  by_cases self : other = leader
  · subst self
    simp [List.getElem?_set_self bound]
  · simp [List.getElem?_set_ne (Ne.symm self), self]

theorem refreshes_set {refresh : Nat} {task new : Refresh}
    (found : before.refreshes[refresh]? = some task)
    (refreshes : after.refreshes = before.refreshes.set refresh new) (key : CacheKey) (other : Nat) :
    after.Refreshes key other ↔ (other = refresh ∧ new.key = key ∧ new.phase.guardAlive = true) ∨
      (other ≠ refresh ∧ before.Refreshes key other) := by
  have bound : refresh < before.refreshes.length := (List.getElem?_eq_some_iff.mp found).1
  simp only [Flight.Refreshes]
  rw [refreshes]
  by_cases self : other = refresh
  · subst self
    simp [List.getElem?_set_self bound]
  · simp [List.getElem?_set_ne (Ne.symm self), self]

/-- A leader that moves on: what it has sent stays sent, and nothing is sent before
its phase says so. -/
theorem Coherent.leader (inv : Coherent before) {leader : Nat} {task new : Leader}
    (found : before.leaders[leader]? = some task)
    (leaders : after.leaders = before.leaders.set leader new)
    (lookups : ∀ {key other}, after.lookups key = some other ↔ after.Leads key other)
    (refreshing : after.refreshing = before.refreshing)
    (refreshes : after.refreshes = before.refreshes) (clients : after.clients = before.clients)
    (unsent : new.phase.done = false → new.sent = none)
    (sent : ∀ result, task.sent = some result → new.sent = some result) : Coherent after := by
  have bound : leader < before.leaders.length := (List.getElem?_eq_some_iff.mp found).1
  refine ⟨lookups, ?_, ?_, ?_, ?_, ?_⟩
  · intro key
    simp only [Flight.Refreshes]
    rw [refreshing, refreshes]
    exact inv.refreshing
  · intro key first second
    simp only [Flight.Refreshes]
    rw [refreshes]
    exact inv.oneRefresh
  · intro other otherTask otherFound
    rw [leaders] at otherFound
    by_cases self : other = leader
    · subst self
      rw [List.getElem?_set_self bound] at otherFound
      cases otherFound
      exact unsent
    · rw [List.getElem?_set_ne (Ne.symm self)] at otherFound
      exact inv.unsent otherFound
  · intro client other late phase
    rw [clients] at phase
    obtain ⟨early, known, was⟩ := inv.waiting phase
    refine ⟨early, ?_⟩
    rw [leaders]
    by_cases self : other = leader
    · subst self
      exact ⟨new, List.getElem?_set_self bound⟩
    · exact ⟨known, by rw [List.getElem?_set_ne (Ne.symm self)]; exact was⟩
  · intro client other outcome phase
    rw [clients] at phase
    refine (inv.served phase).imp_right ?_
    intro given
    obtain ⟨answer, same, publisher, was, published⟩ := given
    refine ⟨answer, same, ?_⟩
    simp only [Flight.Published]
    rw [leaders]
    by_cases self : other = leader
    · subst self
      rw [found] at was
      cases was
      exact ⟨new, List.getElem?_set_self bound, sent _ published⟩
    · exact ⟨publisher, by rw [List.getElem?_set_ne (Ne.symm self)]; exact was, published⟩

theorem Coherent.keepGuard (inv : Coherent before) {leader : Nat} {task new : Leader}
    (found : before.leaders[leader]? = some task)
    (leaders : after.leaders = before.leaders.set leader new)
    (lookups : after.lookups = before.lookups) (key : new.key = task.key)
    (guarded : new.phase.guardAlive = task.phase.guardAlive) {name : CacheKey} {other : Nat} :
    after.lookups name = some other ↔ after.Leads name other := by
  rw [leads_set found leaders, lookups, inv.lookups, key, guarded]
  by_cases self : other = leader
  · subst self
    simp [Flight.Leads, found]
  · simp [self]

theorem Coherent.dropGuard (inv : Coherent before) {leader : Nat} {task new : Leader}
    (found : before.leaders[leader]? = some task)
    (leaders : after.leaders = before.leaders.set leader new)
    (lookups : after.lookups = Function.update before.lookups task.key none)
    (held : task.phase.guardAlive = true) (dropped : new.phase.guardAlive = false)
    {name : CacheKey} {other : Nat} :
    after.lookups name = some other ↔ after.Leads name other := by
  have own : before.Leads task.key leader := ⟨task, found, rfl, held⟩
  rw [leads_set found leaders, lookups, dropped]
  by_cases same : name = task.key
  · subst same
    have unique : before.Leads task.key other → other = leader := fun leads =>
      Option.some.inj ((inv.lookups.mpr leads).symm.trans (inv.lookups.mpr own))
    simp only [Function.update_self, Bool.false_eq_true, and_false, false_or, false_iff,
      reduceCtorEq, not_and]
    exact fun different leads => different (unique leads)
  · rw [Function.update_of_ne same, inv.lookups]
    simp only [Bool.false_eq_true, and_false, false_or]
    refine ⟨fun leads => ⟨?_, leads⟩, And.right⟩
    intro equal
    subst equal
    obtain ⟨holder, was, key, _⟩ := leads
    rw [found] at was
    cases was
    exact same key.symm

theorem Coherent.leaderKeeps (inv : Coherent before) {leader : Nat} {task new : Leader}
    (found : before.leaders[leader]? = some task)
    (leaders : after.leaders = before.leaders.set leader new)
    (lookups : after.lookups = before.lookups) (refreshing : after.refreshing = before.refreshing)
    (refreshes : after.refreshes = before.refreshes) (clients : after.clients = before.clients)
    (key : new.key = task.key) (guarded : new.phase.guardAlive = task.phase.guardAlive)
    (unsent : new.phase.done = false → new.sent = none)
    (sent : ∀ result, task.sent = some result → new.sent = some result) : Coherent after :=
  inv.leader found leaders (inv.keepGuard found leaders lookups key guarded) refreshing refreshes
    clients unsent sent

theorem Coherent.leaderDrops (inv : Coherent before) {leader : Nat} {task new : Leader}
    (found : before.leaders[leader]? = some task)
    (leaders : after.leaders = before.leaders.set leader new)
    (lookups : after.lookups = Function.update before.lookups task.key none)
    (refreshing : after.refreshing = before.refreshing)
    (refreshes : after.refreshes = before.refreshes) (clients : after.clients = before.clients)
    (held : task.phase.guardAlive = true) (dropped : new.phase.guardAlive = false)
    (unsent : new.phase.done = false → new.sent = none)
    (sent : ∀ result, task.sent = some result → new.sent = some result) : Coherent after :=
  inv.leader found leaders (inv.dropGuard found leaders lookups held dropped) refreshing refreshes
    clients unsent sent

theorem Coherent.refresh (inv : Coherent before) {refresh : Nat} {task new : Refresh}
    (found : before.refreshes[refresh]? = some task)
    (refreshes : after.refreshes = before.refreshes.set refresh new)
    (key : new.key = task.key) (held : task.phase.guardAlive = true)
    (refreshing : after.refreshing =
      Function.update before.refreshing task.key new.phase.guardAlive)
    (lookups : after.lookups = before.lookups) (leaders : after.leaders = before.leaders)
    (clients : after.clients = before.clients) : Coherent after := by
  have own : before.Refreshes task.key refresh := ⟨task, found, rfl, held⟩
  refine ⟨?_, ?_, ?_, ?_, ?_, ?_⟩
  · simp only [Flight.Leads]
    rw [lookups, leaders]
    exact inv.lookups
  · intro name
    simp only [refreshes_set found refreshes, refreshing, key]
    by_cases same : name = task.key
    · subst same
      rw [Function.update_self]
      constructor
      · exact fun alive => ⟨refresh, .inl ⟨rfl, rfl, alive⟩⟩
      · intro given
        rcases given with ⟨other, ⟨_, _, alive⟩ | ⟨different, active⟩⟩
        · exact alive
        · exact absurd (inv.oneRefresh active own) different
    · rw [Function.update_of_ne same, inv.refreshing]
      constructor
      · intro given
        obtain ⟨other, active⟩ := given
        refine ⟨other, .inr ⟨?_, active⟩⟩
        intro equal
        subst equal
        obtain ⟨holder, was, itsKey, _⟩ := active
        rw [found] at was
        cases was
        exact same itsKey.symm
      · intro given
        rcases given with ⟨other, ⟨_, itsKey, _⟩ | ⟨_, active⟩⟩
        · exact absurd itsKey.symm same
        · exact ⟨other, active⟩
  · intro name first second one two
    rw [refreshes_set found refreshes, key] at one two
    rcases one with ⟨rfl, rfl, _⟩ | ⟨differ, one⟩ <;> rcases two with ⟨rfl, same, _⟩ | ⟨differs, two⟩
    · rfl
    · exact absurd (inv.oneRefresh two own) differs
    · subst same
      exact absurd (inv.oneRefresh one own) differ
    · exact inv.oneRefresh one two
  · intro leader other was
    rw [leaders] at was
    exact inv.unsent was
  · intro client leader late phase
    rw [clients] at phase
    rw [leaders]
    exact inv.waiting phase
  · intro client leader outcome phase
    rw [clients] at phase
    simp only [Flight.Published]
    rw [leaders]
    exact inv.served phase

theorem getElem?_spawned {α : Type} {tasks : List α} {index : Nat} {new task : α}
    (found : (tasks ++ [new])[index]? = some task) :
    tasks[index]? = some task ∨ index = tasks.length ∧ task = new := by
  rcases Nat.lt_or_ge index tasks.length with below | above
  · rw [List.getElem?_append_left below] at found
    exact .inl found
  · obtain ⟨bound, same⟩ := List.getElem?_eq_some_iff.mp found
    rw [List.length_append, List.length_singleton] at bound
    obtain rfl : index = tasks.length := by omega
    exact .inr ⟨rfl, by simpa using same.symm⟩

theorem getElem?_moved {α : Type} {tasks : List α} {index other : Nat} {new task : α}
    (found : (tasks.set index new)[other]? = some task) :
    task = new ∨ tasks[other]? = some task := by
  rw [List.getElem?_set] at found
  split at found
  · split at found
    · exact .inl (Option.some.inj found).symm
    · contradiction
  · exact .inr found

theorem getElem?_kept {α : Type} {tasks : List α} {index : Nat} {new task : α}
    (found : tasks[index]? = some task) : (tasks ++ [new])[index]? = some task := by
  rw [List.getElem?_append_left (List.getElem?_eq_some_iff.mp found).1]
  exact found

theorem getElem?_new {α : Type} (tasks : List α) (new : α) :
    (tasks ++ [new])[tasks.length]? = some new := by
  simp

theorem Coherent.lead (inv : Coherent before) {client : Nat} {query : Asking}
    (free : before.lookups query.key = none) : Coherent (before.lead client query) := by
  refine ⟨?_, inv.refreshing, inv.oneRefresh, ?_, ?_, ?_⟩
  · intro name other
    by_cases same : name = query.key
    · subst same
      rw [show (before.lead client query).lookups query.key = some before.leaders.length from
        Function.update_self ..]
      constructor
      · intro new
        cases new
        exact ⟨.spawn query, getElem?_new .., rfl, rfl⟩
      · intro given
        obtain ⟨task, found, key, guarded⟩ := given
        rcases getElem?_spawned found with earlier | ⟨rfl, _⟩
        · have leads := inv.lookups.mpr ⟨task, earlier, key, guarded⟩
          rw [free] at leads
          contradiction
        · rfl
    · rw [show (before.lead client query).lookups name = before.lookups name from
        Function.update_of_ne same .., inv.lookups]
      constructor
      · intro given
        obtain ⟨task, found, key, guarded⟩ := given
        exact ⟨task, getElem?_kept found, key, guarded⟩
      · intro given
        obtain ⟨task, found, key, guarded⟩ := given
        rcases getElem?_spawned found with earlier | ⟨_, rfl⟩
        · exact ⟨task, earlier, key, guarded⟩
        · exact absurd key.symm same
  · intro other task found
    rcases getElem?_spawned found with earlier | ⟨_, rfl⟩
    · exact inv.unsent earlier
    · exact fun _ => rfl
  · intro other leader late phase
    by_cases self : other = client
    · subst self
      rw [show (before.lead other query).clients other = .waiting before.leaders.length false from
        Function.update_self ..] at phase
      cases phase
      exact ⟨rfl, .spawn query, getElem?_new ..⟩
    · rw [show (before.lead client query).clients other = before.clients other from
        Function.update_of_ne self ..] at phase
      obtain ⟨early, task, found⟩ := inv.waiting phase
      exact ⟨early, task, getElem?_kept found⟩
  · intro other leader outcome phase
    by_cases self : other = client
    · subst self
      rw [show (before.lead other query).clients other = .waiting before.leaders.length false from
        Function.update_self ..] at phase
      contradiction
    · rw [show (before.lead client query).clients other = before.clients other from
        Function.update_of_ne self ..] at phase
      refine (inv.served phase).imp_right ?_
      intro given
      obtain ⟨answer, same, task, found, published⟩ := given
      exact ⟨answer, same, task, getElem?_kept found, published⟩

/-- Joining a key's leader comes before anything it publishes. -/
theorem Coherent.subscribe (inv : Coherent before) {client : Nat} {query : Asking} :
    Coherent (before.subscribe client query) := by
  simp only [Flight.subscribe]
  cases leads : before.lookups query.key with
  | none => exact inv.lead leads
  | some leader =>
      obtain ⟨task, found, _, guarded⟩ := inv.lookups.mp leads
      have quiet : task.sent = none := inv.unsent found (by
        cases phase : task.phase <;> rw [phase] at guarded <;> first | rfl | contradiction)
      refine inv.client ⟨rfl, rfl, rfl, rfl⟩ client _ rfl ?_ ?_
      · intro other late same
        cases same
        exact ⟨by simp [found, quiet], task, found⟩
      · intro other outcome same
        contradiction

theorem Coherent.spawnRefresh (inv : Coherent before) {query : Asking} :
    Coherent (before.spawnRefresh query) := by
  simp only [Flight.spawnRefresh]
  split
  · exact inv
  · rename_i idle
    have none : ∀ refresh, ¬ before.Refreshes query.key refresh :=
      fun refresh active => idle (inv.refreshing.mpr ⟨refresh, active⟩)
    refine ⟨inv.lookups, ?_, ?_, inv.unsent, inv.waiting, inv.served⟩
    · intro name
      by_cases same : name = query.key
      · subst same
        simp only [Function.update_self, true_iff]
        exact ⟨before.refreshes.length, .spawn query, getElem?_new .., rfl, rfl⟩
      · simp only [Function.update_of_ne same, inv.refreshing]
        constructor
        · intro given
          obtain ⟨refresh, task, found, key, guarded⟩ := given
          exact ⟨refresh, task, getElem?_kept found, key, guarded⟩
        · intro given
          obtain ⟨refresh, task, found, key, guarded⟩ := given
          rcases getElem?_spawned found with earlier | ⟨_, rfl⟩
          · exact ⟨refresh, task, earlier, key, guarded⟩
          · exact absurd key.symm same
    · intro name first second given also
      obtain ⟨one, foundOne, keyOne, aliveOne⟩ := given
      obtain ⟨two, foundTwo, keyTwo, aliveTwo⟩ := also
      rcases getElem?_spawned foundOne with earlierOne | ⟨rfl, rfl⟩ <;>
        rcases getElem?_spawned foundTwo with earlierTwo | ⟨rfl, rfl⟩
      · exact inv.oneRefresh ⟨one, earlierOne, keyOne, aliveOne⟩
          ⟨two, earlierTwo, keyTwo, aliveTwo⟩
      · exact absurd ⟨one, earlierOne, keyOne.trans keyTwo.symm, aliveOne⟩ (none first)
      · exact absurd ⟨two, earlierTwo, keyTwo.trans keyOne.symm, aliveTwo⟩ (none second)
      · rfl

theorem conclude_eq {key : CacheKey} {now : Instant} {result : Resolved} {victim : CacheKey}
    {stored : Option Message}
    (concluded : before.conclude key now result victim = some (after, stored)) :
    ∃ failures pledges, after = { before with failures, pledges } := by
  have recorded : ∀ {next}, before.recordFailure key now victim = some next →
      ∃ failures pledges, next = { before with failures, pledges } := by
    intro next ran
    obtain ⟨⟨failures, hold⟩, _, same⟩ := Option.bind_eq_some_iff.mp ran
    cases same
    exact ⟨_, _, rfl⟩
  simp only [Flight.conclude] at concluded
  split at concluded
  · obtain ⟨next, ran, same⟩ := Option.bind_eq_some_iff.mp concluded
    cases same
    exact recorded ran
  · split at concluded
    · obtain ⟨next, ran, same⟩ := Option.bind_eq_some_iff.mp concluded
      cases same
      exact recorded ran
    · cases concluded
      exact ⟨_, _, rfl⟩

/-- What a client receives is what its leader published, or SERVFAIL. -/
theorem receive_cases {flight : Flight} {leader : Nat} {late : Bool} {outcome : Outcome}
    (received : flight.receive leader late = some outcome) :
    outcome = .servfail ∨
      ∃ answer, outcome = .answer answer ∧ flight.Published leader (some answer) := by
  obtain ⟨task, found, got⟩ := Option.bind_eq_some_iff.mp received
  split at got
  · rename_i answer sent
    cases got
    exact .inr ⟨answer, rfl, task, found, sent⟩
  · cases got
    exact .inl rfl
  · split at got
    · contradiction
    · cases got
      exact .inl rfl

end Frames

theorem LeaderMove.guardAlive {old new : LeaderPhase} (moved : LeaderMove old new) :
    new.guardAlive = old.guardAlive := by
  cases moved <;> rfl

theorem LeaderMove.done {old new : LeaderPhase} (moved : LeaderMove old new)
    (running : new.done = false) : old.done = false := by
  cases moved with
  | crash quiet =>
      cases old with
      | published => exact absurd rfl quiet.1
      | ended => exact absurd rfl quiet.2.1
      | _ => rfl
  | finish => contradiction
  | _ => rfl

theorem DropGuard.guard {old new : LeaderPhase} (moved : DropGuard old new) :
    old.guardAlive = true ∧ new.guardAlive = false ∧ old.done = false := by
  cases moved <;> exact ⟨rfl, rfl, rfl⟩

theorem RefreshMove.guard {flight : Flight} {key : CacheKey} {old new : RefreshPhase}
    (moved : RefreshMove flight key old new) : old.guardAlive = true ∧ new.guardAlive = true := by
  cases moved <;> exact ⟨rfl, rfl⟩

theorem Coherent.keepRefreshing {flight : Flight} (inv : Coherent flight) {refresh : Nat}
    {task : Refresh} (found : flight.refreshes[refresh]? = some task)
    (held : task.phase.guardAlive = true) {new : RefreshPhase} (kept : new.guardAlive = true) :
    flight.refreshing = Function.update flight.refreshing task.key new.guardAlive := by
  rw [kept, ← inv.refreshing.mpr ⟨refresh, task, found, rfl, held⟩, Function.update_eq_self]

theorem coherent_move {before after : Flight} {event : Event} (inv : Coherent before)
    (moved : Move before event after) : Coherent after := by
  cases moved with
  | tick forward => exact inv.sameTasks ⟨rfl, rfl, rfl, rfl⟩ rfl
  | client cache _ waiting moved =>
      refine inv.client ⟨rfl, rfl, rfl, rfl⟩ _ _ rfl ?_ ?_
      · intro leader late equal
        subst equal
        cases moved
      · intro leader outcome equal
        subst equal
        cases moved with
        | recv received => exact receive_cases received
  | subscribe waiting => exact inv.subscribe
  | refreshSection waiting =>
      exact inv.spawnRefresh.answered
  | leader cache _ found moved =>
      have unsent := fun running => inv.unsent found (moved.done running)
      exact inv.leaderKeeps found rfl rfl rfl rfl rfl rfl moved.guardAlive unsent fun _ => id
  | dropGuard found moved =>
      obtain ⟨held, dropped, running⟩ := moved.guard
      have unsent := inv.unsent found running
      exact inv.leaderDrops found rfl rfl rfl rfl rfl held dropped (fun _ => unsent) fun _ => id
  | publish found unguarded =>
      have quiet := inv.unsent found (by rw [unguarded]; rfl)
      refine inv.leaderKeeps found rfl rfl rfl rfl rfl rfl (by rw [unguarded]; rfl) nofun ?_
      intro result sent
      rw [quiet] at sent
      contradiction
  | concludeLeader found resolving concluded =>
      rename_i stored
      obtain ⟨failures, pledges, rfl⟩ := conclude_eq concluded
      have next : Coherent { before with failures, pledges } :=
        inv.sameTasks ⟨rfl, rfl, rfl, rfl⟩ rfl
      have unsent := next.unsent found (by rw [resolving]; rfl)
      refine next.leaderKeeps found rfl rfl rfl rfl rfl rfl ?_ (fun _ => unsent) fun _ => id
      rw [resolving]
      cases stored <;> rfl
  | refresh cache _ found moved =>
      obtain ⟨held, kept⟩ := moved.guard
      exact inv.refresh found rfl rfl held (inv.keepRefreshing found held kept) rfl rfl rfl
  | concludeRefresh found resolving concluded =>
      rename_i task _ stored
      obtain ⟨failures, pledges, rfl⟩ := conclude_eq concluded
      have next : Coherent { before with failures, pledges } :=
        inv.sameTasks ⟨rfl, rfl, rfl, rfl⟩ rfl
      have held : task.phase.guardAlive = true := by rw [resolving]; rfl
      refine next.refresh found rfl rfl held (next.keepRefreshing found held ?_) rfl rfl rfl
      cases stored <;> rfl
  | endRefresh found running =>
      refine inv.refresh found rfl rfl ?_ rfl rfl rfl rfl
      rename_i task
      cases phase : task.phase <;> first | rfl | exact absurd phase running

theorem sound_move {before after : Flight} {event : Event} (sound : before.cache.Sound)
    (moved : Move before event after) : after.cache.Sound := by
  cases moved with
  | client cache kept => exact kept sound
  | leader cache kept => exact kept sound
  | refresh cache kept => exact kept sound
  | subscribe =>
      simp only [Flight.subscribe]
      split <;> exact sound
  | refreshSection =>
      simp only [Flight.spawnRefresh]
      split <;> exact sound
  | concludeLeader _ _ concluded =>
      obtain ⟨failures, pledges, rfl⟩ := conclude_eq concluded
      exact sound
  | concludeRefresh _ _ concluded =>
      obtain ⟨failures, pledges, rfl⟩ := conclude_eq concluded
      exact sound
  | _ => exact sound

/-- What holds of a pipeline in every reachable state. -/
structure Reached (flight : Flight) : Prop extends Coherent flight where
  sound : flight.cache.Sound

theorem reached_initial {start : Flight} (initial : Initial start) : Reached start := by
  refine ⟨⟨?_, ?_, ?_, ?_, ?_, ?_⟩, initial.cache⟩
  · simp [initial.lookups, Flight.Leads, initial.leaders]
  · simp [initial.refreshing, Flight.Refreshes, initial.refreshes]
  · simp [Flight.Refreshes, initial.refreshes]
  · simp [initial.leaders]
  · simp [initial.clients]
  · simp [initial.clients]

theorem reached_step {wireLen : Message → Option Nat} {before after : Flight} {event : Event}
    (inv : Reached before) (stepped : step wireLen before event = some after) : Reached after :=
  ⟨coherent_move inv.toCoherent (step_move stepped), sound_move inv.sound (step_move stepped)⟩

/-- The guarantees of single flight in one state. -/
structure SingleFlight (flight : Flight) : Prop where
  oneLeader : ∀ {key first second}, flight.Leads key first → flight.Leads key second →
    first = second
  lookups : ∀ key, (flight.lookups key).isSome = true ↔ ∃ leader, flight.Leads key leader
  oneRefresh : ∀ {key first second}, flight.Refreshes key first → flight.Refreshes key second →
    first = second
  refreshing : ∀ key, flight.refreshing key = true ↔ ∃ refresh, flight.Refreshes key refresh
  /-- Its result is in the channel, a sender is left, or the channel is closed; and
  the channel was quiet when the query subscribed. -/
  waiting : ∀ {client leader late}, flight.clients client = .waiting leader late → late = false ∧
    ((∃ result, flight.Published leader result) ∨ flight.senderAlive leader ∨
      flight.receive leader late = some .servfail)
  served : ∀ {client leader outcome}, flight.clients client = .served leader outcome →
    outcome = .servfail ∨ ∃ answer, outcome = .answer answer ∧ flight.Published leader (some answer)

theorem Coherent.singleFlight {flight : Flight} (inv : Coherent flight) : SingleFlight flight where
  oneLeader := fun one two => Option.some.inj ((inv.lookups.mpr one).symm.trans (inv.lookups.mpr two))
  lookups := by
    intro key
    rw [Option.isSome_iff_exists]
    exact exists_congr fun leader => inv.lookups
  oneRefresh := inv.oneRefresh
  refreshing := fun _ => inv.refreshing
  waiting := by
    intro client leader late phase
    obtain ⟨rfl, task, found⟩ := inv.waiting phase
    refine ⟨rfl, ?_⟩
    cases sent : task.sent with
    | some result => exact .inl ⟨result, task, found, sent⟩
    | none =>
        refine .inr ?_
        by_cases alive : task.phase.txAlive = true ∨ flight.lookups task.key = some leader
        · exact .inl ⟨task, found, alive⟩
        · exact .inr (by simp [Flight.receive, found, sent, alive])
  served := inv.served

theorem served_step {wireLen : Message → Option Nat} {before after : Flight} {event : Event}
    (stepped : step wireLen before event = some after) {client leader : Nat} {outcome : Outcome}
    (served : before.clients client = .served leader outcome) :
    after.clients client = .served leader outcome := by
  have elsewhere : ∀ {other : Nat} {old new : ClientPhase}, before.clients other = old →
      (∀ leader outcome, old ≠ .served leader outcome) →
      Function.update before.clients other new client = .served leader outcome := by
    intro other old new phase unserved
    rw [Function.update_of_ne]
    · exact served
    · intro equal
      subst equal
      exact unserved _ _ (phase.symm.trans served)
  cases step_move stepped with
  | client cache sound waiting moved =>
      refine elsewhere waiting fun leader outcome same => ?_
      subst same
      cases moved
  | subscribe waiting =>
      simp only [Flight.subscribe]
      split
      · exact elsewhere waiting fun _ _ same => by cases same
      · exact elsewhere waiting fun _ _ same => by cases same
  | refreshSection waiting =>
      rw [← before.spawnRefresh_clients] at elsewhere
      exact elsewhere ((congrFun (before.spawnRefresh_clients _) _).trans waiting)
        fun _ _ same => by cases same
  | concludeLeader _ _ concluded =>
      obtain ⟨failures, pledges, rfl⟩ := conclude_eq concluded
      exact served
  | concludeRefresh _ _ concluded =>
      obtain ⟨failures, pledges, rfl⟩ := conclude_eq concluded
      exact served
  | _ => exact served

/-! A waiting client gets its outcome: some run of its leader's steps leads there. -/

def CanServe (wireLen : Message → Option Nat) (flight : Flight) (client leader : Nat) : Prop :=
  ∃ more after outcome, run (step wireLen) flight more = some after ∧
    after.clients client = .served leader outcome

section Progress

variable {wireLen : Message → Option Nat} {flight : Flight} {client leader : Nat} {task : Leader}

theorem canServe_step {next : Flight} {event : Event}
    (stepped : step wireLen flight event = some next) (can : CanServe wireLen next client leader) :
    CanServe wireLen flight client leader := by
  obtain ⟨more, after, outcome, ran, served⟩ := can
  exact ⟨event :: more, after, outcome, (run_cons_of_step more stepped).trans ran, served⟩

theorem canServe_receive (waits : flight.clients client = .waiting leader false)
    {outcome : Outcome} (received : flight.receive leader false = some outcome) :
    CanServe wireLen flight client leader := by
  refine ⟨[.recv client], flight.setClient client (.served leader outcome), outcome, ?_, ?_⟩
  · simp [run, step, waits, received]
  · exact Function.update_self ..

theorem setLeader_found (found : flight.leaders[leader]? = some task) (new : Leader)
    (phase : LeaderPhase) :
    (flight.setLeader leader new phase).leaders[leader]? = some { new with phase } :=
  List.getElem?_set_self (List.getElem?_eq_some_iff.mp found).1

theorem canServe_sent (waits : flight.clients client = .waiting leader false)
    (found : flight.leaders[leader]? = some task) {result : Resolved}
    (sent : task.sent = some result) : CanServe wireLen flight client leader := by
  cases result with
  | none =>
      have received : flight.receive leader false = some .servfail := by
        simp [Flight.receive, found, sent]
      exact canServe_receive waits received
  | some answer =>
      have received : flight.receive leader false = some (.answer answer) := by
        simp [Flight.receive, found, sent]
      exact canServe_receive waits received

theorem canServe_closed (waits : flight.clients client = .waiting leader false)
    (found : flight.leaders[leader]? = some task) (tx : task.phase.txAlive = false)
    (unlisted : flight.lookups task.key ≠ some leader) : CanServe wireLen flight client leader := by
  cases sent : task.sent with
  | some result => exact canServe_sent waits found sent
  | none =>
      have received : flight.receive leader false = some .servfail := by
        simp [Flight.receive, found, sent, tx, unlisted]
      exact canServe_receive waits received

theorem canServe_unguarded {answer : Resolved} (waits : flight.clients client = .waiting leader false)
    (found : flight.leaders[leader]? = some task) (phase : task.phase = .unguarded answer) :
    CanServe wireLen flight client leader := by
  have stepped : step wireLen flight (.publish leader) =
      some (flight.setLeader leader { task with sent := some answer } .published) := by
    simp [step, found, phase]
  exact canServe_step stepped (canServe_sent waits (setLeader_found found ..) rfl)

theorem canServe_settled {answer : Resolved} (waits : flight.clients client = .waiting leader false)
    (found : flight.leaders[leader]? = some task) (phase : task.phase = .settled answer) :
    CanServe wireLen flight client leader := by
  have stepped : step wireLen flight (.dropGuard leader) =
      some ({ flight with lookups := Function.update flight.lookups task.key none }.setLeader leader
        task (.unguarded answer)) := by
    simp [step, found, phase]
  exact canServe_step stepped (canServe_unguarded waits (setLeader_found found ..) rfl)

theorem canServe_storing {answer : Message} (waits : flight.clients client = .waiting leader false)
    (found : flight.leaders[leader]? = some task) (phase : task.phase = .storing answer)
    (sound : flight.cache.Sound) : CanServe wireLen flight client leader := by
  obtain ⟨cache, inserted, _⟩ := sound.insert wireLen task.key answer task.now
  have stepped : step wireLen flight (.storeLeader leader) =
      some ({ flight with cache }.setLeader leader task (.settled (some answer))) := by
    simp [step, found, phase, inserted]
  exact canServe_step stepped (canServe_settled waits (setLeader_found found ..) rfl)

theorem canServe_resolving (waits : flight.clients client = .waiting leader false)
    (found : flight.leaders[leader]? = some task) (phase : task.phase = .resolving)
    (sound : flight.cache.Sound) : CanServe wireLen flight client leader := by
  have stepped : step wireLen flight
      (.concludeLeader leader (some (.new 0 .Response .Query)) task.key) =
      some ((flight.clearFailures task.key).setLeader leader task
        (.storing (.new 0 .Response .Query))) := by
    simp [step, found, phase, Flight.conclude, Message.new, Message.responseCode,
      LeaderPhase.concluded]
  exact canServe_step stepped (canServe_storing waits (setLeader_found found ..) rfl sound)

theorem canServe_unwinding {tx : Bool} (inv : Reached flight)
    (waits : flight.clients client = .waiting leader false)
    (found : flight.leaders[leader]? = some task) {kept : Bool}
    (phase : task.phase = .unwinding kept tx) : CanServe wireLen flight client leader := by
  -- without its guard the leader is not in the map, so only its own sender is left
  have unguarded : ∀ {flight : Flight} {task : Leader} {tx : Bool}, Reached flight →
      flight.clients client = .waiting leader false → flight.leaders[leader]? = some task →
      task.phase = .unwinding false tx → CanServe wireLen flight client leader := by
    intro flight task tx inv waits found phase
    have closed : ∀ {flight : Flight} {task : Leader}, Reached flight →
        flight.clients client = .waiting leader false → flight.leaders[leader]? = some task →
        task.phase = .unwinding false false → CanServe wireLen flight client leader := by
      intro flight task inv waits found phase
      refine canServe_closed waits found (by rw [phase]; rfl) fun listed => ?_
      obtain ⟨other, same, _, guarded⟩ := inv.lookups.mp listed
      cases found.symm.trans same
      rw [phase] at guarded
      contradiction
    cases tx with
    | false => exact closed inv waits found phase
    | true =>
        have stepped : step wireLen flight (.dropTx leader) =
            some (flight.setLeader leader task (.unwinding false false)) := by
          simp [step, found, phase]
        exact canServe_step stepped
          (closed (reached_step inv stepped) waits (setLeader_found found ..) rfl)
  cases kept with
  | false => exact unguarded inv waits found phase
  | true =>
      have stepped : step wireLen flight (.dropGuard leader) =
          some ({ flight with lookups := Function.update flight.lookups task.key none }.setLeader
            leader task (.unwinding false tx)) := by
        simp [step, found, phase]
      exact canServe_step stepped
        (unguarded (reached_step inv stepped) waits (setLeader_found found ..) rfl)

theorem canServe_ended (inv : Reached flight)
    (waits : flight.clients client = .waiting leader false)
    (found : flight.leaders[leader]? = some task) (phase : task.phase = .ended) :
    CanServe wireLen flight client leader := by
  refine canServe_closed waits found (by rw [phase]; rfl) fun listed => ?_
  obtain ⟨other, same, _, guarded⟩ := inv.lookups.mp listed
  cases found.symm.trans same
  rw [phase] at guarded
  contradiction

/-- From every reachable state, a waiting client can be served. -/
theorem canServe_waiting (inv : Reached flight)
    (waits : flight.clients client = .waiting leader false) :
    CanServe wireLen flight client leader := by
  obtain ⟨_, task, found⟩ := inv.waiting waits
  cases phase : task.phase with
  | spawned =>
      have stepped : step wireLen flight (.startLeader leader) =
          some (flight.setLeader leader task .resolving) := by
        simp [step, found, phase]
      exact canServe_step stepped
        (canServe_resolving waits (setLeader_found found ..) rfl inv.sound)
  | resolving => exact canServe_resolving waits found phase inv.sound
  | storing answer => exact canServe_storing waits found phase inv.sound
  | settled answer => exact canServe_settled waits found phase
  | unguarded answer => exact canServe_unguarded waits found phase
  | published =>
      have stepped : step wireLen flight (.dropTx leader) =
          some (flight.setLeader leader task .ended) := by
        simp [step, found, phase]
      exact canServe_step stepped
        (canServe_ended (reached_step inv stepped) waits (setLeader_found found ..) rfl)
  | unwinding kept tx => exact canServe_unwinding inv waits found phase
  | ended => exact canServe_ended inv waits found phase

end Progress

/-- A pipeline nothing has been asked of, with room for a thousand answers. -/
def quiet : Flight where
  clock := ⟨0, by decide⟩
  cache := .withLimits
    { capacity := 1000, maxBytes := 1000000, serveStaleSecs := 3600, capacity_pos := by decide,
      capacity_le := by decide, maxBytes_pos := by decide }
  failures := ∅
  lookups := fun _ => none
  refreshing := fun _ => false
  leaders := []
  refreshes := []
  clients := fun _ => .absent
  pledges := []

theorem quiet_initial : Initial quiet :=
  ⟨fun _ => rfl, fun _ => rfl, rfl, rfl, fun _ => rfl, ⟨[], withLimits_holds _⟩, rfl, rfl⟩

def exampleKey : CacheKey := .new { labels := [[119, 119, 119]], isFqdn := true } .A .IN

/-- One query arrives and finds nothing cached, nothing held. -/
def missing (client : Nat) : List Event :=
  [.arrive client (.new 1 .Query .Query) exampleKey, .lookup client, .checkHeld client, .join client]

/-- Two queries share one lookup. -/
def sharedLookup : List Event :=
  missing 0 ++ missing 1 ++
    [.startLeader 0, .concludeLeader 0 (some (.new 1 .Response .Query)) exampleKey, .storeLeader 0,
     .dropGuard 0, .publish 0, .recv 0, .recv 1]

/-- The leader dies before it publishes; its query has not polled its receiver yet. -/
def deadLeader : List Event := missing 0 ++ [.crashLeader 0, .dropTx 0, .dropGuard 0]

end Sumidero.Server
