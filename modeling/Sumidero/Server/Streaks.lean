import Mathlib.Data.List.MinMax
import Sumidero.Server.HoldDown

namespace Sumidero.Server

open Sumidero.Cache Sumidero.Data

/-! The bounded table of failures answers like one without a bound, and both like a
count of each key's consecutive failures. -/

inductive FailureOp where
  | held (key : CacheKey) (now : Instant)
  | record (key : CacheKey) (now : Instant) (victim : CacheKey)
  | clear (key : CacheKey)

inductive FailureAnswer where
  | left (time : Option Nat)
  | hold (time : Nat)
  | cleared
deriving Repr, DecidableEq

/-- Is the failure less than a minute past the end of its hold? -/
def Failure.live (failure : Failure) (now : Instant) : Bool :=
  now.nanos < failure.endsAt + MAX_HOLD

namespace FailureCache

def apply (failures : FailureCache) : FailureOp → Option (FailureCache × FailureAnswer)
  | .held key now => some (failures, .left (failures.held key now))
  | .record key now victim => do
      let (next, hold) ← failures.record key now victim
      return (next, .hold hold)
  | .clear key => some (failures.clear key, .cleared)

/-- The same operations on a table that never makes room. -/
def applyUnbounded (failures : FailureCache) : FailureOp → Option (FailureCache × FailureAnswer)
  | .held key now => some (failures, .left (failures.held key now))
  | .record key now _ =>
      let hold := failures.holdFor key now
      some (failures.insert key { endsAt := now.nanos + hold, hold }, .hold hold)
  | .clear key => some (failures.clear key, .cleared)

/-- The key is new, and as many others as the table may hold are live. -/
def Crowded (failures : FailureCache) (key : CacheKey) (now : Instant) : Prop :=
  key ∉ failures ∧
    MAX_KEYS ≤ (failures.entries.filter fun entry => entry.2.live now).length

end FailureCache

/-- A key's consecutive failures, and when the hold of the last one ends. -/
structure Streak where
  length : Nat
  endsAt : Nat
deriving Repr, DecidableEq

abbrev Streaks := CacheKey → Option Streak

/-- What this is for: the first failure of a streak is held for 5 s, each further one for
twice as long, up to a minute. -/
def holdOf (length : Nat) : Nat := min MAX_HOLD (FIRST_HOLD * 2 ^ (length - 1))

namespace Streaks

/-- How long a streak this failure makes: it continues one whose hold ended less than a
minute ago. -/
def next (streaks : Streaks) (key : CacheKey) (now : Instant) : Nat :=
  match streaks key with
  | some streak => if now.nanos < streak.endsAt + MAX_HOLD then streak.length + 1 else 1
  | none => 1

/-- Time left of the last recorded hold. -/
def held (streaks : Streaks) (key : CacheKey) (now : Instant) : Option Nat :=
  (streaks key).bind fun streak =>
    if now.nanos < streak.endsAt then some (streak.endsAt - now.nanos) else none

def apply (streaks : Streaks) : FailureOp → Option (Streaks × FailureAnswer)
  | .held key now => some (streaks, .left (streaks.held key now))
  | .record key now _ =>
      let length := streaks.next key now
      some (Function.update streaks key
        (some { length, endsAt := now.nanos + holdOf length }), .hold (holdOf length))
  | .clear key => some (Function.update streaks key none, .cleared)

end Streaks

section Counting

/-! The table without a bound counts. -/

/-- The unbounded table has for each key the last hold of its streak. -/
def Counts (failures : FailureCache) (streaks : Streaks) : Prop :=
  ∀ key, failures.lookup key = (streaks key).map (fun streak =>
    { endsAt := streak.endsAt, hold := holdOf streak.length }) ∧
    ∀ streak, streaks key = some streak → 1 ≤ streak.length

theorem holdOf_one : holdOf 1 = FIRST_HOLD := by decide

theorem holdOf_succ {length : Nat} (started : 1 ≤ length) :
    holdOf (length + 1) = min (holdOf length * 2) MAX_HOLD := by
  obtain ⟨count, rfl⟩ : ∃ count, length = count + 1 := ⟨length - 1, by omega⟩
  simp only [holdOf, Nat.add_sub_cancel, Nat.pow_succ]
  rw [← Nat.mul_assoc]
  omega

variable {failures : FailureCache} {streaks : Streaks} {key : CacheKey} {now : Instant}

theorem Counts.next (counts : Counts failures streaks) :
    failures.holdFor key now = holdOf (streaks.next key now) ∧ 1 ≤ streaks.next key now := by
  obtain ⟨same, started⟩ := counts key
  simp only [FailureCache.holdFor, Streaks.next]
  rw [same]
  cases found : streaks key with
  | none => exact ⟨holdOf_one.symm, Nat.le_refl _⟩
  | some streak =>
      simp only [Option.map_some]
      split
      · exact ⟨(holdOf_succ (started streak found)).symm, Nat.le_add_left ..⟩
      · exact ⟨holdOf_one.symm, Nat.le_refl _⟩

theorem Counts.held (counts : Counts failures streaks) :
    failures.held key now = streaks.held key now := by
  simp only [FailureCache.held, Streaks.held]
  rw [(counts key).1]
  cases streaks key <;> rfl

theorem Counts.update (counts : Counts failures streaks) {table : FailureCache}
    {new : Option Streak}
    (entered : table.lookup key = new.map fun streak =>
      { endsAt := streak.endsAt, hold := holdOf streak.length })
    (started : ∀ streak, new = some streak → 1 ≤ streak.length)
    (others : ∀ other, other ≠ key → table.lookup other = failures.lookup other) :
    Counts table (Function.update streaks key new) := by
  intro other
  by_cases same : other = key
  · subst same
    rw [Function.update_self]
    exact ⟨entered, started⟩
  · rw [Function.update_of_ne same, others other same]
    exact counts other

theorem counts_apply (counts : Counts failures streaks) (op : FailureOp) :
    ∃ table next answer, failures.applyUnbounded op = some (table, answer) ∧
      streaks.apply op = some (next, answer) ∧ Counts table next := by
  cases op with
  | held key now =>
      refine ⟨failures, streaks, _, rfl, ?_, counts⟩
      simp only [Streaks.apply, counts.held]
  | record key now victim =>
      have hold : failures.holdFor key now = holdOf (streaks.next key now) := counts.next.1
      have started : 1 ≤ streaks.next key now := counts.next.2
      let length := streaks.next key now
      refine ⟨failures.insert key { endsAt := now.nanos + holdOf length, hold := holdOf length },
        _, _, ?_, rfl, ?_⟩
      · simp only [FailureCache.applyUnbounded, hold, length]
      · refine counts.update (AList.lookup_insert _) ?_ fun other apart => AList.lookup_insert_ne apart
        intro streak same
        cases same
        exact started
  | clear key =>
      refine ⟨failures.clear key, _, .cleared, rfl, rfl, ?_⟩
      refine counts.update (AList.lookup_erase _ _) (fun _ same => by cases same) ?_
      exact fun other apart => AList.lookup_erase_ne apart

end Counting

section Bounded

/-! Making room is not seen while no live hold has to go. -/

namespace FailureCache

variable {failures room next : FailureCache} {key victim other : CacheKey} {now : Instant}
  {failure : Failure} {hold : Nat}

theorem lookup_retain {keep : Failure → Bool} :
    (failures.retain keep).lookup key = some failure ↔
      failures.lookup key = some failure ∧ keep failure = true := by
  constructor
  · intro found
    have member := List.mem_filter.mp (AList.mem_lookup_iff.mp found)
    exact ⟨AList.mem_lookup_iff.mpr member.1, member.2⟩
  · intro given
    exact AList.mem_lookup_iff.mpr (List.mem_filter.mpr ⟨AList.mem_lookup_iff.mp given.1, given.2⟩)

theorem entries_length (failures : FailureCache) :
    failures.entries.length = failures.keys.length :=
  (List.length_map ..).symm

theorem insert_length (absent : key ∉ failures) :
    (failures.insert key failure).entries.length = failures.entries.length + 1 := by
  rw [AList.entries_insert_of_notMem absent, List.length_cons]

theorem insert_length_of_mem (present : key ∈ failures) :
    (failures.insert key failure).entries.length = failures.entries.length := by
  have some_key := List.length_pos_of_mem (AList.mem_keys.mp present)
  rw [entries_length, entries_length, AList.keys_insert, List.length_cons,
    List.length_erase_of_mem (AList.mem_keys.mp present)]
  omega

theorem erase_length (present : key ∈ failures) :
    (failures.erase key).entries.length + 1 = failures.entries.length := by
  have some_key := List.length_pos_of_mem (AList.mem_keys.mp present)
  rw [entries_length, entries_length, AList.keys_erase,
    List.length_erase_of_mem (AList.mem_keys.mp present)]
  omega

/-- How room is made: it is there, or comes from idle entries, or from the oldest hold. -/
inductive MakesRoom (failures : FailureCache) (key : CacheKey) (now : Instant)
    (victim : CacheKey) : FailureCache → Prop
  | ready (given : key ∈ failures ∨ failures.entries.length < MAX_KEYS) :
      MakesRoom failures key now victim failures
  | pruned (new : key ∉ failures)
      (freed : (failures.retain fun failure => failure.live now).entries.length < MAX_KEYS) :
      MakesRoom failures key now victim (failures.retain fun failure => failure.live now)
  | dropped (crowded : failures.Crowded key now)
      (oldest : (failures.retain fun failure => failure.live now).Oldest victim) :
      MakesRoom failures key now victim
        ((failures.retain fun failure => failure.live now).erase victim)

theorem makeRoom_makesRoom (made : failures.makeRoom key now victim = some room) :
    MakesRoom failures key now victim room := by
  unfold makeRoom at made
  simp only at made
  split at made
  · rename_i full
    split at made
    · rename_i crowd
      split at made
      · rename_i oldest
        cases made
        exact .dropped ⟨full.2, crowd⟩ oldest
      · contradiction
    · rename_i freed
      cases made
      exact .pruned full.2 (Nat.lt_of_not_le freed)
  · rename_i roomy
    cases made
    refine .ready ?_
    by_cases present : key ∈ failures
    · exact .inl present
    · exact .inr (Nat.lt_of_not_le fun full => roomy ⟨full, present⟩)

theorem record_room (recorded : failures.record key now victim = some (next, hold)) :
    ∃ room, failures.MakesRoom key now victim room ∧ hold = failures.holdFor key now ∧
      next = room.insert key { endsAt := now.nanos + hold, hold } := by
  obtain ⟨room, made, same⟩ := Option.bind_eq_some_iff.mp recorded
  cases same
  exact ⟨room, makeRoom_makesRoom made, rfl, rfl⟩

theorem MakesRoom.bounded (made : failures.MakesRoom key now victim room)
    (bounded : failures.entries.length ≤ MAX_KEYS) :
    (room.insert key failure).entries.length ≤ MAX_KEYS := by
  cases made with
  | ready given =>
      by_cases present : key ∈ failures
      · rw [insert_length_of_mem present]
        exact bounded
      · rw [insert_length present]
        exact given.resolve_left present
  | pruned new freed =>
      have absent : key ∉ failures.retain fun failure => failure.live now := by
        intro present
        obtain ⟨found, kept⟩ := Option.isSome_iff_exists.mp (AList.lookup_isSome.mpr present)
        exact new (AList.lookup_isSome.mp (by rw [(lookup_retain.mp kept).1]; rfl))
      rw [insert_length absent]
      exact freed
  | dropped crowded oldest =>
      obtain ⟨failure, found, _⟩ := oldest
      have present : victim ∈ failures.retain fun failure => failure.live now :=
        AList.lookup_isSome.mp (by rw [found]; rfl)
      have absent : key ∉ (failures.retain fun failure => failure.live now).erase victim := by
        intro kept
        obtain ⟨found, kept⟩ := Option.isSome_iff_exists.mp
          (AList.lookup_isSome.mpr (AList.mem_erase.mp kept).2)
        exact crowded.1 (AList.lookup_isSome.mp (by rw [(lookup_retain.mp kept).1]; rfl))
      have fewer : (failures.retain fun failure => failure.live now).entries.length ≤
          failures.entries.length := List.length_filter_le _ _
      have erased := erase_length present
      rw [insert_length absent]
      omega

theorem apply_bounded {op : FailureOp} {answer : FailureAnswer}
    (bounded : failures.entries.length ≤ MAX_KEYS)
    (applied : failures.apply op = some (next, answer)) : next.entries.length ≤ MAX_KEYS := by
  cases op with
  | held key now =>
      cases applied
      exact bounded
  | record key now victim =>
      obtain ⟨⟨table, hold⟩, recorded, same⟩ := Option.bind_eq_some_iff.mp applied
      cases same
      obtain ⟨room, made, _, rfl⟩ := record_room recorded
      exact made.bounded bounded
  | clear key =>
      cases applied
      exact Nat.le_trans ((List.kerase_sublist ..).length_le) bounded

/-- The bounded table has the failures of the unbounded one, but for some that are idle. -/
structure Agree (now : Nat) (bounded unbounded : FailureCache) : Prop where
  within : ∀ key failure, bounded.lookup key = some failure →
    unbounded.lookup key = some failure
  live : ∀ key failure, unbounded.lookup key = some failure →
    now < failure.endsAt + MAX_HOLD → bounded.lookup key = some failure

section Agreement

variable {bounded unbounded : FailureCache} {start : Nat}

/-- A failure missing from the bounded table is idle. -/
theorem Agree.idle (agree : Agree start bounded unbounded) {failure : Failure}
    (found : bounded.lookup key = none) (other : unbounded.lookup key = some failure) :
    failure.endsAt + MAX_HOLD ≤ start := by
  by_contra live
  rw [agree.live key failure other (Nat.lt_of_not_le live)] at found
  contradiction

theorem Agree.held (agree : Agree start bounded unbounded) (later : start ≤ now.nanos) :
    bounded.held key now = unbounded.held key now := by
  simp only [FailureCache.held]
  cases found : bounded.lookup key with
  | some failure => rw [agree.within key failure found]
  | none =>
      cases other : unbounded.lookup key with
      | none => rfl
      | some failure =>
          have idle := agree.idle found other
          simp only [Option.bind_none, Option.bind_some]
          rw [if_neg (by omega)]

theorem Agree.holdFor (agree : Agree start bounded unbounded) (later : start ≤ now.nanos) :
    bounded.holdFor key now = unbounded.holdFor key now := by
  simp only [FailureCache.holdFor]
  cases found : bounded.lookup key with
  | some failure => rw [agree.within key failure found]
  | none =>
      cases other : unbounded.lookup key with
      | none => rfl
      | some failure =>
          have idle := agree.idle found other
          simp only
          rw [if_neg (by omega)]

theorem MakesRoom.agree (made : bounded.MakesRoom key now victim room)
    (uncrowded : ¬ bounded.Crowded key now) (agree : Agree start bounded unbounded)
    (later : start ≤ now.nanos) : Agree now.nanos room unbounded := by
  have kept : Agree now.nanos bounded unbounded :=
    ⟨agree.within, fun key failure found live => agree.live key failure found (by omega)⟩
  cases made with
  | ready => exact kept
  | pruned =>
      constructor
      · intro other failure found
        exact agree.within other failure (lookup_retain.mp found).1
      · intro other failure found live
        exact lookup_retain.mpr ⟨kept.live other failure found live, decide_eq_true live⟩
  | dropped crowded => exact absurd crowded uncrowded

theorem Agree.insert (agree : Agree start bounded unbounded) (key : CacheKey)
    (failure : Failure) : Agree start (bounded.insert key failure) (unbounded.insert key failure) := by
  constructor
  · intro other found inBounded
    by_cases same : other = key
    · subst same
      rwa [AList.lookup_insert] at inBounded ⊢
    · rw [AList.lookup_insert_ne same] at inBounded ⊢
      exact agree.within other found inBounded
  · intro other found inUnbounded live
    by_cases same : other = key
    · subst same
      rwa [AList.lookup_insert] at inUnbounded ⊢
    · rw [AList.lookup_insert_ne same] at inUnbounded ⊢
      exact agree.live other found inUnbounded live

theorem Agree.erase (agree : Agree start bounded unbounded) (key : CacheKey) :
    Agree start (bounded.erase key) (unbounded.erase key) := by
  constructor
  · intro other found inBounded
    by_cases same : other = key
    · subst same
      rw [AList.lookup_erase] at inBounded
      contradiction
    · rw [AList.lookup_erase_ne same] at inBounded ⊢
      exact agree.within other found inBounded
  · intro other found inUnbounded live
    by_cases same : other = key
    · subst same
      rw [AList.lookup_erase] at inUnbounded
      contradiction
    · rw [AList.lookup_erase_ne same] at inUnbounded ⊢
      exact agree.live other found inUnbounded live

end Agreement

end FailureCache

end Bounded

def FailureOp.instant? : FailureOp → Option Nat
  | .held _ now => some now.nanos
  | .record _ now _ => some now.nanos
  | .clear _ => none

def Nondecreasing (ops : List FailureOp) : Prop :=
  (ops.filterMap FailureOp.instant?).Pairwise (· ≤ ·)

/-- No failure of a new key is recorded while the table is full of live holds. -/
def Uncrowded (before : FailureCache) (op : FailureOp) (_ : FailureCache) : Prop :=
  ∀ key now victim, op = .record key now victim → ¬ before.Crowded key now

/-- Such a failure costs one other key its hold, and none ends before that one. -/
def DropsOldest (before : FailureCache) (op : FailureOp) (after : FailureCache) : Prop :=
  ∀ key now victim, op = .record key now victim → before.Crowded key now →
    ∃ dropped, dropped ≠ key ∧ before.Oldest dropped ∧
      ∀ other, after.lookup other =
        if other = key then some { endsAt := now.nanos + FIRST_HOLD, hold := FIRST_HOLD }
        else if other = dropped then none else before.lookup other

namespace FailureCache

variable {failures room next : FailureCache} {key victim : CacheKey} {now : Instant}

theorem Crowded.retain (crowded : failures.Crowded key now)
    (bounded : failures.entries.length ≤ MAX_KEYS) :
    (failures.retain fun failure => failure.live now) = failures := by
  have all : (failures.entries.filter fun entry => entry.2.live now).length =
      failures.entries.length :=
    Nat.le_antisymm (List.length_filter_le _ _) (Nat.le_trans bounded crowded.2)
  refine AList.ext ?_
  exact List.filter_eq_self.mpr (List.length_filter_eq_length_iff.mp all)

theorem drops_oldest {op : FailureOp} {answer : FailureAnswer}
    (bounded : failures.entries.length ≤ MAX_KEYS)
    (applied : failures.apply op = some (next, answer)) : DropsOldest failures op next := by
  intro key now victim same crowded
  subst same
  obtain ⟨⟨table, hold⟩, recorded, same⟩ := Option.bind_eq_some_iff.mp applied
  cases same
  obtain ⟨room, made, first, rfl⟩ := record_room recorded
  have new : failures.lookup key = none := AList.lookup_eq_none.mpr crowded.1
  obtain rfl : hold = FIRST_HOLD := by rw [first, holdFor, new]
  cases made with
  | ready given =>
      have room := given.resolve_left crowded.1
      exact absurd (Nat.le_trans crowded.2 (List.length_filter_le _ _)) (Nat.not_le.mpr room)
  | pruned _ freed => exact absurd crowded.2 (Nat.not_le.mpr freed)
  | dropped _ oldest =>
      rw [crowded.retain bounded] at oldest ⊢
      have apart : victim ≠ key := by
        intro same
        obtain ⟨failure, found, _⟩ := oldest
        rw [same, new] at found
        contradiction
      refine ⟨victim, apart, oldest, fun other => ?_⟩
      by_cases same : other = key
      · rw [if_pos same, same, AList.lookup_insert]
      · rw [if_neg same, AList.lookup_insert_ne same]
        by_cases gone : other = victim
        · rw [if_pos gone, gone, AList.lookup_erase]
        · rw [if_neg gone, AList.lookup_erase_ne gone]

/-- A table with anything in it has a hold no other ends before. -/
theorem oldest_exists (some_entry : failures.entries ≠ []) : ∃ victim, failures.Oldest victim := by
  cases least : failures.entries.argmin fun entry => entry.2.endsAt with
  | none => exact absurd (List.argmin_eq_none.mp least) some_entry
  | some entry =>
      refine ⟨entry.1, entry.2, ?_, fun other member => ?_⟩
      · exact AList.mem_lookup_iff.mpr (List.argmin_mem least)
      · exact List.le_of_mem_argmin (f := fun entry : Sigma _ => entry.2.endsAt) member least

/-- Whatever the table, some choice of the oldest hold lets a failure be recorded. -/
theorem record_possible (failures : FailureCache) (key : CacheKey) (now : Instant) :
    ∃ victim, (failures.record key now victim).isSome = true := by
  obtain ⟨victim, possible⟩ : ∃ victim, (failures.makeRoom key now victim).isSome = true := by
    by_cases crowd : MAX_KEYS ≤
        (failures.retain fun failure => now.nanos < failure.endsAt + MAX_HOLD).entries.length
    · have some_entry :
          (failures.retain fun failure => now.nanos < failure.endsAt + MAX_HOLD).entries ≠ [] := by
        intro empty
        rw [empty] at crowd
        contradiction
      obtain ⟨victim, oldest⟩ := oldest_exists some_entry
      refine ⟨victim, ?_⟩
      simp only [makeRoom]
      simp only [if_pos oldest, if_pos crowd]
      split <;> rfl
    · refine ⟨key, ?_⟩
      simp only [makeRoom]
      simp only [if_neg crowd]
      split <;> rfl
  obtain ⟨room, made⟩ := Option.isSome_iff_exists.mp possible
  refine ⟨victim, ?_⟩
  simp [record, made]

end FailureCache

theorem counts_replay {failures : FailureCache} {streaks : Streaks}
    (counts : Counts failures streaks) (ops : List FailureOp) :
    ∃ table next answers, replay FailureCache.applyUnbounded failures ops = some (table, answers) ∧
      replay Streaks.apply streaks ops = some (next, answers) := by
  induction ops generalizing failures streaks with
  | nil => exact ⟨failures, streaks, [], rfl, rfl⟩
  | cons op rest ih =>
      obtain ⟨table, next, answer, applied, counted, still⟩ := counts_apply counts op
      obtain ⟨final, last, answers, ranTable, ranStreaks⟩ := ih still
      refine ⟨final, last, answer :: answers, ?_, ?_⟩
      · simp only [replay, applied, ranTable, Option.bind_eq_bind, Option.bind_some, Option.pure_def]
      · simp only [replay, counted, ranStreaks, Option.bind_eq_bind, Option.bind_some,
          Option.pure_def]

/-- The tables agree, and no call still to come goes back in time. -/
def Paired (bounded unbounded : FailureCache) (ops : List FailureOp) : Prop :=
  ∃ start, FailureCache.Agree start bounded unbounded ∧ Nondecreasing ops ∧
    ∀ time ∈ ops.filterMap FailureOp.instant?, start ≤ time

theorem Nondecreasing.timed {op : FailureOp} {rest : List FailureOp} {time : Nat}
    (ordered : Nondecreasing (op :: rest)) (timed : op.instant? = some time) :
    Nondecreasing rest ∧ ∀ later ∈ rest.filterMap FailureOp.instant?, time ≤ later := by
  simp only [Nondecreasing] at ordered
  rw [List.filterMap_cons_some timed] at ordered
  exact ⟨(List.pairwise_cons.mp ordered).2, (List.pairwise_cons.mp ordered).1⟩

theorem paired_apply {bounded unbounded next : FailureCache} {op : FailureOp}
    {rest : List FailureOp} {answer : FailureAnswer} (paired : Paired bounded unbounded (op :: rest))
    (applied : bounded.apply op = some (next, answer)) (uncrowded : Uncrowded bounded op next) :
    ∃ table, unbounded.applyUnbounded op = some (table, answer) ∧ Paired next table rest := by
  obtain ⟨start, agree, ordered, later⟩ := paired
  cases op with
  | held key now =>
      cases applied
      obtain ⟨still, onward⟩ := ordered.timed rfl
      have reached : start ≤ now.nanos := later now.nanos List.mem_cons_self
      refine ⟨unbounded, ?_, start, agree, still, fun time member => ?_⟩
      · simp only [FailureCache.applyUnbounded, agree.held reached]
      · exact Nat.le_trans reached (onward time member)
  | record key now victim =>
      obtain ⟨still, onward⟩ := ordered.timed rfl
      have reached : start ≤ now.nanos := later now.nanos List.mem_cons_self
      obtain ⟨⟨table, hold⟩, recorded, same⟩ := Option.bind_eq_some_iff.mp applied
      cases same
      obtain ⟨room, made, rfl, rfl⟩ := FailureCache.record_room recorded
      have roomy := made.agree (uncrowded key now victim rfl) agree reached
      rw [agree.holdFor reached]
      exact ⟨_, rfl, now.nanos, roomy.insert key _, still, onward⟩
  | clear key =>
      cases applied
      exact ⟨unbounded.clear key, rfl, start, agree.erase key, ordered, later⟩

/-- From an empty table, calls at nondecreasing instants answer what an unbounded table
answers, and that is what the streaks say, unless a new key fails while the table is full of
live holds; then exactly one key is dropped, and none ends before it. -/
theorem bounded_like_unbounded {ops : List FailureOp} (ordered : Nondecreasing ops)
    {after : FailureCache} {answers : List FailureAnswer}
    (ran : replay FailureCache.apply ∅ ops = some (after, answers)) :
    after.entries.length ≤ MAX_KEYS ∧ Along (stepOf FailureCache.apply) DropsOldest ∅ ops ∧
      (∀ key now, ∃ victim, (after.record key now victim).isSome = true) ∧
      ∃ table streaks expected,
        replay FailureCache.applyUnbounded ∅ ops = some (table, expected) ∧
        replay Streaks.apply (fun _ => none) ops = some (streaks, expected) ∧
        (Along (stepOf FailureCache.apply) Uncrowded ∅ ops → answers = expected) := by
  have reached := replay_run ran
  have bounded : ∀ before op next, before.entries.length ≤ MAX_KEYS →
      stepOf FailureCache.apply before op = some next → next.entries.length ≤ MAX_KEYS := by
    intro before op next fits stepped
    obtain ⟨⟨_, answer⟩, applied, rfl⟩ := Option.map_eq_some_iff.mp stepped
    exact FailureCache.apply_bounded fits applied
  refine ⟨invariant_of_run bounded (Nat.zero_le _) reached, ?_, after.record_possible, ?_⟩
  · refine along_of_invariant (fun before op next fits stepped _ => bounded before op next fits stepped)
      ?_ (Nat.zero_le _) (along_of_steps (fun _ _ _ _ => trivial) _ _)
    intro before op next fits stepped _
    obtain ⟨⟨_, answer⟩, applied, rfl⟩ := Option.map_eq_some_iff.mp stepped
    exact FailureCache.drops_oldest fits applied
  · have none : Counts ∅ fun _ => none := fun key => ⟨rfl, fun _ same => by cases same⟩
    have paired : Paired ∅ ∅ ops :=
      ⟨0, ⟨fun _ _ found => found, fun _ _ found _ => found⟩, ordered, fun _ _ => Nat.zero_le _⟩
    obtain ⟨table, streaks, expected, unbounded, counted⟩ := counts_replay none ops
    refine ⟨table, streaks, expected, unbounded, counted, fun uncrowded => ?_⟩
    obtain ⟨last, same⟩ := replay_simulates (fun _ _ _ _ _ _ => paired_apply) paired uncrowded ran
    cases same.symm.trans unbounded
    rfl

theorem start_inRange : 0 < 2 ^ 63 * 1000000000 := by decide

/-- A name that fails, fails again when its hold ends, resolves and fails once more. -/
def onAndOff : List FailureOp :=
  [.record exampleKey ⟨0, start_inRange⟩ exampleKey, .held exampleKey ⟨secs 2, by decide⟩,
   .record exampleKey ⟨secs 5, by decide⟩ exampleKey, .held exampleKey ⟨secs 15, by decide⟩,
   .clear exampleKey, .record exampleKey ⟨secs 16, by decide⟩ exampleKey]

theorem on_and_off_answers :
    ∃ after, replay FailureCache.apply ∅ onAndOff = some (after,
        [.hold (secs 5), .left (some (secs 3)), .hold (secs 10), .left none, .cleared,
          .hold (secs 5)]) ∧
      after.entries.length ≤ MAX_KEYS ∧
      Along (stepOf FailureCache.apply) DropsOldest ∅ onAndOff := by
  have ordered : Nondecreasing onAndOff := by
    simp only [Nondecreasing]
    decide
  have ran : ∃ after, replay FailureCache.apply ∅ onAndOff = some (after,
      [.hold (secs 5), .left (some (secs 3)), .hold (secs 10), .left none, .cleared,
        .hold (secs 5)]) := ⟨_, rfl⟩
  obtain ⟨after, ran⟩ := ran
  obtain ⟨bounded, drops, _⟩ := bounded_like_unbounded ordered ran
  exact ⟨after, ran, bounded, drops⟩

end Sumidero.Server
