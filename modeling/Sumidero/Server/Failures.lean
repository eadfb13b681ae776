import Sumidero.Cache.Slots

namespace Sumidero.Server

open Sumidero.Cache

/-! Hold-downs of keys that could not be resolved.  Durations and the end of a hold
are in nanoseconds. -/

def secs (count : Nat) : Nat := count * 1000000000

/-- Hold-down after the first failure. -/
def FIRST_HOLD : Nat := secs 5

/-- Longest hold-down, reached after four consecutive failures. -/
def MAX_HOLD : Nat := secs 60

def MAX_KEYS : Nat := 4096

structure Failure where
  endsAt : Nat
  hold : Nat
deriving Repr, DecidableEq

abbrev FailureCache := AList fun _ : CacheKey => Failure

namespace FailureCache

/-- Time left on the key's hold-down, if it is held. -/
def held (failures : FailureCache) (key : CacheKey) (now : Instant) : Option Nat :=
  (failures.lookup key).bind fun failure =>
    if now.nanos < failure.endsAt then some (failure.endsAt - now.nanos) else none

/-- The hold of a failure now: a failure within `MAX_HOLD` of the end of the hold
before doubles it. -/
def holdFor (failures : FailureCache) (key : CacheKey) (now : Instant) : Nat :=
  match failures.lookup key with
  | some prev =>
      if now.nanos < prev.endsAt + MAX_HOLD then min (prev.hold * 2) MAX_HOLD else FIRST_HOLD
  | none => FIRST_HOLD

def retain (failures : FailureCache) (keep : Failure → Bool) : FailureCache :=
  ⟨failures.entries.filter fun entry => keep entry.2,
    failures.nodupKeys.sublist List.filter_sublist⟩

/-- No tracked hold ends before this key's. -/
def Oldest (failures : FailureCache) (key : CacheKey) : Prop :=
  ∃ failure ∈ failures.lookup key, ∀ entry ∈ failures.entries, failure.endsAt ≤ entry.2.endsAt

instance (failures : FailureCache) (key : CacheKey) : Decidable (failures.Oldest key) :=
  inferInstanceAs (Decidable (∃ failure ∈ failures.lookup key,
    ∀ entry ∈ failures.entries, failure.endsAt ≤ entry.2.endsAt))

/-- The table before the failure is entered: a full one first loses what has been
idle for `MAX_HOLD`, then its oldest hold.  Which one of several equally old ones,
the map's order decides; here it is `victim`. -/
def makeRoom (failures : FailureCache) (key : CacheKey) (now : Instant) (victim : CacheKey) :
    Option FailureCache :=
  if MAX_KEYS ≤ failures.entries.length ∧ key ∉ failures then
    let kept := failures.retain fun failure => now.nanos < failure.endsAt + MAX_HOLD
    if MAX_KEYS ≤ kept.entries.length then
      if kept.Oldest victim then some (kept.erase victim) else none
    else some kept
  else some failures

/-- Record a failure; returns the hold applied. -/
def record (failures : FailureCache) (key : CacheKey) (now : Instant) (victim : CacheKey) :
    Option (FailureCache × Nat) := do
  let hold := failures.holdFor key now
  let room ← failures.makeRoom key now victim
  return (room.insert key { endsAt := now.nanos + hold, hold }, hold)

def clear (failures : FailureCache) (key : CacheKey) : FailureCache := failures.erase key

end FailureCache

end Sumidero.Server
