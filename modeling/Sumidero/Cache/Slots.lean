import Mathlib.Data.List.AList
import Sumidero.Dns.Message
import Sumidero.Time

namespace Sumidero.Cache

open Sumidero.Dns

/-! The cache's slot array: a map from keys to slots, a doubly linked recency
list and a free list threaded through the slots.  An operation is `none` where
the code would panic on an index out of range or never leave its loop. -/

/-- The name is kept folded, so that keys equal up to ASCII case are equal. -/
structure CacheKey where
  name : Name
  rtype : RecordType
  dnsClass : DNSClass
deriving Repr, DecidableEq

def CacheKey.new (name : Name) (rtype : RecordType) (dnsClass : DNSClass) : CacheKey :=
  { name := name.fold, rtype, dnsClass }

structure OriginalRecord where
  record : Record
  originalTtl : UInt32
deriving Repr, DecidableEq

/-- A stored answer.  No record of it has less to live than the entry itself. -/
structure Entry where
  answers : List OriginalRecord
  authorities : List OriginalRecord
  responseCode : ResponseCode
  effectiveTtlSecs : Nat
  insertedAt : Instant
  outlived : ∀ record ∈ answers ++ authorities, effectiveTtlSecs ≤ record.originalTtl.toNat
deriving Repr, DecidableEq

/-- `usize::MAX`, the index that means "no link". -/
def NONE : Nat := 2 ^ 64 - 1

structure Node where
  key : CacheKey
  entry : Entry
  bytes : Nat
  prev : Nat
  next : Nat
deriving Repr, DecidableEq

inductive Slot where
  | occupied (node : Node)
  | free (nextFree : Nat)
deriving Repr, DecidableEq

/-- The bounds of a cache; `with_limits` panics unless they hold. -/
structure Limits where
  capacity : Nat
  maxBytes : Nat
  serveStaleSecs : Nat
  capacity_pos : 0 < capacity
  capacity_le : capacity ≤ NONE
  maxBytes_pos : 0 < maxBytes

structure Inner where
  map : AList fun _ : CacheKey => Nat
  slots : List Slot
  head : Nat
  tail : Nat
  freeHead : Nat
  bytesTotal : Nat
  limits : Limits

namespace Inner

def withLimits (limits : Limits) : Inner where
  map := ∅
  slots := []
  head := NONE
  tail := NONE
  freeHead := NONE
  bytesTotal := 0
  limits := limits

/-- Write through `if let Slot::Occupied(node) = &mut slots[idx]`. -/
def modify (inner : Inner) (idx : Nat) (update : Node → Node) : Option Inner := do
  match ← inner.slots[idx]? with
  | .occupied node => return { inner with slots := inner.slots.set idx (.occupied (update node)) }
  | .free _ => return inner

def unlink (inner : Inner) (idx : Nat) : Option Inner := do
  match ← inner.slots[idx]? with
  | .free _ => return inner
  | .occupied node =>
      let inner ← (if node.prev = NONE then some { inner with head := node.next }
        else inner.modify node.prev fun p => { p with next := node.next })
      let inner ← (if node.next = NONE then some { inner with tail := node.prev }
        else inner.modify node.next fun n => { n with prev := node.prev })
      inner.modify idx fun n => { n with prev := NONE, next := NONE }

def pushHead (inner : Inner) (idx : Nat) : Option Inner := do
  let inner ← inner.modify idx fun node => { node with prev := NONE, next := inner.head }
  let inner ← (if inner.head = NONE then some inner
    else inner.modify inner.head fun oldHead => { oldHead with prev := idx })
  return { inner with head := idx, tail := if inner.tail = NONE then idx else inner.tail }

def moveToHead (inner : Inner) (idx : Nat) : Option Inner :=
  if inner.head = idx then some inner
  else do
    let inner ← inner.unlink idx
    inner.pushHead idx

def remove (inner : Inner) (idx : Nat) : Option Inner := do
  let inner ← inner.unlink idx
  let inner : Inner := match ← inner.slots[idx]? with
    | .occupied node =>
        { inner with bytesTotal := inner.bytesTotal - node.bytes, map := inner.map.erase node.key }
    | .free _ => inner
  return { inner with slots := inner.slots.set idx (.free inner.freeHead), freeHead := idx }

def evictTail (inner : Inner) : Option Inner :=
  if inner.tail = NONE then some inner else inner.remove inner.tail

/-- The loop of `evict_to_byte_budget`, run for at most `fuel` rounds. -/
def evictLoop : Nat → Inner → Option Inner
  | fuel, inner =>
      if inner.limits.maxBytes < inner.bytesTotal ∧ 1 < inner.map.entries.length then
        match fuel with
        | 0 => none
        | fuel + 1 => do evictLoop fuel (← inner.evictTail)
      else some inner

/-- Every round drops an entry of the map, so as many rounds as it has are enough. -/
def evictToByteBudget (inner : Inner) : Option Inner :=
  evictLoop inner.map.entries.length inner

def allocSlot (inner : Inner) (node : Node) : Option (Inner × Nat) :=
  if inner.freeHead = NONE then
    some ({ inner with slots := inner.slots ++ [.occupied node] }, inner.slots.length)
  else do
    let idx := inner.freeHead
    let freeHead := match ← inner.slots[idx]? with
      | .free nextFree => nextFree
      | .occupied _ => inner.freeHead
    return ({ inner with slots := inner.slots.set idx (.occupied node), freeHead }, idx)

end Inner

end Sumidero.Cache
