import Sumidero.Cache.Lookup
import Sumidero.Cache.Operations

namespace Sumidero.Cache

open Sumidero.Dns Sumidero.Data

/-! What the cache is for: a list of items, most recently used first, that answers
from an item while it lives and for the stale window after.  This is a statement
of its purpose; the slot array is shown to refine it. -/

inductive Op where
  | insert (key : CacheKey) (msg : Message) (now : Instant)
  | get (key : CacheKey) (now : Instant)

namespace RecencyList

def without (items : List Item) (key : CacheKey) : List Item :=
  items.eraseP fun item => item.key = key

/-- Fresh TTLs are the original ones less the elapsed seconds, stale ones are 30. -/
def get (limits : Limits) (items : List Item) (key : CacheKey) (now : Instant) :
    List Item × Lookup :=
  match items.find? fun item => item.key = key with
  | none => (items, .Miss)
  | some item =>
      let elapsed := now.secsSince item.entry.insertedAt
      if item.entry.effectiveTtlSecs + limits.serveStaleSecs ≤ elapsed then
        (without items key, .Miss)
      else if item.entry.effectiveTtlSecs ≤ elapsed then
        (item :: without items key, .Stale (buildResponse item.entry fun _ => 30))
      else
        (item :: without items key,
          .Fresh (buildResponse item.entry fun ttl => .ofNat (ttl.toNat - elapsed)))

variable (wireLen : Message → Option Nat)

/-- An item in place of the one with its key or, in a full list, of the last one. -/
def insert (limits : Limits) (items : List Item) (key : CacheKey) (msg : Message)
    (now : Instant) : List Item :=
  match entryOf msg now with
  | none => items
  | some entry =>
      let rest :=
        if items.any fun item => item.key = key then without items key
        else if limits.capacity ≤ items.length then items.dropLast
        else items
      trim Item.bytes limits.maxBytes
        ({ key, entry, bytes := Inner.estimatedBytes wireLen msg } :: rest)

/-- The list after a sequence of operations, and what each `get` among them returned. -/
def exec (limits : Limits) : List Item → List Op → List Item × List Lookup
  | items, [] => (items, [])
  | items, .insert key msg now :: rest => exec limits (insert wireLen limits items key msg now) rest
  | items, .get key now :: rest =>
      let (next, lookup) := get limits items key now
      let (final, lookups) := exec limits next rest
      (final, lookup :: lookups)

end RecencyList

/-- The slot array after the same sequence; `none` if an operation panicked. -/
def Inner.exec (wireLen : Message → Option Nat) : Inner → List Op → Option (Inner × List Lookup)
  | inner, [] => some (inner, [])
  | inner, .insert key msg now :: rest => do
      let inner ← inner.insert wireLen key msg now
      inner.exec wireLen rest
  | inner, .get key now :: rest => do
      let (inner, lookup) ← inner.get key now
      let (inner, lookups) ← inner.exec wireLen rest
      return (inner, lookup :: lookups)

end Sumidero.Cache
