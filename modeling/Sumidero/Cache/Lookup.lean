import Sumidero.Cache.Slots

namespace Sumidero.Cache

open Sumidero.Dns

/-! `Cache::insert` and `Cache::get` over the slot array. -/

def STALE_ANSWER_TTL_SECS : UInt32 := 30
def BYTES_SLOP_FACTOR : Nat := 2
def ENTRY_OVERHEAD_BYTES : Nat := 512
def FALLBACK_WIRE_BYTES : Nat := 4096

inductive Lookup where
  | Fresh (msg : Message)
  | Stale (msg : Message)
  | Miss
deriving Repr, DecidableEq

def originals (records : List Record) : List OriginalRecord :=
  records.map fun record => { record, originalTtl := record.ttl }

/-- How long one record may live: an SOA counts as `min(TTL, MINIMUM)`. -/
def OriginalRecord.lifetime (original : OriginalRecord) : Nat :=
  match original.record.data with
  | .SOA soa => (min original.originalTtl soa.minimum).toNat
  | _ => original.originalTtl.toNat

def effectiveTtl (records : List OriginalRecord) : Option Nat :=
  (records.map OriginalRecord.lifetime).min?

theorem OriginalRecord.lifetime_le (original : OriginalRecord) :
    original.lifetime ≤ original.originalTtl.toNat := by
  simp only [OriginalRecord.lifetime]
  split
  · exact UInt32.le_iff_toNat_le.mp (Std.min_le_left)
  · exact Nat.le_refl _

theorem effectiveTtl_outlived {records : List OriginalRecord} {secs : Nat}
    (lifetime : effectiveTtl records = some secs) :
    ∀ record ∈ records, secs ≤ record.originalTtl.toNat := by
  intro record member
  have least := (List.min?_eq_some_iff.mp lifetime).2 _ (List.mem_map_of_mem member)
  exact Nat.le_trans least record.lifetime_le

/-- What `insert` stores for a message, unless it must not be cached: only NOERROR
and NXDOMAIN are, and only with a record to take a lifetime from. -/
def entryOf (msg : Message) (now : Instant) : Option Entry :=
  if msg.responseCode ≠ .NoError ∧ msg.responseCode ≠ .NXDomain then none
  else
    match lifetime : effectiveTtl (originals msg.answers ++ originals msg.authorities) with
    | none => none
    | some effectiveTtlSecs => some
        { answers := originals msg.answers
          authorities := originals msg.authorities
          responseCode := msg.responseCode
          effectiveTtlSecs
          insertedAt := now
          outlived := effectiveTtl_outlived lifetime }

/-- A message with the entry's records, each with the TTL `ttl` makes of its own. -/
def buildResponse (entry : Entry) (ttl : UInt32 → UInt32) : Message :=
  let restore (original : OriginalRecord) : Record :=
    { original.record with ttl := ttl original.originalTtl }
  { (Message.new 0 .Response .Query).withResponseCode entry.responseCode with
    answers := entry.answers.map restore
    authorities := entry.authorities.map restore }

/-- `orig_ttl.saturating_sub(elapsed).max(1)`, the elapsed seconds capped to a `u32`. -/
def decrementedTtl (elapsedSecs : Nat) (originalTtl : UInt32) : UInt32 :=
  .ofNat (max (originalTtl.toNat - min elapsedSecs (2 ^ 32 - 1)) 1)

namespace Inner

/-! `wireLen` is the length of a message's wire form, if it serializes. -/

variable (wireLen : Message → Option Nat)

def estimatedBytes (msg : Message) : Nat :=
  (wireLen msg).getD FALLBACK_WIRE_BYTES * BYTES_SLOP_FACTOR + ENTRY_OVERHEAD_BYTES

def insert (inner : Inner) (key : CacheKey) (msg : Message) (now : Instant) : Option Inner :=
  match entryOf msg now with
  | none => some inner
  | some entry =>
      let bytes := estimatedBytes wireLen msg
      match inner.map.lookup key with
      | some idx => do
          let inner ← (match ← inner.slots[idx]? with
            | .occupied node => some { inner with
                slots := inner.slots.set idx (.occupied { node with entry, bytes })
                bytesTotal := inner.bytesTotal - node.bytes + bytes }
            | .free _ => some inner)
          let inner ← inner.moveToHead idx
          inner.evictToByteBudget
      | none => do
          let inner ← (if inner.limits.capacity ≤ inner.map.entries.length then inner.evictTail
            else some inner)
          let (inner, idx) ← inner.allocSlot { key, entry, bytes, prev := NONE, next := NONE }
          let inner ← { inner with map := inner.map.insert key idx }.pushHead idx
          { inner with bytesTotal := inner.bytesTotal + bytes }.evictToByteBudget

def get (inner : Inner) (key : CacheKey) (now : Instant) : Option (Inner × Lookup) :=
  match inner.map.lookup key with
  | none => some (inner, .Miss)
  | some idx => do
      match ← inner.slots[idx]? with
      | .free _ => return (inner, .Miss)
      | .occupied node =>
          let effectiveTtlSecs := node.entry.effectiveTtlSecs
          let elapsedSecs := now.secsSince node.entry.insertedAt
          if saturatingAdd effectiveTtlSecs inner.limits.serveStaleSecs ≤ elapsedSecs then
            return (← inner.remove idx, .Miss)
          else
            let inner ← inner.moveToHead idx
            match ← inner.slots[idx]? with
            | .free _ => return (inner, .Miss)
            | .occupied node =>
                if elapsedSecs < effectiveTtlSecs then
                  return (inner, .Fresh (buildResponse node.entry (decrementedTtl elapsedSecs)))
                else
                  return (inner, .Stale (buildResponse node.entry fun _ => STALE_ANSWER_TTL_SECS))

end Inner

end Sumidero.Cache
