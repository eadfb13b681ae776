import Sumidero.Cache.Contents

namespace Sumidero.Cache

open Sumidero.Dns

/-! How long what the cache hands out may be kept downstream, and which negative
answers it takes in. -/

/-- The lifetime `insert` gives a message: its smallest TTL, an SOA counting as
`min(TTL, MINIMUM)`. -/
def lifetime (msg : Message) : Option Nat :=
  effectiveTtl (originals msg.answers ++ originals msg.authorities)

theorem originals_append (front back : List Record) :
    originals front ++ originals back = originals (front ++ back) :=
  List.map_append.symm

theorem entryOf_eq_some {msg : Message} {now : Instant} {entry : Entry}
    (stored : entryOf msg now = some entry) :
    lifetime msg = some entry.effectiveTtlSecs ∧
      (msg.responseCode = .NoError ∨ msg.responseCode = .NXDomain) := by
  simp only [entryOf] at stored
  split at stored
  · contradiction
  · rename_i code
    split at stored
    · contradiction
    · rename_i secs found
      cases stored
      refine ⟨found, ?_⟩
      by_cases clean : msg.responseCode = .NoError
      · exact .inl clean
      · exact .inr (by simpa [clean] using code)

theorem entryOf_of_lifetime {msg : Message} {secs : Nat}
    (code : msg.responseCode = .NoError ∨ msg.responseCode = .NXDomain)
    (lives : lifetime msg = some secs) (now : Instant) :
    ∃ entry, entryOf msg now = some entry ∧ entry.effectiveTtlSecs = secs := by
  simp only [entryOf]
  rw [if_neg (by rcases code with code | code <;> simp [code])]
  split
  · rename_i missing
    have none : lifetime msg = none := missing
    rw [lives] at none
    contradiction
  · rename_i other found
    exact ⟨_, rfl, Option.some.inj (found.symm.trans lives)⟩

section Countdown

/-! The TTL of a served record is counted down, the MINIMUM of an SOA is not. -/

/-- How long a record may still live downstream after `elapsed` seconds in the cache. -/
def OriginalRecord.lifetimeAfter (elapsed : Nat) (original : OriginalRecord) : Nat :=
  match original.record.data with
  | .SOA soa => min (original.originalTtl.toNat - elapsed) soa.minimum.toNat
  | _ => original.originalTtl.toNat - elapsed

theorem toNat_min (first second : UInt32) :
    (min first second).toNat = min first.toNat second.toNat := by
  have chosen : min first second = if first ≤ second then first else second := rfl
  rw [chosen, apply_ite UInt32.toNat, Nat.min_def]
  simp only [UInt32.le_iff_toNat_le]

theorem lifetimeAfter_zero (original : OriginalRecord) :
    original.lifetimeAfter 0 = original.lifetime := by
  simp only [OriginalRecord.lifetimeAfter, OriginalRecord.lifetime]
  cases original.record.data with
  | SOA soa => exact (toNat_min original.originalTtl soa.minimum).symm
  | _ => rfl

theorem lifetimeAfter_le (elapsed : Nat) (original : OriginalRecord) :
    original.lifetimeAfter elapsed ≤ original.lifetime := by
  rw [← lifetimeAfter_zero]
  simp only [OriginalRecord.lifetimeAfter]
  cases original.record.data <;> dsimp only <;> omega

theorem lifetimeAfter_le_ttl (elapsed : Nat) (original : OriginalRecord) :
    original.lifetimeAfter elapsed ≤ original.originalTtl.toNat - elapsed := by
  simp only [OriginalRecord.lifetimeAfter]
  split
  · exact Nat.min_le_left ..
  · exact Nat.le_refl _

/-- Time that passed is taken off a record's lifetime only where its TTL gives it. -/
theorem ttl_of_counted_down {elapsed lives : Nat} {original : OriginalRecord}
    (passed : elapsed ≠ 0) (least : lives ≤ original.lifetime)
    (counted : original.lifetimeAfter elapsed + elapsed ≤ lives) :
    original.originalTtl.toNat = lives := by
  have bound := original.lifetime_le
  rw [← lifetimeAfter_zero] at least bound
  simp only [OriginalRecord.lifetimeAfter] at counted least
  cases data : original.record.data <;> simp only [data] at counted least <;> omega

theorem lifetimeAfter_min? {records : List OriginalRecord} {lives : Nat}
    (least : effectiveTtl records = some lives) (elapsed : Nat) :
    ∃ left, (records.map (OriginalRecord.lifetimeAfter elapsed)).min? = some left := by
  cases records with
  | nil => cases least
  | cons first rest => exact ⟨_, rfl⟩

theorem counted_down {records : List OriginalRecord} {lives left elapsed : Nat}
    (least : effectiveTtl records = some lives) (alive : elapsed < lives)
    (remaining : (records.map (OriginalRecord.lifetimeAfter elapsed)).min? = some left) :
    left ≤ lives ∧ (left + elapsed ≤ lives ↔
      elapsed = 0 ∨ ∃ original ∈ records, original.originalTtl.toNat = lives) := by
  obtain ⟨attained, smallest⟩ := List.min?_eq_some_iff.mp least
  obtain ⟨left_attained, left_smallest⟩ := List.min?_eq_some_iff.mp remaining
  obtain ⟨shortest, member, rfl⟩ := List.mem_map.mp attained
  obtain ⟨last, lastMember, rfl⟩ := List.mem_map.mp left_attained
  have below := left_smallest _ (List.mem_map_of_mem member)
  have bounded := Nat.le_trans below (lifetimeAfter_le elapsed shortest)
  refine ⟨bounded, fun counted => ?_, fun given => ?_⟩
  · by_cases passed : elapsed = 0
    · exact .inl passed
    · have least := smallest _ (List.mem_map_of_mem lastMember)
      exact .inr ⟨last, lastMember, ttl_of_counted_down passed least counted⟩
  · rcases given with rfl | ⟨original, held, ttl⟩
    · exact bounded
    · have some_left := left_smallest _ (List.mem_map_of_mem held)
      have bound := lifetimeAfter_le_ttl elapsed original
      omega

/-- The lifetime of a served message is the least its records have left. -/
theorem lifetime_served {entry : Entry} {elapsed : Nat} :
    lifetime (buildResponse entry fun ttl => .ofNat (ttl.toNat - elapsed)) =
      ((entry.answers ++ entry.authorities).map
        (OriginalRecord.lifetimeAfter elapsed)).min? := by
  have counted : ∀ original : OriginalRecord,
      (OriginalRecord.mk { original.record with ttl := .ofNat (original.originalTtl.toNat - elapsed) }
        (.ofNat (original.originalTtl.toNat - elapsed))).lifetime =
      original.lifetimeAfter elapsed := by
    intro original
    have bound : original.originalTtl.toNat - elapsed < UInt32.size :=
      Nat.lt_of_le_of_lt (Nat.sub_le ..) original.originalTtl.toNat_lt
    rw [← lifetimeAfter_zero]
    simp only [OriginalRecord.lifetimeAfter]
    simp only [UInt32.toNat_ofNat_of_lt' bound, Nat.sub_zero]
  simp only [lifetime, effectiveTtl, originals, buildResponse]
  simp only [List.map_append, List.map_map]
  congr 2 <;> exact List.map_congr_left fun original _ => counted original

end Countdown

/-- Is this an `insert` of the key? -/
def Op.Stores (key : CacheKey) : Op → Prop
  | .insert stored _ _ => stored = key
  | .get _ _ => False

theorem lookup_fresh {entry : Entry} {stale : Nat} {now : Instant} {served : Message}
    (fresh : entry.lookup stale now = .Fresh served) :
    now.secsSince entry.insertedAt < entry.effectiveTtlSecs ∧
      served = buildResponse entry fun ttl =>
        .ofNat (ttl.toNat - now.secsSince entry.insertedAt) := by
  unfold Entry.lookup at fresh
  dsimp only at fresh
  split at fresh
  · contradiction
  split at fresh
  · contradiction
  · cases fresh
    exact ⟨by omega, rfl⟩

/-- What a fresh hit may be kept for downstream.  It is never more than the message's own
lifetime; it is less by the time passed since exactly when that lifetime is the TTL
of a record, rather than the MINIMUM of an SOA below every TTL. -/
theorem served_lifetime {wireLen : Message → Option Nat} {limits : Limits}
    {before between : List Op} {held filled later after : Inner} {earlier lookups : List Lookup}
    {key : CacheKey} {msg served : Message} {start now : Instant} {entry : Entry}
    (reached : (Inner.withLimits limits).exec wireLen before = some (held, earlier))
    (cacheable : entryOf msg start = some entry)
    (inserted : held.insert wireLen key msg start = some filled)
    (others : ∀ op ∈ between, ¬ op.Stores key)
    (ran : filled.exec wireLen between = some (later, lookups))
    (fresh : later.get key now = some (after, .Fresh served)) :
    ∃ lives left, lifetime msg = some lives ∧ lifetime served = some left ∧ left ≤ lives ∧
      (left + now.secsSince start ≤ lives ↔ now.secsSince start = 0 ∨
        ∃ record ∈ msg.answers ++ msg.authorities, record.ttl.toNat = lives) := by
  have sound := exec_sound (withLimits_sound limits) reached
  obtain ⟨sound, _, _, filledWith, _⟩ := sound.insert_spec inserted
  have kept : later.Sound ∧ later.limits = filled.limits ∧
      ∀ other held, later.entryAt other = some held → other = key → held = entry := by
    refine exec_entries sound ?_ ?_ ran
    · intro other held holds same
      subst same
      exact Option.some.inj (holds.symm.trans (filledWith entry cacheable))
    · intro other stored instant held member _ same
      exact absurd same (others _ member)
  obtain ⟨sound, _, only⟩ := kept
  obtain ⟨other, found, looked⟩ := sound.get_hit fresh nofun
  obtain rfl : other = entry := only key other found rfl
  obtain ⟨alive, rfl⟩ := lookup_fresh looked.symm
  obtain ⟨lives, _⟩ := entryOf_eq_some cacheable
  obtain ⟨answers, authorities, _, insertedAt⟩ := entryOf_records cacheable
  rw [insertedAt] at alive ⊢
  obtain ⟨left, remaining⟩ := lifetimeAfter_min? lives (now.secsSince start)
  obtain ⟨bounded, exactly⟩ := counted_down lives alive remaining
  refine ⟨_, left, lives, ?_, bounded, ?_⟩
  · rw [lifetime_served, answers, authorities]
    exact remaining
  · rw [exactly, originals_append]
    simp only [originals, List.mem_map, exists_exists_and_eq_and]

/-- Limits of a small cache, a zone and an instant for the runs below. -/
def roomy : Limits where
  capacity := 16
  maxBytes := 250000
  serveStaleSecs := 43200
  capacity_pos := by decide
  capacity_le := by decide
  maxBytes_pos := by decide

def zone : Name := { labels := [[122]], isFqdn := true }

def zoneKey : CacheKey := .new zone .A .IN

/-- The second of the clock. -/
def instant (seconds : Fin 100) : Instant :=
  ⟨seconds.val * 1000000000, by omega⟩

/-- An NXDOMAIN with this record and no other in its authority section. -/
def nxdomain (authority : Record) : Message :=
  ((Message.new 0 .Response .Query).withResponseCode .NXDomain).addAuthority authority

def zoneSoa (ttl minimum : UInt32) : Record :=
  .fromRdata zone ttl
    (.SOA { mname := zone, rname := zone, serial := 1, refresh := 3600, retry := 600,
            expire := 86400, minimum })

/-- A record of another type, for a minute: the zone's name server. -/
def zoneServer : Record := .fromRdata zone 60 (.Unknown (.Unknown 2) [1, 97, 0])

/-- A negative answer that lives a minute, looked up half a minute later. -/
theorem nxdomain_lookup {msg : Message} (code : msg.responseCode = .NXDomain)
    (lives : lifetime msg = some 60) :
    ∃ entry, entryOf msg (instant 0) = some entry ∧
      entry.lookup 43200 (instant 30) =
        .Fresh (buildResponse entry fun ttl => .ofNat (ttl.toNat - 30)) := by
  obtain ⟨entry, stored, secs⟩ := entryOf_of_lifetime (.inr code) lives (instant 0)
  obtain ⟨_, _, _, insertedAt⟩ := entryOf_records stored
  refine ⟨entry, stored, ?_⟩
  simp only [Entry.lookup]
  rw [secs, insertedAt, if_neg (by decide), if_neg (by decide)]
  rfl

/-- The MINIMUM of a minute is not counted down: half a minute after it was stored, the
negative answer is handed out with a whole minute to live. -/
theorem minute_served_again :
    ∃ filled after served,
      (Inner.withLimits roomy).insert (fun _ => none) zoneKey (nxdomain (zoneSoa 3600 60))
        (instant 0) = some filled ∧
      filled.get zoneKey (instant 30) = some (after, .Fresh served) ∧
      (instant 30).secsSince (instant 0) = 30 ∧ lifetime (nxdomain (zoneSoa 3600 60)) = some 60 ∧
      lifetime served = some 60 ∧ ¬ 60 ≤ 60 - 30 := by
  obtain ⟨entry, stored, looked⟩ := nxdomain_lookup rfl (rfl : lifetime (nxdomain (zoneSoa 3600 60)) = _)
  obtain ⟨answers, authorities, _⟩ := entryOf_records stored
  obtain ⟨filled, after, inserted, got⟩ :=
    (withLimits_sound roomy).get_stored (fun _ => none) stored (instant 30)
  refine ⟨filled, after, _, inserted, got.trans (congrArg (fun hit => some (after, hit)) looked),
    rfl, rfl, ?_, by decide⟩
  rw [lifetime_served, answers, authorities]
  rfl

theorem counted_down_half_a_minute :
    ∃ filled after served lives left,
      (Inner.withLimits roomy).insert (fun _ => none) zoneKey (nxdomain (zoneSoa 60 3600))
        (instant 0) = some filled ∧
      filled.get zoneKey (instant 30) = some (after, .Fresh served) ∧
      lifetime (nxdomain (zoneSoa 60 3600)) = some lives ∧ lifetime served = some left ∧
      left + 30 ≤ lives := by
  have minute : lifetime (nxdomain (zoneSoa 60 3600)) = some 60 := rfl
  obtain ⟨entry, stored, looked⟩ := nxdomain_lookup rfl minute
  obtain ⟨filled, after, inserted, got⟩ :=
    (withLimits_sound roomy).get_stored (fun _ => none) stored (instant 30)
  have fresh := got.trans (congrArg (fun hit => some (after, hit)) looked)
  have reached : (Inner.withLimits roomy).exec (fun _ => none) [] =
      some (.withLimits roomy, []) := rfl
  have others : ∀ op ∈ ([] : List Op), ¬ op.Stores zoneKey :=
    fun _ member => absurd member List.not_mem_nil
  have ran : filled.exec (fun _ => none) [] = some (filled, []) := rfl
  obtain ⟨lives, left, lived, remaining, _, counted⟩ :=
    served_lifetime reached stored inserted others ran fresh
  refine ⟨filled, after, _, lives, left, inserted, fresh, lived, remaining, counted.mpr (.inr ?_)⟩
  exact ⟨zoneSoa 60 3600, List.mem_cons_self, Option.some.inj (minute.symm.trans lived)⟩

/-! A negative answer is to be kept only with the SOA that says for how long. -/

/-- NXDOMAIN, or NOERROR with nothing in the answer section. -/
def Negative (msg : Message) : Prop :=
  msg.responseCode = .NXDomain ∨ msg.responseCode = .NoError ∧ msg.answers = []

def HasSoa (msg : Message) : Prop := ∃ record ∈ msg.authorities, ∃ soa, record.data = .SOA soa

/-- The entry is this message's. -/
def Entry.Holds (entry : Entry) (msg : Message) : Prop :=
  entry.responseCode = msg.responseCode ∧ entry.answers = originals msg.answers ∧
    entry.authorities = originals msg.authorities

/-- The record without its TTL. -/
def untimed (record : Record) : Record := { record with ttl := 0 }

/-- The message, TTLs aside. -/
def Lookup.Returns (lookup : Lookup) (msg : Message) : Prop :=
  ∃ served, (lookup = .Fresh served ∨ lookup = .Stale served) ∧
    served.responseCode = msg.responseCode ∧
    served.answers.map untimed = msg.answers.map untimed ∧
    served.authorities.map untimed = msg.authorities.map untimed

/-- Without an SOA the message is not taken in and never returned; with one it lives
no longer than any SOA allows. -/
structure KeptBySoa (wireLen : Message → Option Nat) (held : Inner) (key : CacheKey)
    (msg : Message) (now : Instant) : Prop where
  leftOut : ¬ HasSoa msg → ∀ after entry, held.insert wireLen key msg now = some after →
    after.entryAt key = some entry → ¬ entry.Holds msg
  neverReturned : ¬ HasSoa msg → ∀ after rest later lookups instant final lookup,
    held.insert wireLen key msg now = some after → after.exec wireLen rest = some (later, lookups) →
    later.get key instant = some (final, lookup) → ¬ lookup.Returns msg
  shortLived : ∀ record ∈ msg.authorities, ∀ soa, record.data = .SOA soa →
    ∃ after entry, held.insert wireLen key msg now = some after ∧
      after.entryAt key = some entry ∧ entry.Holds msg ∧
      entry.effectiveTtlSecs ≤ (min record.ttl soa.minimum).toNat

theorem entryOf_records_ne_nil {msg : Message} {now : Instant} {entry : Entry}
    (stored : entryOf msg now = some entry) : entry.answers ++ entry.authorities ≠ [] := by
  obtain ⟨lives, _⟩ := entryOf_eq_some stored
  obtain ⟨answers, authorities, _⟩ := entryOf_records stored
  intro empty
  rw [answers, authorities] at empty
  rw [lifetime, empty] at lives
  contradiction

/-- Every entry of a cache in use has a record. -/
theorem exec_records {wireLen : Message → Option Nat} {inner after : Inner} {ops : List Op}
    {lookups : List Lookup} (sound : inner.Sound)
    (initial : ∀ key entry, inner.entryAt key = some entry → entry.answers ++ entry.authorities ≠ [])
    (ran : inner.exec wireLen ops = some (after, lookups)) :
    ∀ key entry, after.entryAt key = some entry → entry.answers ++ entry.authorities ≠ [] :=
  (exec_entries sound initial (fun _ _ _ _ _ stored => entryOf_records_ne_nil stored) ran).2.2

theorem Entry.Holds.records {entry : Entry} {msg : Message} (holds : entry.Holds msg)
    (empty : msg.answers = [] ∧ msg.authorities = []) : entry.answers ++ entry.authorities = [] := by
  obtain ⟨_, answers, authorities⟩ := holds
  rw [answers, authorities, empty.1, empty.2]
  rfl

theorem lookup_hit {entry : Entry} {stale : Nat} {now : Instant} {served : Message}
    (hit : entry.lookup stale now = .Fresh served ∨ entry.lookup stale now = .Stale served) :
    ∃ ttl, served = buildResponse entry ttl := by
  unfold Entry.lookup at hit
  dsimp only at hit
  split at hit
  · simp at hit
  split at hit
  · simp only [reduceCtorEq, Lookup.Stale.injEq, false_or] at hit
    exact ⟨_, hit.symm⟩
  · simp only [reduceCtorEq, Lookup.Fresh.injEq, or_false] at hit
    exact ⟨_, hit.symm⟩

theorem fresh_returns {msg : Message} {now : Instant} {entry : Entry}
    (stored : entryOf msg now = some entry) (ttl : UInt32 → UInt32) :
    (Lookup.Fresh (buildResponse entry ttl)).Returns msg := by
  obtain ⟨answers, authorities, code, _⟩ := entryOf_records stored
  refine ⟨_, .inl rfl, code, ?_, ?_⟩
  · simp [buildResponse, answers, originals, untimed, Function.comp_def]
  · simp [buildResponse, authorities, originals, untimed, Function.comp_def]

/-- A message without records is never what a cache in use returns. -/
theorem get_returns_records {inner after : Inner} {key : CacheKey} {now : Instant}
    {lookup : Lookup} {msg : Message} (sound : inner.Sound)
    (records : ∀ key entry, inner.entryAt key = some entry → entry.answers ++ entry.authorities ≠ [])
    (ran : inner.get key now = some (after, lookup))
    (empty : msg.answers = [] ∧ msg.authorities = []) : ¬ lookup.Returns msg := by
  intro returns
  obtain ⟨served, hit, _, answers, authorities⟩ := returns
  have found : lookup ≠ .Miss := by
    intro miss
    rw [miss] at hit
    simp at hit
  obtain ⟨entry, held, rfl⟩ := sound.get_hit ran found
  obtain ⟨ttl, rfl⟩ := lookup_hit hit
  rw [empty.1] at answers
  rw [empty.2] at authorities
  have none : entry.answers = [] ∧ entry.authorities = [] := by
    simpa [buildResponse] using And.intro answers authorities
  exact records key entry held (by rw [none.1, none.2]; rfl)

theorem lifetime_of_records {msg : Message} (some_record : ¬ (msg.answers = [] ∧ msg.authorities = [])) :
    ∃ secs, lifetime msg = some secs := by
  simp only [lifetime]
  rw [originals_append]
  cases records : msg.answers ++ msg.authorities with
  | nil => exact absurd (List.append_eq_nil_iff.mp records) some_record
  | cons first rest => exact ⟨_, rfl⟩

theorem Negative.code {msg : Message} (negative : Negative msg) :
    msg.responseCode = .NoError ∨ msg.responseCode = .NXDomain := by
  rcases negative with code | ⟨code, _⟩
  · exact .inr code
  · exact .inl code

/-- A negative answer with any record at all is taken in. -/
theorem negative_stored {wireLen : Message → Option Nat} {held : Inner} {msg : Message}
    (sound : held.Sound) (key : CacheKey) (now : Instant) (negative : Negative msg)
    (some_record : ¬ (msg.answers = [] ∧ msg.authorities = [])) :
    ∃ after entry, held.insert wireLen key msg now = some after ∧ after.entryAt key = some entry ∧
      entry.Holds msg ∧ lifetime msg = some entry.effectiveTtlSecs := by
  obtain ⟨secs, lives⟩ := lifetime_of_records some_record
  obtain ⟨entry, stored, same⟩ := entryOf_of_lifetime negative.code lives now
  obtain ⟨after, inserted, _⟩ := sound.insert wireLen key msg now
  obtain ⟨_, _, _, filled, _⟩ := sound.insert_spec inserted
  obtain ⟨answers, authorities, code, _⟩ := entryOf_records stored
  exact ⟨after, entry, inserted, filled entry stored, ⟨code, answers, authorities⟩, same ▸ lives⟩

theorem lifetime_le_soa {msg : Message} {secs : Nat} (lives : lifetime msg = some secs)
    {record : Record} (member : record ∈ msg.authorities) {soa : SOA}
    (data : record.data = .SOA soa) : secs ≤ (min record.ttl soa.minimum).toNat := by
  have listed : OriginalRecord.mk record record.ttl ∈
      originals msg.answers ++ originals msg.authorities :=
    List.mem_append_right _ (List.mem_map_of_mem (f := fun record => OriginalRecord.mk record record.ttl) member)
  have least := (List.min?_eq_some_iff.mp lives).2 _ (List.mem_map_of_mem listed)
  simpa only [OriginalRecord.lifetime, data] using least

/-- A negative answer is kept by its SOA exactly when it has one, or has no record. -/
theorem kept_by_soa_iff {wireLen : Message → Option Nat} {limits : Limits} {before : List Op}
    {held : Inner} {lookups : List Lookup}
    (reached : (Inner.withLimits limits).exec wireLen before = some (held, lookups))
    {msg : Message} (negative : Negative msg) (key : CacheKey) (now : Instant) :
    KeptBySoa wireLen held key msg now ↔
      HasSoa msg ∨ msg.answers = [] ∧ msg.authorities = [] := by
  have sound := exec_sound (withLimits_sound limits) reached
  have records := exec_records (withLimits_sound limits)
    (fun key _ found => absurd ((withLimits_entryAt limits key).symm.trans found) nofun) reached
  constructor
  · intro kept
    by_cases soa : HasSoa msg
    · exact .inl soa
    · by_cases empty : msg.answers = [] ∧ msg.authorities = []
      · exact .inr empty
      · obtain ⟨after, entry, inserted, found, holds, _⟩ :=
          negative_stored sound key now negative empty
        exact absurd holds (kept.leftOut soa after entry inserted found)
  · intro given
    have still : ∀ after, held.insert wireLen key msg now = some after → after.Sound ∧
        ∀ key entry, after.entryAt key = some entry → entry.answers ++ entry.authorities ≠ [] := by
      intro after inserted
      have ran : held.exec wireLen [.insert key msg now] = some (after, []) := by
        simp only [Inner.exec, inserted, Option.bind_eq_bind, Option.bind_some]
      exact ⟨exec_sound sound ran, exec_records sound records ran⟩
    refine ⟨?_, ?_, ?_⟩
    · intro bare after entry inserted found holds
      exact (still after inserted).2 key entry found (holds.records (given.resolve_left bare))
    · intro bare after rest later others instant final lookup inserted ran got
      obtain ⟨sound, records⟩ := still after inserted
      exact get_returns_records (exec_sound sound ran) (exec_records sound records ran) got
        (given.resolve_left bare)
    · intro record member soa data
      have some_record : ¬ (msg.answers = [] ∧ msg.authorities = []) := by
        intro empty
        rw [empty.2] at member
        contradiction
      obtain ⟨after, entry, inserted, found, holds, lives⟩ :=
        negative_stored sound key now negative some_record
      exact ⟨after, entry, inserted, found, holds, lifetime_le_soa lives member data⟩

/-- An NXDOMAIN with the SOA that says how long it holds. -/
theorem soa_kept : KeptBySoa (fun _ => none) (.withLimits roomy) zoneKey
    (nxdomain (zoneSoa 3600 60)) (instant 0) := by
  have reached : (Inner.withLimits roomy).exec (fun _ => none) [] =
      some (.withLimits roomy, []) := rfl
  exact (kept_by_soa_iff reached (.inl rfl) zoneKey (instant 0)).mpr
    (.inl ⟨zoneSoa 3600 60, List.mem_cons_self, _, rfl⟩)

/-- An NXDOMAIN whose authority section names a server but holds no SOA is cached for the
minute of that record, and returned. -/
theorem nameserver_cached :
    ∃ filled after served,
      (Inner.withLimits roomy).insert (fun _ => none) zoneKey (nxdomain zoneServer) (instant 0) =
        some filled ∧
      filled.get zoneKey (instant 30) = some (after, .Fresh served) ∧
      Negative (nxdomain zoneServer) ∧ ¬ HasSoa (nxdomain zoneServer) ∧
      ¬ KeptBySoa (fun _ => none) (.withLimits roomy) zoneKey (nxdomain zoneServer) (instant 0) := by
  have minute : lifetime (nxdomain zoneServer) = some 60 := rfl
  have bare : ¬ HasSoa (nxdomain zoneServer) := by
    intro has
    obtain ⟨record, member, soa, data⟩ := has
    obtain rfl : record = zoneServer := List.mem_singleton.mp member
    cases data
  obtain ⟨entry, stored, looked⟩ := nxdomain_lookup rfl minute
  obtain ⟨filled, after, inserted, got⟩ :=
    (withLimits_sound roomy).get_stored (fun _ => none) stored (instant 30)
  have fresh := got.trans (congrArg (fun hit => some (after, hit)) looked)
  refine ⟨filled, after, _, inserted, fresh, .inl rfl, bare, fun kept => ?_⟩
  exact kept.neverReturned bare filled [] filled [] (instant 30) after _ inserted rfl fresh
    (fresh_returns stored _)

end Sumidero.Cache
