import Sumidero.Cache.Refinement

namespace Sumidero.Cache

open Sumidero.Dns Sumidero.Data

/-! Which entry the cache has for a key, and what each operation does to it. -/

/-- The entry in the slot the map names for the key. -/
def Inner.entryAt (inner : Inner) (key : CacheKey) : Option Entry := do
  let idx ← inner.map.lookup key
  match ← inner.slots[idx]? with
  | .occupied node => some node.entry
  | .free _ => none

/-- What a lookup at this instant makes of an entry. -/
def Entry.lookup (entry : Entry) (serveStaleSecs : Nat) (now : Instant) : Lookup :=
  let elapsed := now.secsSince entry.insertedAt
  if entry.effectiveTtlSecs + serveStaleSecs ≤ elapsed then .Miss
  else if entry.effectiveTtlSecs ≤ elapsed then .Stale (buildResponse entry fun _ => 30)
  else .Fresh (buildResponse entry fun ttl => .ofNat (ttl.toNat - elapsed))

section Entries

variable {inner after : Inner} {items : List Item} {key other : CacheKey} {now : Instant}

theorem entryAt_eq_some (holds : inner.Holds items) {entry : Entry} :
    inner.entryAt key = some entry ↔ ∃ item ∈ items, item.key = key ∧ item.entry = entry := by
  obtain ⟨cells, free, rep, rfl⟩ := holds
  constructor
  · intro found
    obtain ⟨idx, looked, held⟩ := Option.bind_eq_some_iff.mp found
    obtain ⟨⟨slot, item⟩, member, same, rfl⟩ := rep.lookup_some looked
    obtain ⟨node, occupied, rfl⟩ := item?_eq_some (rep.items _ member)
    simp only [occupied, Option.bind_eq_bind, Option.bind_some, Option.some.injEq] at held
    exact ⟨node.item, List.mem_map_of_mem member, same, held⟩
  · intro held
    obtain ⟨item, member, rfl, rfl⟩ := held
    obtain ⟨cell, inCells, rfl⟩ := List.mem_map.mp member
    obtain ⟨node, occupied, same⟩ := item?_eq_some (rep.items cell inCells)
    simp only [Inner.entryAt, rep.lookup inCells, ← same, occupied, Option.bind_eq_bind, Option.bind_some,
      Node.item_entry]

theorem find?_of_entryAt (holds : inner.Holds items) :
    (items.find? fun item => item.key = key).map Item.entry = inner.entryAt key := by
  cases found : items.find? fun item => item.key = key with
  | some item =>
      have same := List.find?_some found
      simp only [decide_eq_true_eq] at same
      exact ((entryAt_eq_some holds).mpr ⟨item, List.mem_of_find?_eq_some found, same, rfl⟩).symm
  | none =>
      cases held : inner.entryAt key with
      | none => rfl
      | some entry =>
          obtain ⟨item, member, same, _⟩ := (entryAt_eq_some holds).mp held
          simpa [same] using List.find?_eq_none.mp found item member

theorem without_subset {items : List Item} {key : CacheKey} :
    ∀ item ∈ RecencyList.without items key, item ∈ items :=
  fun _ member => List.mem_of_mem_eraseP member

theorem RecencyList.mem_get {limits : Limits} {item : Item}
    (member : item ∈ (get limits items key now).1) : item ∈ items := by
  cases find : items.find? fun item => item.key = key with
  | none => simpa only [get, find] using member
  | some hit =>
      have held := List.mem_of_find?_eq_some find
      rw [get_of_find find] at member
      split at member
      · exact without_subset item member
      split at member <;>
        rcases List.mem_cons.mp member with rfl | left
      · exact held
      · exact without_subset item left
      · exact held
      · exact without_subset item left

theorem RecencyList.get_lookup {limits : Limits} (holds : inner.Holds items) :
    (get limits items key now).2 =
      match inner.entryAt key with
      | none => .Miss
      | some entry => entry.lookup limits.serveStaleSecs now := by
  rw [← find?_of_entryAt holds]
  cases find : items.find? fun item => item.key = key with
  | none => simp only [get, find, Option.map_none]
  | some item =>
      rw [get_of_find find]
      simp only [Option.map_some, Entry.lookup]
      split
      · rfl
      split <;> rfl

/-- A lookup answers from the key's entry, and leaves every key the entry it had or none. -/
theorem Inner.Sound.get_spec (sound : inner.Sound) {lookup : Lookup}
    (ran : inner.get key now = some (after, lookup)) :
    after.Sound ∧ after.limits = inner.limits ∧
      lookup = (match inner.entryAt key with
        | none => .Miss
        | some entry => entry.lookup inner.limits.serveStaleSecs now) ∧
      ∀ other entry, after.entryAt other = some entry → inner.entryAt other = some entry := by
  obtain ⟨items, holds⟩ := sound
  obtain ⟨final, refined, next, limits⟩ := get_refines holds key now
  cases ran.symm.trans refined
  refine ⟨⟨_, next⟩, limits, RecencyList.get_lookup holds, fun other entry found => ?_⟩
  obtain ⟨item, member, same⟩ := (entryAt_eq_some next).mp found
  exact (entryAt_eq_some holds).mpr ⟨item, RecencyList.mem_get member, same⟩

/-- What is not a miss is made of the key's entry. -/
theorem Inner.Sound.get_hit (sound : inner.Sound) {lookup : Lookup}
    (ran : inner.get key now = some (after, lookup)) (hit : lookup ≠ .Miss) :
    ∃ entry, inner.entryAt key = some entry ∧
      lookup = entry.lookup inner.limits.serveStaleSecs now := by
  obtain ⟨_, _, looked, _⟩ := sound.get_spec ran
  cases found : inner.entryAt key with
  | none =>
      rw [found] at looked
      exact absurd looked hit
  | some entry =>
      rw [found] at looked
      exact ⟨entry, rfl, looked⟩

theorem RecencyList.mem_insert {wireLen : Message → Option Nat} {limits : Limits} {msg : Message}
    {entry : Entry} {item : Item} (stored : entryOf msg now = some entry)
    (member : item ∈ insert wireLen limits items key msg now) :
    item.key = key ∧ item.entry = entry ∨ item ∈ items := by
  simp only [insert, stored] at member
  rcases List.mem_cons.mp (trim_subset _ _ _ _ member) with rfl | left
  · exact .inl ⟨rfl, rfl⟩
  · split at left
    · exact .inr (without_subset item left)
    split at left
    · exact .inr (List.dropLast_subset _ left)
    · exact .inr left

/-- A message that is stored becomes the key's entry; no other key gains one. -/
theorem Inner.Sound.insert_spec (sound : inner.Sound) {wireLen : Message → Option Nat}
    {msg : Message} (ran : inner.insert wireLen key msg now = some after) :
    after.Sound ∧ after.limits = inner.limits ∧ (entryOf msg now = none → after = inner) ∧
      (∀ entry, entryOf msg now = some entry → after.entryAt key = some entry) ∧
      ∀ other entry, other ≠ key → after.entryAt other = some entry →
        inner.entryAt other = some entry := by
  obtain ⟨items, holds⟩ := sound
  obtain ⟨final, refined, next, limits⟩ := insert_refines wireLen holds key msg now
  cases ran.symm.trans refined
  refine ⟨⟨_, next⟩, limits, fun refused => ?_, fun entry stored => ?_,
    fun other entry apart found => ?_⟩
  · simpa [Inner.insert, refused] using ran.symm
  · refine (entryAt_eq_some next).mpr ⟨{ key, entry, bytes := estimatedBytes wireLen msg }, ?_, rfl, rfl⟩
    simp only [RecencyList.insert, stored]
    obtain ⟨kept, trimmed⟩ := trim_cons Item.bytes inner.limits.maxBytes
      { key, entry, bytes := estimatedBytes wireLen msg }
      (if items.any fun item => item.key = key then RecencyList.without items key
        else if inner.limits.capacity ≤ items.length then items.dropLast else items)
    rw [trimmed]
    exact List.mem_cons_self
  · obtain ⟨item, member, same, held⟩ := (entryAt_eq_some next).mp found
    refine (entryAt_eq_some holds).mpr ⟨item, ?_, same, held⟩
    cases stored : entryOf msg now with
    | none => simpa only [RecencyList.insert, stored] using member
    | some fresh =>
        rcases RecencyList.mem_insert stored member with new | old
        · exact absurd (same.symm.trans new.1) apart
        · exact old

/-- A message just stored is what the next lookup of its key answers from. -/
theorem Inner.Sound.get_stored (sound : inner.Sound) (wireLen : Message → Option Nat)
    {msg : Message} {entry : Entry} (stored : entryOf msg now = some entry) (later : Instant) :
    ∃ filled final, inner.insert wireLen key msg now = some filled ∧
      filled.get key later = some (final, entry.lookup inner.limits.serveStaleSecs later) := by
  obtain ⟨filled, inserted, _⟩ := sound.insert wireLen key msg now
  obtain ⟨next, limits, _, filledWith, _⟩ := sound.insert_spec inserted
  obtain ⟨final, lookup, ran, _⟩ := next.get key later
  obtain ⟨_, _, looked, _⟩ := next.get_spec ran
  rw [filledWith entry stored, limits] at looked
  subst looked
  exact ⟨filled, final, inserted, ran⟩

/-- After any operations, every entry was there before them or is one of the messages
inserted since. -/
theorem exec_entries {wireLen : Message → Option Nat} {good : CacheKey → Entry → Prop}
    {ops : List Op} {lookups : List Lookup} (sound : inner.Sound)
    (initial : ∀ key entry, inner.entryAt key = some entry → good key entry)
    (inserted : ∀ key msg now entry, .insert key msg now ∈ ops → entryOf msg now = some entry →
      good key entry)
    (ran : inner.exec wireLen ops = some (after, lookups)) :
    after.Sound ∧ after.limits = inner.limits ∧
      ∀ key entry, after.entryAt key = some entry → good key entry := by
  induction ops generalizing inner lookups with
  | nil =>
      cases ran
      exact ⟨sound, rfl, initial⟩
  | cons op rest ih =>
      have later : ∀ key msg now entry, .insert key msg now ∈ rest → entryOf msg now = some entry →
          good key entry := fun key msg now entry member =>
        inserted key msg now entry (List.mem_cons_of_mem _ member)
      cases op with
      | insert key msg now =>
          obtain ⟨next, inserts, ranRest⟩ := Option.bind_eq_some_iff.mp ran
          obtain ⟨sound', limits, refused, filled, others⟩ := sound.insert_spec inserts
          have kept : ∀ other entry, next.entryAt other = some entry → good other entry := by
            intro other entry found
            by_cases same : other = key
            · subst same
              cases stored : entryOf msg now with
              | none =>
                  rw [refused stored] at found
                  exact initial other entry found
              | some fresh =>
                  rw [filled fresh stored] at found
                  cases found
                  exact inserted other msg now _ List.mem_cons_self stored
            · exact initial other entry (others other entry same found)
          obtain ⟨final, same, holds⟩ := ih sound' kept later ranRest
          exact ⟨final, same.trans limits, holds⟩
      | get key now =>
          obtain ⟨⟨next, lookup⟩, gets, further⟩ := Option.bind_eq_some_iff.mp ran
          obtain ⟨⟨last, found⟩, ranRest, same⟩ := Option.bind_eq_some_iff.mp further
          cases same
          obtain ⟨sound', limits, _, others⟩ := sound.get_spec gets
          obtain ⟨final, same, holds⟩ := ih sound'
            (fun other entry found => initial other entry (others other entry found)) later ranRest
          exact ⟨final, same.trans limits, holds⟩

theorem exec_sound {wireLen : Message → Option Nat} {ops : List Op} {lookups : List Lookup}
    (sound : inner.Sound) (ran : inner.exec wireLen ops = some (after, lookups)) : after.Sound := by
  have kept : after.Sound ∧ _ ∧ ∀ key entry, after.entryAt key = some entry → True :=
    exec_entries sound (fun _ _ _ => trivial) (fun _ _ _ _ _ _ => trivial) ran
  exact kept.1

theorem withLimits_entryAt (limits : Limits) (key : CacheKey) :
    (Inner.withLimits limits).entryAt key = none := rfl

theorem withLimits_sound (limits : Limits) : (Inner.withLimits limits).Sound :=
  ⟨[], withLimits_holds limits⟩

end Entries

end Sumidero.Cache
