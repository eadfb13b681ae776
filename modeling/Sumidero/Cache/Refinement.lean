import Sumidero.Cache.RecencyList

namespace Sumidero.Cache

open Sumidero.Dns Sumidero.Data

/-! The slot array refines the recency list. -/

/-- The slot array stands for these items. -/
def Inner.Holds (inner : Inner) (items : List Item) : Prop :=
  ∃ cells free, Represents inner cells free ∧ cells.map Prod.snd = items

section Steps

variable {inner : Inner} {items : List Item}

theorem get_missing {cells : List (Nat × Item)} {free : List Nat}
    (rep : Represents inner cells free) {key : CacheKey} (missing : inner.map.lookup key = none) :
    ∀ cell ∈ cells, cell.2.key ≠ key := by
  intro cell member equal
  subst equal
  rw [rep.lookup member] at missing
  contradiction

/-- The key's item splits the list where it stands. -/
theorem find_split {cells : List (Nat × Item)} {free : List Nat}
    (rep : Represents inner cells free) {key : CacheKey} {idx : Nat}
    (found : inner.map.lookup key = some idx) :
    ∃ front back item, cells = front ++ (idx, item) :: back ∧ item.key = key ∧
      (cells.map Prod.snd).find? (fun item => item.key = key) = some item ∧
      RecencyList.without (cells.map Prod.snd) key = (front ++ back).map Prod.snd := by
  obtain ⟨⟨slot, item⟩, member, rfl, rfl⟩ := rep.lookup_some found
  obtain ⟨front, back, rfl⟩ := List.append_of_mem member
  have keys := rep.keys
  have distinct : ((front.map Prod.snd ++ item :: back.map Prod.snd).map Item.key).Nodup := by
    simpa only [List.map_append, List.map_cons, List.map_map, Function.comp_def] using keys
  obtain ⟨find, erase⟩ := find?_eraseP_split Item.key distinct
  refine ⟨front, back, item, rfl, rfl, ?_, ?_⟩
  · simpa only [List.map_append, List.map_cons] using find
  · simpa only [RecencyList.without, List.map_append, List.map_cons] using erase

/-- While an entry lives, the clamp to 1 and the cap on the elapsed time change nothing. -/
theorem decrementedTtl_eq {elapsed : Nat} {ttl : UInt32} (alive : elapsed < ttl.toNat) :
    decrementedTtl elapsed ttl = .ofNat (ttl.toNat - elapsed) := by
  have bound := ttl.toNat_lt
  simp only [decrementedTtl]
  congr 1
  omega

theorem buildResponse_congr {entry : Entry} {first second : UInt32 → UInt32}
    (same : ∀ ttl, entry.effectiveTtlSecs ≤ ttl.toNat → first ttl = second ttl) :
    buildResponse entry first = buildResponse entry second := by
  have answers : ∀ record ∈ entry.answers,
      first record.originalTtl = second record.originalTtl :=
    fun record member => same _ (entry.outlived record (List.mem_append_left _ member))
  have authorities : ∀ record ∈ entry.authorities,
      first record.originalTtl = second record.originalTtl :=
    fun record member => same _ (entry.outlived record (List.mem_append_right _ member))
  simp only [buildResponse]
  simp only [Message.mk.injEq, true_and]
  refine ⟨?_, ?_, trivial⟩
  · exact List.map_congr_left fun record member => by rw [answers record member]
  · exact List.map_congr_left fun record member => by rw [authorities record member]

/-- Seconds since an instant are too few for the saturated sum to matter. -/
theorem expired_iff {lifetime stale : Nat} {now inserted : Instant} :
    saturatingAdd lifetime stale ≤ now.secsSince inserted ↔
      lifetime + stale ≤ now.secsSince inserted :=
  saturatingAdd_le_iff (Nat.lt_of_lt_of_le (now.secsSince_lt inserted) (by decide))

theorem get_of_find {limits : Limits} {key : CacheKey} {now : Instant} {item : Item}
    (find : items.find? (fun item => item.key = key) = some item) :
    RecencyList.get limits items key now =
      if item.entry.effectiveTtlSecs + limits.serveStaleSecs ≤
          now.secsSince item.entry.insertedAt then
        (RecencyList.without items key, .Miss)
      else if item.entry.effectiveTtlSecs ≤ now.secsSince item.entry.insertedAt then
        (item :: RecencyList.without items key, .Stale (buildResponse item.entry fun _ => 30))
      else
        (item :: RecencyList.without items key, .Fresh (buildResponse item.entry fun ttl =>
          .ofNat (ttl.toNat - now.secsSince item.entry.insertedAt))) := by
  simp only [RecencyList.get, find]

theorem get_refines (holds : inner.Holds items) (key : CacheKey) (now : Instant) :
    ∃ after, inner.get key now = some (after, (RecencyList.get inner.limits items key now).2) ∧
      after.Holds (RecencyList.get inner.limits items key now).1 ∧
      after.limits = inner.limits := by
  obtain ⟨cells, free, rep, rfl⟩ := holds
  cases found : inner.map.lookup key with
  | none =>
      have missing : (cells.map Prod.snd).find? (fun item => item.key = key) = none := by
        simpa using fun slot item member => get_missing rep found (slot, item) member
      refine ⟨inner, ?_, ⟨cells, free, rep, ?_⟩, rfl⟩ <;>
        simp only [Inner.get, found, RecencyList.get, missing]
  | some idx =>
      obtain ⟨front, back, item, rfl, rfl, find, rest⟩ := find_split rep found
      have slot := rep.items (idx, item) (List.mem_append_right _ List.mem_cons_self)
      obtain ⟨node, occupied, rfl⟩ := item?_eq_some slot
      by_cases expired : node.entry.effectiveTtlSecs + inner.limits.serveStaleSecs ≤
          now.secsSince node.entry.insertedAt
      · obtain ⟨after, removed, left, limits⟩ := remove_spec rep
        rw [get_of_find find, Node.item_entry, if_pos expired, rest]
        refine ⟨after, ?_, ⟨_, _, left, rfl⟩, limits⟩
        simp [Inner.get, found, occupied, expired_iff, expired, removed]
      · obtain ⟨after, moved, front', limits⟩ := moveToHead_spec rep
        have again := front'.items (idx, node.item) List.mem_cons_self
        obtain ⟨same, reoccupied, item⟩ := item?_eq_some again
        have entry : same.entry = node.entry := congrArg Item.entry item
        rw [get_of_find find, Node.item_entry, if_neg expired, rest]
        by_cases stale : node.entry.effectiveTtlSecs ≤ now.secsSince node.entry.insertedAt
        · rw [if_pos stale]
          refine ⟨after, ?_, ⟨_, _, front', rfl⟩, limits⟩
          simp [Inner.get, found, occupied, expired_iff, expired, moved, reoccupied, entry,
            Nat.not_lt.mpr stale, STALE_ANSWER_TTL_SECS]
        · have alive := Nat.lt_of_not_le stale
          have ttls : buildResponse node.entry
              (decrementedTtl (now.secsSince node.entry.insertedAt)) =
              buildResponse node.entry fun ttl =>
                .ofNat (ttl.toNat - now.secsSince node.entry.insertedAt) :=
            buildResponse_congr fun ttl long => decrementedTtl_eq (Nat.lt_of_lt_of_le alive long)
          rw [if_neg stale]
          refine ⟨after, ?_, ⟨_, _, front', rfl⟩, limits⟩
          simp [Inner.get, found, occupied, expired_iff, expired, moved, reoccupied, entry,
            alive, ttls]

theorem any_of_find {key : CacheKey} {item : Item}
    (find : items.find? (fun item => item.key = key) = some item) :
    (items.any fun item => item.key = key) = true := by
  have same := List.find?_some find
  exact List.any_eq_true.mpr ⟨item, List.mem_of_find?_eq_some find, same⟩

theorem insert_refines (wireLen : Message → Option Nat) (holds : inner.Holds items)
    (key : CacheKey) (msg : Message) (now : Instant) :
    ∃ after, inner.insert wireLen key msg now = some after ∧
      after.Holds (RecencyList.insert wireLen inner.limits items key msg now) ∧
      after.limits = inner.limits := by
  obtain ⟨cells, free, rep, rfl⟩ := holds
  simp only [Inner.insert, RecencyList.insert]
  cases stored : entryOf msg now with
  | none => exact ⟨inner, rfl, ⟨cells, free, rep, rfl⟩, rfl⟩
  | some entry =>
      cases found : inner.map.lookup key with
      | some idx =>
          obtain ⟨front, back, item, rfl, rfl, find, rest⟩ := find_split rep found
          obtain ⟨node, occupied, rfl⟩ := item?_eq_some
            (rep.items (idx, item) (List.mem_append_right _ List.mem_cons_self))
          have replaced := replace_spec rep occupied entry (Inner.estimatedBytes wireLen msg)
          obtain ⟨middle, moved, front', sameLimits⟩ := moveToHead_spec replaced
          obtain ⟨after, free', trimmed, final, limits⟩ := evictToByteBudget_spec front'
          refine ⟨after, ?_, ⟨_, _, final, ?_⟩, limits.trans sameLimits⟩
          · simp only [occupied, moved, trimmed, Option.bind_eq_bind, Option.bind_some]
          · rw [any_of_find find, if_pos rfl, rest, sameLimits]
            exact trim_map Item.bytes _ Prod.snd _
      | none =>
          have missing := get_missing rep found
          have absent : ¬ ((cells.map Prod.snd).any fun item => item.key = key) = true := by
            simpa using fun slot item member => missing (slot, item) member
          obtain ⟨emptier, free₁, evicted, rep₁, room, limits₁⟩ := makeRoom_spec rep
          obtain ⟨middle, idx, free₂, ran, allocated⟩ := allocSlot_spec rep₁ room
            { key, entry, bytes := Inner.estimatedBytes wireLen msg, prev := NONE, next := NONE }
          have missing₁ : ∀ cell ∈
              (if inner.limits.capacity ≤ cells.length then cells.dropLast else cells),
              cell.2.key ≠ key := by
            intro cell member
            split at member
            · exact missing cell (List.dropLast_subset _ member)
            · exact missing cell member
          obtain ⟨pushed, entered, rep₂, limits₂⟩ := enter_spec rep₁ allocated missing₁
          obtain ⟨after, free₃, trimmed, rep₃, limits₃⟩ := evictToByteBudget_spec rep₂
          have sameLimits := limits₂.trans limits₁
          refine ⟨after, ?_, ⟨_, _, rep₃, ?_⟩, limits₃.trans sameLimits⟩
          · simp only [evicted, ran, entered, trimmed, Option.bind_eq_bind, Option.bind_some]
          · rw [if_neg absent, List.length_map]
            simp only [sameLimits]
            refine (trim_map Item.bytes _ Prod.snd _).trans ?_
            rw [List.map_cons, apply_ite (List.map Prod.snd), List.map_dropLast]
            rfl

end Steps

theorem withLimits_holds (limits : Limits) : (Inner.withLimits limits).Holds [] := by
  refine ⟨[], [], ⟨⟨trivial, rfl, rfl⟩, ⟨nofun, .refl _, rfl, trivial, rfl, .refl _, ?_⟩⟩, rfl⟩
  exact Nat.zero_le _

/-- A slot array in a state some list stands behind; its operations do not panic. -/
def Inner.Sound (inner : Inner) : Prop := ∃ items, inner.Holds items

theorem Inner.Sound.get {inner : Inner} (sound : inner.Sound) (key : CacheKey) (now : Instant) :
    ∃ after lookup, inner.get key now = some (after, lookup) ∧ after.Sound := by
  obtain ⟨items, holds⟩ := sound
  obtain ⟨after, ran, next, _⟩ := get_refines holds key now
  exact ⟨after, _, ran, _, next⟩

theorem Inner.Sound.insert {inner : Inner} (sound : inner.Sound) (wireLen : Message → Option Nat)
    (key : CacheKey) (msg : Message) (now : Instant) :
    ∃ after, inner.insert wireLen key msg now = some after ∧ after.Sound := by
  obtain ⟨items, holds⟩ := sound
  obtain ⟨after, ran, next, _⟩ := insert_refines wireLen holds key msg now
  exact ⟨after, ran, _, next⟩

theorem entryOf_records {msg : Message} {now : Instant} {entry : Entry}
    (stored : entryOf msg now = some entry) :
    entry.answers = originals msg.answers ∧ entry.authorities = originals msg.authorities ∧
      entry.responseCode = msg.responseCode ∧ entry.insertedAt = now := by
  simp only [entryOf] at stored
  split at stored
  · cases stored
  · split at stored
    · cases stored
    · cases stored
      exact ⟨rfl, rfl, rfl, rfl⟩

/-- A message inserted less than a second ago is a fresh hit. -/
theorem RecencyList.get_insert (wireLen : Message → Option Nat) {limits : Limits}
    {items : List Item} {key : CacheKey} {msg : Message} {now later : Instant} {entry : Entry}
    (stored : entryOf msg now = some entry) (lives : 0 < entry.effectiveTtlSecs)
    (elapsed : later.secsSince now = 0) :
    (get limits (insert wireLen limits items key msg now) key later).2 =
      .Fresh (buildResponse entry id) := by
  simp only [insert]
  rw [stored]
  dsimp only
  generalize (if items.any (fun item => item.key = key) = true then without items key
    else if limits.capacity ≤ items.length then items.dropLast else items) = rest
  let item : Item := { key, entry, bytes := Inner.estimatedBytes wireLen msg }
  obtain ⟨kept, trimmed⟩ := trim_cons Item.bytes limits.maxBytes item rest
  have inserted : item.entry.insertedAt = now := (entryOf_records stored).2.2.2
  have find : (item :: kept).find? (fun item => item.key = key) = some item := by simp [item]
  have outlives : ¬ item.entry.effectiveTtlSecs + limits.serveStaleSecs ≤ 0 :=
    Nat.not_le.mpr (Nat.add_pos_left lives _)
  rw [trimmed, get_of_find find, inserted, elapsed, if_neg outlives, if_neg (Nat.not_le.mpr lives)]
  simp only [Nat.sub_zero, UInt32.ofNat_toNat]
  rfl

theorem RecencyList.get_built {limits : Limits} {items : List Item} {key : CacheKey}
    {now : Instant} {msg : Message}
    (hit : (get limits items key now).2 = .Fresh msg ∨ (get limits items key now).2 = .Stale msg) :
    ∃ entry ttl, msg = buildResponse entry ttl := by
  cases find : items.find? (fun item => item.key = key) with
  | none => simp [get, find] at hit
  | some item =>
      rw [get_of_find find] at hit
      split at hit
      · simp at hit
      split at hit
      · simp only [reduceCtorEq, Lookup.Stale.injEq, false_or] at hit
        exact ⟨_, _, hit.symm⟩
      · simp only [reduceCtorEq, Lookup.Fresh.injEq, or_false] at hit
        exact ⟨_, _, hit.symm⟩

theorem Inner.Sound.get_built {inner after : Inner} (sound : inner.Sound) {key : CacheKey}
    {now : Instant} {lookup : Lookup} {msg : Message}
    (ran : inner.get key now = some (after, lookup))
    (hit : lookup = .Fresh msg ∨ lookup = .Stale msg) :
    ∃ entry ttl, msg = buildResponse entry ttl := by
  obtain ⟨items, holds⟩ := sound
  obtain ⟨_, refined, _⟩ := get_refines holds key now
  cases ran.symm.trans refined
  exact RecencyList.get_built hit

theorem Inner.Sound.get_insert {inner : Inner} (sound : inner.Sound)
    (wireLen : Message → Option Nat) (key : CacheKey) {msg : Message} {now later : Instant}
    {entry : Entry} (stored : entryOf msg now = some entry) (lives : 0 < entry.effectiveTtlSecs)
    (elapsed : later.secsSince now = 0) :
    ∃ filled after, inner.insert wireLen key msg now = some filled ∧
      filled.get key later = some (after, .Fresh (buildResponse entry id)) := by
  obtain ⟨items, holds⟩ := sound
  obtain ⟨filled, inserted, next, limits⟩ := insert_refines wireLen holds key msg now
  obtain ⟨after, found, _⟩ := get_refines next key later
  rw [limits, RecencyList.get_insert wireLen stored lives elapsed] at found
  exact ⟨filled, after, inserted, found⟩

theorem exec_refines (wireLen : Message → Option Nat) {inner : Inner} {items : List Item}
    (holds : inner.Holds items) (ops : List Op) :
    ∃ after, inner.exec wireLen ops =
        some (after, (RecencyList.exec wireLen inner.limits items ops).2) ∧
      after.Holds (RecencyList.exec wireLen inner.limits items ops).1 := by
  induction ops generalizing inner items with
  | nil => exact ⟨inner, rfl, holds⟩
  | cons op rest ih =>
      cases op with
      | insert key msg now =>
          obtain ⟨next, ran, nextHolds, limits⟩ := insert_refines wireLen holds key msg now
          obtain ⟨after, ranRest, final⟩ := ih nextHolds
          rw [limits] at ranRest final
          exact ⟨after, by simpa [Inner.exec, ran, RecencyList.exec] using ranRest, final⟩
      | get key now =>
          obtain ⟨next, ran, nextHolds, limits⟩ := get_refines holds key now
          obtain ⟨after, ranRest, final⟩ := ih nextHolds
          rw [limits] at ranRest final
          exact ⟨after, by simp [Inner.exec, ran, ranRest, RecencyList.exec], final⟩

theorem mem_buildResponse {entry : Entry} {ttl : UInt32 → UInt32} {record : Record}
    (member : record ∈ (buildResponse entry ttl).answers ++ (buildResponse entry ttl).authorities) :
    ∃ original ∈ entry.answers ++ entry.authorities, record.ttl = ttl original.originalTtl := by
  simp only [buildResponse] at member
  rw [← List.map_append] at member
  obtain ⟨original, stored, rfl⟩ := List.mem_map.mp member
  exact ⟨original, stored, rfl⟩

/-- The subtraction in a fresh TTL is a true one: something is left. -/
theorem fresh_ttl_pos {limits : Limits} {items : List Item} {key : CacheKey} {now : Instant}
    {msg : Message} (fresh : (RecencyList.get limits items key now).2 = .Fresh msg) :
    ∀ record ∈ msg.answers ++ msg.authorities, 1 ≤ record.ttl.toNat := by
  cases find : items.find? (fun item => item.key = key) with
  | none => simp [RecencyList.get, find] at fresh
  | some item =>
      rw [get_of_find find] at fresh
      split at fresh
      · contradiction
      split at fresh
      · contradiction
      · rename_i alive
        cases fresh
        intro record member
        obtain ⟨original, stored, ttl⟩ := mem_buildResponse member
        have outlived := item.entry.outlived original stored
        have bound : original.originalTtl.toNat < UInt32.size := original.originalTtl.toNat_lt
        rw [ttl, UInt32.toNat_ofNat_of_lt' (Nat.lt_of_le_of_lt (Nat.sub_le ..) bound)]
        omega

theorem exec_fresh_ttl_pos (wireLen : Message → Option Nat) (limits : Limits) (items : List Item)
    (ops : List Op) : ∀ msg, .Fresh msg ∈ (RecencyList.exec wireLen limits items ops).2 →
      ∀ record ∈ msg.answers ++ msg.authorities, 1 ≤ record.ttl.toNat := by
  induction ops generalizing items with
  | nil => exact fun _ member => absurd member List.not_mem_nil
  | cons op rest ih =>
      cases op with
      | insert key msg now => exact ih _
      | get key now =>
          intro msg member
          rcases List.mem_cons.mp member with same | later
          · exact fresh_ttl_pos same.symm
          · exact ih _ msg later

/-- From a new cache, every sequence of operations runs without a panic, each `get`
returns what the recency list returns, every fresh TTL is at least 1 without the
clamp, and the slot array stands for the list throughout. -/
theorem cache_refines_recency_list (wireLen : Message → Option Nat) (limits : Limits)
    (ops : List Op) :
    ∃ inner, (Inner.withLimits limits).exec wireLen ops =
        some (inner, (RecencyList.exec wireLen limits [] ops).2) ∧
      inner.Holds (RecencyList.exec wireLen limits [] ops).1 ∧
      ∀ msg, .Fresh msg ∈ (RecencyList.exec wireLen limits [] ops).2 →
        ∀ record ∈ msg.answers ++ msg.authorities, 1 ≤ record.ttl.toNat := by
  obtain ⟨inner, ran, holds⟩ := exec_refines wireLen (withLimits_holds limits) ops
  exact ⟨inner, ran, holds, exec_fresh_ttl_pos wireLen limits [] ops⟩

end Sumidero.Cache
