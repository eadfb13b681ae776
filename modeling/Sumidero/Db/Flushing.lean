import Sumidero.Db.Retention

namespace Sumidero.Db

open Data

/-! Flushes next to the sweeps.  Sweeps take rows away, but what the writer has settled, and
whom it has told, does not depend on the rows that are left. -/

/-- The books with no word of which batches were committed. -/
def Ledger.forgotten (ledger : Ledger) : Ledger :=
  { ledger with batches := ledger.batches.map fun batch => { batch with committed := false } }

/-- The writer's books and the acks, whatever the tables have lost. -/
structure Settling (ledger : Ledger) (state : State) : Prop where
  recorded : Recorded state.tables ledger.forgotten state
  placed : Placed ledger state
  timed : Timed ledger state

/-- A flush that was queued came after at least these events. -/
def Covers (ledger : Ledger) (taken : List LogEvent) (ack : Ack) : Prop :=
  ∀ accepted, (ack, accepted) ∈ ledger.flushed → taken.length ≤ accepted

/-- The events that this step of the log accepts. -/
def Activity.accepting : Activity → List LogEvent
  | .writer (.log event true) => [event]
  | _ => []

section Forgotten

variable {capacity : Nat} {found : Tables} {ledger : Ledger} {state before after : State}
  {event : Event}

theorem settled_forgotten : ledger.forgotten.settled = ledger.settled := by
  simp only [Ledger.settled, Ledger.forgotten, List.flatMap_map]

theorem committed_forgotten : ledger.forgotten.committed = [] := by
  simp [Ledger.committed, Ledger.forgotten]

theorem forgotten_settle (committed : Bool) :
    (ledger.forgotten.settle committed).forgotten = (ledger.settle committed).forgotten := by
  simp [Ledger.forgotten, Ledger.settle]

theorem forgotten_note :
    (ledger.forgotten.note before event).forgotten = (ledger.note before event).forgotten := by
  have same : ledger.forgotten.forgotten = ledger.forgotten := by simp [Ledger.forgotten]
  cases event with
  | log _ room => cases room <;> simp [Ledger.note, Ledger.forgotten]
  | flush room => cases room <;> simp [Ledger.note, Ledger.flush, Ledger.forgotten]
  | begin ok =>
      cases ok with
      | true => exact same
      | false => exact forgotten_settle false
  | insert ok =>
      cases ok with
      | true => exact same
      | false => exact forgotten_settle false
  | commit ok => exact forgotten_settle ok
  | ack => exact same
  | _ => simp [Ledger.note, Ledger.flush, Ledger.forgotten]

theorem recorded_forgotten (recorded : Recorded found ledger state) :
    Recorded state.tables ledger.forgotten state where
  rows := by rw [committed_forgotten, Tables.insertAll_nil]
  order := by
    rw [settled_forgotten]
    exact recorded.order
  hand := recorded.hand
  drops := recorded.drops

theorem timed_forgotten : Timed ledger.forgotten state ↔ Timed ledger state := by
  constructor
  · rintro ⟨ended, held, queued⟩
    rw [settled_forgotten] at ended held queued
    exact ⟨ended, held, queued⟩
  · rintro ⟨ended, held, queued⟩
    refine ⟨?_, ?_, ?_⟩ <;> rw [settled_forgotten] <;> assumption

theorem placed_forgotten (placed : Placed ledger state) : Placed ledger.forgotten state :=
  ⟨placed.acks, placed.unique, placed.fresh⟩

end Forgotten

/-! ### One step -/

section Step

variable {capacity : Nat} {ledger : Ledger} {state before after : State} {event : Event}

theorem settling_opened (found : Tables) : Settling Ledger.opened (opened found) where
  recorded := recorded_forgotten recorded_opened
  placed := placed_opened found
  timed := timed_opened found

theorem Settling.write (settling : Settling ledger before)
    (stepped : step capacity before event = some after) :
    Settling (ledger.note before event) after := by
  obtain ⟨recorded, placed, timed⟩ := settling
  have recordedAfter := recorded_step recorded stepped
  have timedAfter := timed_step (timed_forgotten.mpr timed) (placed_forgotten placed) recorded
    stepped
  refine ⟨?_, placed_step placed stepped, ?_⟩
  · rw [← forgotten_note]
    exact recorded_forgotten recordedAfter
  · rw [← timed_forgotten, ← forgotten_note, timed_forgotten]
    exact timedAfter

theorem Settling.swept (settling : Settling ledger state) (tables : Tables)
    (free : state.writer.writing = false) : Settling ledger { state with tables } where
  recorded :=
    { rows := by rw [committed_forgotten, Tables.insertAll_nil]
      order := settling.recorded.order
      hand := settling.recorded.hand.swept free
      drops := settling.recorded.drops }
  placed := ⟨settling.placed.acks, settling.placed.unique, settling.placed.fresh⟩
  timed := ⟨settling.timed.ended, settling.timed.held, settling.timed.queued⟩

theorem Settling.order (settling : Settling ledger state) :
    ledger.accepted = ledger.settled ++ ledger.inHand ++ eventsOf state.queue := by
  have order := settling.recorded.order
  rw [settled_forgotten] at order
  exact order

theorem accepted_note :
    (ledger.note before event).accepted =
      ledger.accepted ++ (Activity.writer event).accepting := by
  cases event with
  | log _ room => cases room <;> simp [Ledger.note, Activity.accepting]
  | flush room => cases room <;> simp [Ledger.note, Ledger.flush, Activity.accepting]
  | begin ok => cases ok <;> simp [Ledger.note, Ledger.settle, Activity.accepting]
  | insert ok => cases ok <;> simp [Ledger.note, Ledger.settle, Activity.accepting]
  | _ => simp [Ledger.note, Ledger.flush, Ledger.settle, Activity.accepting]

theorem settled_note : ledger.settled <+: (ledger.note before event).settled := by
  have settles : ∀ ok, ledger.settled <+: (ledger.settle ok).settled := by
    intro ok
    rw [Ledger.settled_settle]
    exact List.prefix_append _ _
  cases event with
  | log _ room => cases room <;> exact List.prefix_refl _
  | flush room => cases room <;> exact List.prefix_refl _
  | begin ok =>
      cases ok with
      | true => exact List.prefix_refl _
      | false => exact settles false
  | insert ok =>
      cases ok with
      | true => exact List.prefix_refl _
      | false => exact settles false
  | commit ok => exact settles ok
  | _ => exact List.prefix_refl _

theorem flushed_note {ack : Ack} {accepted : Nat}
    (member : (ack, accepted) ∈ (ledger.note before event).flushed) :
    (ack, accepted) ∈ ledger.flushed ∨ accepted = ledger.accepted.length := by
  have flushes : ∀ other, (ack, accepted) ∈ (ledger.flush other).flushed →
      (ack, accepted) ∈ ledger.flushed ∨ accepted = ledger.accepted.length := by
    intro other among
    rcases List.mem_append.mp among with known | new
    · exact .inl known
    · cases List.mem_singleton.mp new
      exact .inr rfl
  cases event with
  | log _ room => cases room <;> exact .inl member
  | flush room =>
      cases room with
      | true => exact flushes _ member
      | false => exact .inl member
  | unblock other => exact flushes _ member
  | begin ok => cases ok <;> exact .inl member
  | insert ok => cases ok <;> exact .inl member
  | _ => exact .inl member

theorem refused_note : ledger.refused ≤ (ledger.note before event).refused := by
  cases event with
  | count => exact Nat.le_succ _
  | log _ room => cases room <;> exact Nat.le_refl _
  | flush room => cases room <;> exact Nat.le_refl _
  | begin ok => cases ok <;> exact Nat.le_refl _
  | insert ok => cases ok <;> exact Nat.le_refl _
  | _ => exact Nat.le_refl _

end Step

/-! ### What a flush settles -/

section Flush

variable {capacity : Nat} {ledger : Ledger} {state before after : State} {event : Event}
  {taken : List LogEvent} {ack : Ack}

theorem Covers.note (covers : Covers ledger taken ack) (accepted : taken <+: ledger.accepted) :
    Covers (ledger.note before event) taken ack := by
  intro count member
  rcases flushed_note member with known | rfl
  · exact covers count known
  · exact accepted.length_le

/-- The channel of a flush is new, so that it is queued after all that was accepted before. -/
theorem Settling.covers_next (settling : Settling ledger before)
    (accepted : taken <+: ledger.accepted) :
    Covers (ledger.note before event) taken before.nextAck := by
  apply Covers.note _ accepted
  intro count member
  have known : before.nextAck ∈ ledger.flushed.map Prod.fst := List.mem_map_of_mem member
  have older := settling.placed.fresh _ (List.mem_append_left _ known)
  exact absurd older (Nat.lt_irrefl _)

/-- Once its wait has ended, what it covers is settled. -/
theorem Settling.settled_of_ended (settling : Settling ledger state)
    (accepted : taken <+: ledger.accepted) (covers : Covers ledger taken ack)
    (ended : ack ∈ state.ended) : taken <+: ledger.settled := by
  have somewhere : ack ∈ state.placed := by
    simp only [State.placed]
    exact List.mem_append_left _ (List.mem_append_left _ ended)
  obtain ⟨⟨same, count⟩, member, rfl⟩ :=
    List.mem_map.mp (settling.placed.acks.mem_iff.mp somewhere)
  have enough : taken.length ≤ ledger.settled.length :=
    (covers count member).trans (settling.timed.ended _ ended count member)
  have within : ledger.settled <+: ledger.accepted := by
    rw [settling.order, List.append_assoc]
    exact List.prefix_append _ _
  exact List.prefix_of_prefix_length_le accepted within enough

end Flush

/-! ### The same with sweeps -/

section Log

variable {capacity : Nat} {shelves : Shelves} {before after : Log} {activity : Activity}
  {taken : List LogEvent} {ack : Ack}

theorem ledger_note : (shelves.note before activity).ledger = match activity with
    | .writer event => shelves.ledger.note before.state event
    | _ => shelves.ledger := by
  cases activity with
  | writer event => rfl
  | sweepQueries now ok => cases ok <;> rfl
  | sweepDivergences ok =>
      simp only [Shelves.note]
      split
      · rfl
      · split <;> rfl

theorem settling_step (settling : Settling shelves.ledger before.state)
    (stepped : before.step capacity activity = some after) :
    Settling (shelves.note before activity).ledger after.state := by
  rw [ledger_note]
  cases activity with
  | writer event =>
      obtain ⟨state, wrote, rfl⟩ := Option.map_eq_some_iff.mp stepped
      exact settling.write wrote
  | sweepQueries now ok =>
      simp only [Log.step] at stepped
      split at stepped
      · cases ok with
        | false =>
            cases stepped
            exact settling
        | true =>
            simp only [if_true] at stepped
            split at stepped
            · cases stepped
            · next free =>
              cases stepped
              exact settling.swept _ (Bool.eq_false_iff.mpr free)
      · cases stepped
  | sweepDivergences ok =>
      simp only [Log.step] at stepped
      split at stepped
      · cases stepped
      · cases ok with
        | false =>
            cases stepped
            exact settling
        | true =>
            simp only [if_true] at stepped
            split at stepped
            · cases stepped
            · next free =>
              cases stepped
              exact settling.swept _ (Bool.eq_false_iff.mpr free)

theorem accepted_grows :
    (shelves.note before activity).ledger.accepted =
      shelves.ledger.accepted ++ activity.accepting := by
  rw [ledger_note]
  cases activity with
  | writer event => exact accepted_note
  | sweepQueries _ _ => exact (List.append_nil _).symm
  | sweepDivergences _ => exact (List.append_nil _).symm

theorem settled_grows : shelves.ledger.settled <+: (shelves.note before activity).ledger.settled := by
  rw [ledger_note]
  cases activity with
  | writer event => exact settled_note
  | sweepQueries _ _ => exact List.prefix_refl _
  | sweepDivergences _ => exact List.prefix_refl _

theorem refused_grows : shelves.ledger.refused ≤ (shelves.note before activity).ledger.refused := by
  rw [ledger_note]
  cases activity with
  | writer event => exact refused_note
  | sweepQueries _ _ => exact Nat.le_refl _
  | sweepDivergences _ => exact Nat.le_refl _

theorem Covers.step (covers : Covers shelves.ledger taken ack)
    (accepted : taken <+: shelves.ledger.accepted) :
    Covers (shelves.note before activity).ledger taken ack := by
  rw [ledger_note]
  cases activity with
  | writer event => exact covers.note accepted
  | sweepQueries _ _ => exact covers
  | sweepDivergences _ => exact covers

end Log

end Sumidero.Db
