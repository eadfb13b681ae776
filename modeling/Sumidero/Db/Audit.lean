import Sumidero.Db.Moves

namespace Sumidero.Db

open Data

/-! What the query log owes its callers: which events were accepted, and in which batch each
of them ended. -/

/-! ### The ledger -/

/-- The events of a batch whose transaction has ended. -/
structure Batch where
  events : List LogEvent
  committed : Bool
deriving Repr, DecidableEq

structure Ledger where
  /-- The events for which `log` returned true, in order. -/
  accepted : List LogEvent
  /-- How many calls of `log` returned false. -/
  refused : Nat
  /-- Events out of the queue whose batch has not ended. -/
  inHand : List LogEvent
  /-- The batches that have ended, oldest first. -/
  batches : List Batch
  /-- The flushes that got into the queue, each with the number of events accepted before. -/
  flushed : List (Ack × Nat)
deriving Repr, DecidableEq

namespace Ledger

def opened : Ledger where
  accepted := []
  refused := 0
  inHand := []
  batches := []
  flushed := []

variable (ledger : Ledger)

/-- The events that are committed or belong to a failed batch. -/
def settled : List LogEvent := ledger.batches.flatMap Batch.events

/-- The events of the batches that were committed. -/
def committed : List LogEvent := (ledger.batches.filter Batch.committed).flatMap Batch.events

def flush (ack : Ack) : Ledger :=
  { ledger with flushed := ledger.flushed ++ [(ack, ledger.accepted.length)] }

def settle (committed : Bool) : Ledger :=
  { ledger with
    inHand := []
    batches := ledger.batches ++ [{ events := ledger.inHand, committed }] }

def note (before : State) : Event → Ledger
  | .log event true => { ledger with accepted := ledger.accepted ++ [event] }
  | .log _ false => ledger
  | .count => { ledger with refused := ledger.refused + 1 }
  | .flush true => ledger.flush before.nextAck
  | .flush false => ledger
  | .unblock ack => ledger.flush ack
  | .recv => { ledger with inHand := ledger.inHand ++ eventsOf (before.queue.take 1) }
  | .begin true => ledger
  | .begin false => ledger.settle false
  | .insert true => ledger
  | .insert false => ledger.settle false
  | .commit ok => ledger.settle ok
  | .ack => ledger

variable {ledger}

theorem settled_settle (ok : Bool) : (ledger.settle ok).settled = ledger.settled ++ ledger.inHand := by
  simp [settled, settle]

theorem committed_settle_true :
    (ledger.settle true).committed = ledger.committed ++ ledger.inHand := by
  simp [committed, settle, List.filter_append]

theorem committed_settle_false : (ledger.settle false).committed = ledger.committed := by
  simp [committed, settle, List.filter_append]

/-- No event is committed twice, and none before one that was accepted earlier. -/
theorem committed_sublist : ledger.committed.Sublist ledger.settled := by
  simp only [committed, settled]
  induction ledger.batches with
  | nil => exact List.Sublist.refl _
  | cons batch rest ih =>
      rw [List.filter_cons, List.flatMap_cons]
      split
      · rw [List.flatMap_cons]
        exact ih.append_left _
      · exact ih.trans (List.sublist_append_right _ _)

end Ledger

/-! ### Rows -/

/-- What the writer has of the batch in hand. -/
def InHand (tables : Tables) (inHand : List LogEvent) : Writer → Prop
  | .receiving => inHand = []
  | .batching batch => inHand = eventsOf batch
  | .inserting rest tx _ =>
      ∃ inserted, inHand = inserted ++ eventsOf rest ∧ tx = tables.insertAll inserted
  | .acking _ => inHand = []

/-- The tables, the queue and the counter against the ledger. -/
structure Recorded (found : Tables) (ledger : Ledger) (state : State) : Prop where
  rows : state.tables = found.insertAll ledger.committed
  order : ledger.accepted = ledger.settled ++ ledger.inHand ++ eventsOf state.queue
  hand : InHand state.tables ledger.inHand state.writer
  drops : state.drops = UInt64.ofNat ledger.refused

section Rows

variable {found : Tables} {ledger : Ledger} {state : State}

theorem recorded_opened : Recorded found Ledger.opened (opened found) :=
  ⟨rfl, rfl, rfl, rfl⟩

/-- A batch that fails leaves the tables alone. -/
theorem Recorded.giveUp (recorded : Recorded found ledger state) (rest : List Msg)
    (acks : List Ack) : Recorded found (ledger.settle false) (state.giveUp rest acks) := by
  refine ⟨?_, ?_, rfl, recorded.drops⟩
  · rw [Ledger.committed_settle_false]
    exact recorded.rows
  · rw [Ledger.settled_settle]
    simpa [Ledger.settle, State.giveUp] using recorded.order

theorem Recorded.recv {msg : Msg} {rest batch : List Msg}
    (recorded : Recorded found ledger state) (queued : state.queue = msg :: rest)
    (hand : ledger.inHand = eventsOf batch) :
    Recorded found (ledger.note state .recv)
      { state with queue := rest, writer := .batching (batch ++ [msg]) } := by
  have order := recorded.order
  have split : msg :: rest = [msg] ++ rest := rfl
  rw [queued, split, eventsOf_append] at order
  refine ⟨recorded.rows, ?_, ?_, recorded.drops⟩
  · simp only [Ledger.note, queued, List.take_succ_cons, List.take_zero]
    rw [order]
    simp only [Ledger.settled, List.append_assoc]
  · simp only [InHand, Ledger.note, queued, List.take_succ_cons, List.take_zero, hand,
      eventsOf_append]

theorem recorded_step {capacity : Nat} {before after : State} {event : Event}
    (recorded : Recorded found ledger before) (stepped : step capacity before event = some after) :
    Recorded found (ledger.note before event) after := by
  obtain ⟨rows, order, hand, drops⟩ := recorded
  cases step_move stepped with
  | accept event room =>
      refine ⟨rows, ?_, hand, drops⟩
      simp only [Ledger.note, State.enqueue, eventsOf_append, ← List.append_assoc]
      rw [order]
      rfl
  | refuse event => exact ⟨rows, order, hand, drops⟩
  | count pending =>
      refine ⟨rows, order, hand, ?_⟩
      simp only [Ledger.note, drops, UInt64.ofNat_add]
      rfl
  | flush room =>
      refine ⟨rows, ?_, hand, drops⟩
      simpa [Ledger.note, Ledger.flush, Ledger.settled, State.enqueue, eventsOf] using order
  | block => exact ⟨rows, order, hand, drops⟩
  | unblock waits room =>
      refine ⟨rows, ?_, hand, drops⟩
      simpa [Ledger.note, Ledger.flush, Ledger.settled, State.enqueue, eventsOf] using order
  | @recvFirst msg rest queued receiving =>
      have held : Recorded found ledger before := ⟨rows, order, hand, drops⟩
      rw [receiving] at hand
      have next : Recorded found (ledger.note before .recv)
          { before with queue := rest, writer := .batching ([] ++ [msg]) } := held.recv queued hand
      exact next
  | recvNext queued batching small =>
      have held : Recorded found ledger before := ⟨rows, order, hand, drops⟩
      rw [batching] at hand
      exact held.recv queued hand
  | begin batching =>
      rw [batching] at hand
      exact ⟨rows, order, ⟨[], hand, rfl⟩, drops⟩
  | beginFails batching => exact Recorded.giveUp ⟨rows, order, hand, drops⟩ _ _
  | @insert event rest tx acks inserting =>
      rw [inserting] at hand
      obtain ⟨inserted, same, seen⟩ := hand
      refine ⟨rows, order, ⟨inserted ++ [event], ?_, ?_⟩, drops⟩
      · simpa [Ledger.note, eventsOf] using same
      · rw [Tables.insertAll_snoc, seen]
  | insertFails inserting => exact Recorded.giveUp ⟨rows, order, hand, drops⟩ _ _
  | collect inserting =>
      rw [inserting] at hand
      exact ⟨rows, order, hand, drops⟩
  | commit inserting =>
      rw [inserting] at hand
      obtain ⟨inserted, same, tx⟩ := hand
      refine ⟨?_, ?_, rfl, drops⟩
      · have all : ledger.inHand = inserted := by simpa [eventsOf] using same
        change _ = found.insertAll (ledger.settle true).committed
        rw [Ledger.committed_settle_true, Tables.insertAll_append, ← rows, all]
        exact tx
      · change _ = (ledger.settle true).settled ++ _ ++ _
        rw [Ledger.settled_settle]
        simpa [Ledger.note, Ledger.settle] using order
  | commitFails inserting => exact Recorded.giveUp ⟨rows, order, hand, drops⟩ _ _
  | ack acking =>
      rw [acking] at hand
      exact ⟨rows, order, hand, drops⟩
  | restart acking =>
      rw [acking] at hand
      exact ⟨rows, order, hand, drops⟩

end Rows

/-! ### Flushes -/

/-- Every flush that got into the queue is in one place, and no number is used twice. -/
structure Placed (ledger : Ledger) (state : State) : Prop where
  acks : state.placed.Perm (ledger.flushed.map Prod.fst)
  unique : (ledger.flushed.map Prod.fst ++ state.blocked).Nodup
  fresh : ∀ ack ∈ ledger.flushed.map Prod.fst ++ state.blocked, ack < state.nextAck

section Acks

variable {ledger : Ledger} {state : State}

theorem placed_opened (found : Tables) : Placed Ledger.opened (opened found) :=
  ⟨List.Perm.nil, List.nodup_nil, fun _ member => nomatch member⟩

theorem flush_acks (ack : Ack) :
    (ledger.flush ack).flushed.map Prod.fst = ledger.flushed.map Prod.fst ++ [ack] := by
  simp [Ledger.flush]

theorem Placed.enqueue (placed : Placed ledger state) (ack : Ack) :
    (state.enqueue (.Flush ack)).placed.Perm ((ledger.flush ack).flushed.map Prod.fst) := by
  rw [flush_acks]
  have grown : (state.enqueue (.Flush ack)).placed = state.placed ++ [ack] := by
    simp [State.placed, State.enqueue, acksOf]
  rw [grown]
  exact placed.acks.append_right [ack]

/-- The channel of a flush that finds the queue full is a new one. -/
theorem Placed.nodup_next (placed : Placed ledger state) :
    ((ledger.flushed.map Prod.fst ++ state.blocked) ++ [state.nextAck]).Nodup := by
  apply List.Nodup.append placed.unique (List.nodup_singleton _)
  intro ack known new
  have older : ack < state.nextAck := placed.fresh ack known
  rw [List.mem_singleton.mp new] at older
  exact absurd older (Nat.lt_irrefl _)

theorem placed_step {capacity : Nat} {before after : State} {event : Event}
    (placed : Placed ledger before) (stepped : step capacity before event = some after) :
    Placed (ledger.note before event) after := by
  obtain ⟨acks, unique, fresh⟩ := placed
  have held : Placed ledger before := ⟨acks, unique, fresh⟩
  cases step_move stepped with
  | accept event room =>
      refine ⟨List.Perm.trans ?_ acks, unique, fresh⟩
      simp [State.placed, State.enqueue, acksOf]
  | refuse event => exact ⟨acks, unique, fresh⟩
  | count pending => exact ⟨acks, unique, fresh⟩
  | flush room =>
      have moved : (ledger.flushed.map Prod.fst ++ [before.nextAck] ++ before.blocked).Perm
          (ledger.flushed.map Prod.fst ++ before.blocked ++ [before.nextAck]) := by
        rw [List.append_assoc, List.append_assoc]
        exact List.perm_append_comm.append_left _
      refine ⟨held.enqueue _, ?_, ?_⟩
      · change ((ledger.flush before.nextAck).flushed.map Prod.fst ++ before.blocked).Nodup
        rw [flush_acks]
        exact moved.nodup_iff.mpr held.nodup_next
      · intro ack member
        change ack ∈ (ledger.flush before.nextAck).flushed.map Prod.fst ++ before.blocked at member
        rw [flush_acks, moved.mem_iff, List.mem_append, List.mem_singleton] at member
        rcases member with known | new
        · exact Nat.lt_succ_of_lt (fresh ack known)
        · exact Nat.lt_succ_of_le (Nat.le_of_eq new)
  | block =>
      refine ⟨acks, ?_, ?_⟩
      · rw [← List.append_assoc]
        exact held.nodup_next
      · intro ack member
        rw [← List.append_assoc, List.mem_append, List.mem_singleton] at member
        rcases member with known | new
        · exact Nat.lt_succ_of_lt (fresh ack known)
        · exact Nat.lt_succ_of_le (Nat.le_of_eq new)
  | @unblock ack waits room =>
      have moved : (ledger.flushed.map Prod.fst ++ [ack] ++ before.blocked.erase ack).Perm
          (ledger.flushed.map Prod.fst ++ before.blocked) := by
        rw [List.append_assoc]
        exact (List.perm_cons_erase waits).symm.append_left _
      refine ⟨held.enqueue _, ?_, ?_⟩
      · change ((ledger.flush ack).flushed.map Prod.fst ++ before.blocked.erase ack).Nodup
        rw [flush_acks]
        exact moved.nodup_iff.mpr unique
      · intro other member
        change other ∈ (ledger.flush ack).flushed.map Prod.fst ++ before.blocked.erase ack at member
        rw [flush_acks, moved.mem_iff] at member
        exact fresh other member
  | @recvFirst msg rest queued receiving =>
      refine ⟨List.Perm.trans ?_ acks, unique, fresh⟩
      have split : msg :: rest = [msg] ++ rest := rfl
      simp only [State.placed, queued, receiving, Writer.acks, split, acksOf_append,
        List.append_nil, List.append_assoc]
      exact List.Perm.refl _
  | @recvNext msg rest batch queued batching small =>
      refine ⟨List.Perm.trans ?_ acks, unique, fresh⟩
      have split : msg :: rest = [msg] ++ rest := rfl
      simp only [State.placed, queued, batching, Writer.acks, split, acksOf_append,
        List.append_assoc]
      exact List.Perm.refl _
  | insertFails inserting =>
      -- The rest of the batch is dropped before the acks met so far are sent.
      refine ⟨List.Perm.trans ?_ acks, unique, fresh⟩
      simp only [State.placed, State.giveUp, Writer.acks, acksOf, inserting, List.append_assoc]
      apply List.Perm.append_left
      rw [← List.append_assoc, ← List.append_assoc]
      exact List.perm_append_comm.append_right _
  | begin was | beginFails was | insert was | collect was | commit was | commitFails was | ack was
  | restart was =>
      refine ⟨List.Perm.trans ?_ acks, unique, fresh⟩
      simp [State.placed, State.giveUp, Writer.acks, acksOf, was]

end Acks

/-! ### When waits end -/

/-- A flush in the queue came after at most so many events. -/
def Within (flushed : List (Ack × Nat)) (ack : Ack) (bound : Nat) : Prop :=
  ∀ accepted, (ack, accepted) ∈ flushed → accepted ≤ bound

/-- Each flush among messages came after no more events than there are before it, of which
`base` are out of the queue. -/
def Timely (flushed : List (Ack × Nat)) : Nat → List Msg → Prop
  | _, [] => True
  | base, .Event _ :: rest => Timely flushed (base + 1) rest
  | base, .Flush ack :: rest => Within flushed ack base ∧ Timely flushed base rest

/-- No wait ends before the events that it waits for are settled. -/
structure Timed (ledger : Ledger) (state : State) : Prop where
  ended : ∀ ack ∈ state.ended, Within ledger.flushed ack ledger.settled.length
  held : ∀ ack ∈ state.writer.acks,
    Within ledger.flushed ack (ledger.settled.length + ledger.inHand.length)
  queued : Timely ledger.flushed (ledger.settled.length + ledger.inHand.length) state.queue

section Waits

variable {flushed : List (Ack × Nat)} {ack : Ack} {bound : Nat}

theorem Within.mono {larger : Nat} (within : Within flushed ack bound) (grown : bound ≤ larger) :
    Within flushed ack larger :=
  fun accepted member => (within accepted member).trans grown

/-- A flush later in the queue does not concern those before. -/
theorem Within.snoc {later : Ack} {accepted : Nat} (within : Within flushed ack bound)
    (other : ack ≠ later) : Within (flushed ++ [(later, accepted)]) ack bound := by
  intro count member
  rcases List.mem_append.mp member with known | new
  · exact within count known
  · cases List.mem_singleton.mp new
    exact absurd rfl other

theorem within_new {accepted : Nat} (unknown : ack ∉ flushed.map Prod.fst) :
    Within (flushed ++ [(ack, accepted)]) ack accepted := by
  intro count member
  rcases List.mem_append.mp member with known | new
  · exact absurd (List.mem_map_of_mem known) unknown
  · cases List.mem_singleton.mp new
    exact Nat.le_refl _

theorem Timely.snoc_event {base : Nat} {msgs : List Msg} (timely : Timely flushed base msgs)
    (event : LogEvent) : Timely flushed base (msgs ++ [.Event event]) := by
  induction msgs generalizing base with
  | nil => trivial
  | cons msg rest ih =>
      cases msg with
      | Event other => exact ih timely
      | Flush ack => exact ⟨timely.1, ih timely.2⟩

theorem Timely.snoc_flush {base accepted : Nat} {msgs : List Msg}
    (timely : Timely flushed base msgs) (unknown : ack ∉ flushed.map Prod.fst)
    (others : ack ∉ acksOf msgs) (count : accepted = base + (eventsOf msgs).length) :
    Timely (flushed ++ [(ack, accepted)]) base (msgs ++ [.Flush ack]) := by
  induction msgs generalizing base with
  | nil =>
      rw [count]
      exact ⟨within_new unknown, trivial⟩
  | cons msg rest ih =>
      cases msg with
      | Event event =>
          apply ih timely others
          rw [count, eventsOf, List.length_cons]
          omega
      | Flush other =>
          simp only [acksOf, List.mem_cons, not_or] at others
          exact ⟨timely.1.snoc (Ne.symm others.1), ih timely.2 others.2 count⟩

variable {ledger : Ledger} {state : State}

theorem timed_opened (found : Tables) : Timed Ledger.opened (opened found) :=
  ⟨fun _ member => (nomatch member), fun _ member => (nomatch member), trivial⟩

theorem Timed.enqueue (timed : Timed ledger state) (placed : Placed ledger state)
    {found : Tables} (recorded : Recorded found ledger state)
    (unknown : ack ∉ ledger.flushed.map Prod.fst) :
    Timed (ledger.flush ack) (state.enqueue (.Flush ack)) := by
  have elsewhere : ack ∉ state.placed := fun member => unknown (placed.acks.mem_iff.mp member)
  simp only [State.placed, List.mem_append, not_or] at elsewhere
  obtain ⟨⟨notEnded, notHeld⟩, notQueued⟩ := elsewhere
  refine ⟨?_, ?_, ?_⟩
  · intro other member
    exact (timed.ended other member).snoc fun same => notEnded (same ▸ member)
  · intro other member
    exact (timed.held other member).snoc fun same => notHeld (same ▸ member)
  · apply timed.queued.snoc_flush unknown notQueued
    rw [recorded.order, List.length_append, List.length_append]

/-- A batch ends, and the acks of its messages may. -/
theorem Timed.settle (timed : Timed ledger state) {after : State} (ok : Bool)
    (queue : after.queue = state.queue)
    (ended : ∀ ack ∈ after.ended, ack ∈ state.ended ∨ ack ∈ state.writer.acks)
    (held : ∀ ack ∈ after.writer.acks, ack ∈ state.writer.acks) :
    Timed (ledger.settle ok) after := by
  have length : (ledger.settle ok).settled.length =
      ledger.settled.length + ledger.inHand.length := by
    rw [Ledger.settled_settle, List.length_append]
  refine ⟨?_, ?_, ?_⟩
  · intro ack member
    rw [length]
    rcases ended ack member with before | released
    · exact (timed.ended ack before).mono (Nat.le_add_right _ _)
    · exact timed.held ack released
  · intro ack member
    rw [length]
    exact timed.held ack (held ack member)
  · rw [length, queue]
    exact timed.queued

theorem Timed.recv {msg : Msg} {rest batch : List Msg} (timed : Timed ledger state)
    (queued : state.queue = msg :: rest) (batched : state.writer.acks = acksOf batch) :
    Timed (ledger.note state .recv)
      { state with queue := rest, writer := .batching (batch ++ [msg]) } := by
  obtain ⟨ended, held, timely⟩ := timed
  rw [queued] at timely
  rw [batched] at held
  have taken : (ledger.note state .recv).inHand = ledger.inHand ++ eventsOf [msg] := by
    simp [Ledger.note, queued]
  have kept : (ledger.note state .recv).settled = ledger.settled := rfl
  refine ⟨ended, ?_, ?_⟩
  · intro ack member
    rw [Writer.acks, acksOf_append, List.mem_append] at member
    rw [kept, taken, List.length_append]
    rcases member with before | new
    · exact (held ack before).mono (by omega)
    · cases msg with
      | Event event => cases new
      | Flush other =>
          cases List.mem_singleton.mp new
          exact timely.1.mono (by omega)
  · rw [taken]
    cases msg with
    | Event event =>
        rw [List.length_append, ← Nat.add_assoc]
        exact timely
    | Flush other =>
        rw [eventsOf, eventsOf, List.append_nil]
        exact timely.2

theorem timed_step {capacity : Nat} {found : Tables} {before after : State} {event : Event}
    (timed : Timed ledger before) (placed : Placed ledger before)
    (recorded : Recorded found ledger before) (stepped : step capacity before event = some after) :
    Timed (ledger.note before event) after := by
  obtain ⟨ended, held, queued⟩ := timed
  have all : Timed ledger before := ⟨ended, held, queued⟩
  cases step_move stepped with
  | accept event room => exact ⟨ended, held, queued.snoc_event event⟩
  | refuse event => exact ⟨ended, held, queued⟩
  | count pending => exact ⟨ended, held, queued⟩
  | flush room =>
      have unknown : before.nextAck ∉ ledger.flushed.map Prod.fst := by
        intro known
        exact absurd (placed.fresh _ (List.mem_append_left _ known)) (Nat.lt_irrefl _)
      have next := all.enqueue placed recorded unknown
      exact ⟨next.ended, next.held, next.queued⟩
  | block => exact ⟨ended, held, queued⟩
  | @unblock ack waits room =>
      have unknown : ack ∉ ledger.flushed.map Prod.fst := by
        intro known
        exact (List.nodup_append.mp placed.unique).2.2 ack known ack waits rfl
      have next := all.enqueue placed recorded unknown
      exact ⟨next.ended, next.held, next.queued⟩
  | @recvFirst msg rest front receiving =>
      have next : Timed (ledger.note before .recv)
          { before with queue := rest, writer := .batching ([] ++ [msg]) } :=
        all.recv front (by rw [receiving]; rfl)
      exact next
  | recvNext front batching small => exact all.recv front (by rw [batching]; rfl)
  | begin batching =>
      rw [batching] at held
      exact ⟨ended, held, queued⟩
  | beginFails batching =>
      refine all.settle false rfl ?_ ?_
      · intro ack member
        rw [batching]
        exact List.mem_append.mp member
      · exact fun _ member => nomatch member
  | insert inserting =>
      rw [inserting] at held
      exact ⟨ended, held, queued⟩
  | insertFails inserting =>
      refine all.settle false rfl ?_ ?_
      · intro ack member
        rw [inserting]
        rcases List.mem_append.mp member with before | dropped
        · exact .inl before
        · exact .inr (List.mem_append_right _ dropped)
      · intro ack member
        rw [inserting]
        exact List.mem_append_left _ member
  | collect inserting =>
      rw [inserting] at held
      refine ⟨ended, ?_, queued⟩
      intro ack member
      apply held
      simpa [Writer.acks, acksOf] using member
  | commit inserting =>
      refine all.settle true rfl ?_ ?_
      · exact fun _ member => .inl member
      · intro ack member
        rw [inserting]
        exact List.mem_append_left _ member
  | commitFails inserting =>
      refine all.settle false rfl ?_ ?_
      · intro ack member
        exact .inl (by simpa [State.giveUp, acksOf] using member)
      · intro ack member
        rw [inserting]
        exact List.mem_append_left _ member
  | @ack ack rest acking =>
      have empty : ledger.inHand = [] := by
        have hand := recorded.hand
        rw [acking] at hand
        exact hand
      rw [acking] at held
      refine ⟨?_, fun other member => held other (List.mem_cons_of_mem _ member), queued⟩
      intro other member
      rcases List.mem_append.mp member with before | sent
      · exact ended other before
      · cases List.mem_singleton.mp sent
        have within := held ack List.mem_cons_self
        rw [empty] at within
        exact within
  | restart acking =>
      rw [acking] at held
      exact ⟨ended, held, queued⟩

end Waits

/-! ### Every run -/

/-- What the query log owes, in the state reached with this ledger. -/
structure Exact (found : Tables) (ledger : Ledger) (state : State) : Prop where
  /-- Each table has the rows of the committed batches' events, in order. -/
  rows : state.tables =
    { queries := found.queries ++ ledger.committed.filterMap LogEvent.queryRow
      divergences := found.divergences ++ ledger.committed.filterMap LogEvent.divergenceRow }
  /-- The accepted events are those of ended batches, in hand, and queued, in this order. -/
  order : ledger.accepted = ledger.settled ++ ledger.inHand ++ eventsOf state.queue
  once : ledger.committed.Sublist ledger.accepted
  idle : state.writer = .receiving → ledger.inHand = []
  /-- A wait that ended is that of a flush that was queued, and every event accepted before
  is committed or belongs to a failed batch. -/
  waits : ∀ ack ∈ state.ended, ∃ accepted, (ack, accepted) ∈ ledger.flushed ∧
    ledger.accepted.take accepted <+: ledger.settled
  /-- No flush waits for a batch that is over. -/
  released : state.writer = .receiving → ∀ ack accepted, (ack, accepted) ∈ ledger.flushed →
    ack ∈ state.ended ∨ ack ∈ acksOf state.queue
  drops : state.drops = UInt64.ofNat ledger.refused

section Runs

variable {capacity : Nat} {found : Tables} {ledger : Ledger} {state : State}

theorem Timed.waits (timed : Timed ledger state) (placed : Placed ledger state)
    (recorded : Recorded found ledger state) (ack : Ack) (ended : ack ∈ state.ended) :
    ∃ accepted, (ack, accepted) ∈ ledger.flushed ∧
      ledger.accepted.take accepted <+: ledger.settled := by
  have somewhere : ack ∈ state.placed := by
    simp only [State.placed]
    exact List.mem_append_left _ (List.mem_append_left _ ended)
  obtain ⟨⟨same, accepted⟩, member, rfl⟩ := List.mem_map.mp (placed.acks.mem_iff.mp somewhere)
  refine ⟨accepted, member, ?_⟩
  have before : accepted ≤ ledger.settled.length := timed.ended _ ended accepted member
  rw [recorded.order, List.append_assoc, List.take_append_of_le_length before]
  exact List.take_prefix _ _

theorem Placed.released (placed : Placed ledger state) (receiving : state.writer = .receiving)
    (ack : Ack) (accepted : Nat) (member : (ack, accepted) ∈ ledger.flushed) :
    ack ∈ state.ended ∨ ack ∈ acksOf state.queue := by
  have somewhere : ack ∈ state.placed :=
    placed.acks.mem_iff.mpr (List.mem_map_of_mem member)
  simp only [State.placed] at somewhere
  rw [receiving, Writer.acks, List.append_nil, List.mem_append] at somewhere
  exact somewhere

theorem exact_of_invariants (recorded : Recorded found ledger state)
    (placed : Placed ledger state) (timed : Timed ledger state) : Exact found ledger state where
  rows := by rw [recorded.rows, Tables.insertAll_eq]
  order := recorded.order
  once := by
    rw [recorded.order, List.append_assoc]
    exact Ledger.committed_sublist.trans (List.sublist_append_left _ _)
  idle := by
    intro receiving
    have hand := recorded.hand
    rw [receiving] at hand
    exact hand
  waits := timed.waits placed recorded
  released := placed.released
  drops := recorded.drops

/-- The acks of a batch are sent one after another, and the loop starts again. -/
theorem acking_finishes (acks : List Ack) :
    run (step capacity) { state with writer := .acking acks }
        (List.replicate (acks.length + 1) .ack) =
      some { state with writer := .receiving, ended := state.ended ++ acks } := by
  induction acks generalizing state with
  | nil => simp [run, step, sendAck]
  | cons ack rest ih =>
      rw [List.length_cons, List.replicate_succ]
      have sent : step capacity { state with writer := .acking (ack :: rest) } .ack =
          some { state with writer := .acking rest, ended := state.ended ++ [ack] } := rfl
      rw [run_cons_of_step _ sent]
      have later := @ih { state with ended := state.ended ++ [ack] }
      rw [List.append_assoc] at later
      exact later

/-- Through every interleaving of calls of `log` and `flush` with a writer whose batches
commit or fail, the rows are those of the accepted events whose batch was committed, each
once and in order; no flush returns before the events accepted before it are settled, none
waits for a batch that is over, and the counter counts the events refused. -/
theorem query_log_exact (capacity : Nat) (found : Tables) (events : List Event) {final : State}
    (ran : run (step capacity) (opened found) events = some final) :
    Exact found (history (step capacity) Ledger.note Ledger.opened (opened found) events) final ∧
      ∀ acks, final.writer = .acking acks → ∃ idle,
        run (step capacity) final (List.replicate (acks.length + 1) .ack) = some idle ∧
          idle.writer = .receiving ∧ idle.ended = final.ended ++ acks := by
  have invariant : ∀ (ledger : Ledger) (before : State) (event : Event) (after : State),
      (Recorded found ledger before ∧ Placed ledger before ∧ Timed ledger before) →
      step capacity before event = some after →
      Recorded found (ledger.note before event) after ∧ Placed (ledger.note before event) after ∧
        Timed (ledger.note before event) after := by
    intro ledger before event after held stepped
    obtain ⟨recorded, placed, timed⟩ := held
    exact ⟨recorded_step recorded stepped, placed_step placed stepped,
      timed_step timed placed recorded stepped⟩
  have initial : Recorded found Ledger.opened (opened found) ∧
      Placed Ledger.opened (opened found) ∧ Timed Ledger.opened (opened found) :=
    ⟨recorded_opened, placed_opened found, timed_opened found⟩
  obtain ⟨recorded, placed, timed⟩ := invariant_of_history invariant initial ran
  refine ⟨exact_of_invariants recorded placed timed, ?_⟩
  intro acks acking
  have same : final = { final with writer := .acking acks } := by rw [← acking]
  have finished := @acking_finishes capacity final acks
  rw [← same] at finished
  exact ⟨_, finished, rfl, rfl⟩

end Runs

/-- A divergence as the shadow comparison logs it. -/
def sampleDivergence (qname : String) : LogEvent :=
  .Divergence
    { ts := 5000, qname := qname.toList, qtype := 1, ours := "NXDOMAIN".toList,
      theirs := "0.0.0.0".toList, class_ := "expected".toList }

/-- A queue with room for two: an event and a flush get in, a second event does not; the
batch is committed. -/
def queueFull : List Event :=
  [.log (sampleDivergence "a.test") true, .flush true, .log (sampleDivergence "b.test") false,
   .count, .recv, .recv, .begin true, .insert true, .insert true, .commit true, .ack, .ack]

theorem queue_full_exact :
    ∃ final, run (step 2) (opened { queries := [], divergences := [] }) queueFull = some final ∧
      final.tables.divergences.map DivergenceRow.qname = ["a.test".toList] ∧ final.drops = 1 ∧
      final.ended = [0] ∧
      Exact { queries := [], divergences := [] }
        (history (step 2) Ledger.note Ledger.opened (opened { queries := [], divergences := [] })
          queueFull) final := by
  have ran : ∃ final,
      run (step 2) (opened { queries := [], divergences := [] }) queueFull = some final ∧
      final.tables.divergences.map DivergenceRow.qname = ["a.test".toList] ∧ final.drops = 1 ∧
      final.ended = [0] :=
    ⟨_, rfl, rfl, rfl, rfl⟩
  obtain ⟨final, reached, rows, drops, ended⟩ := ran
  obtain ⟨held, _⟩ := query_log_exact 2 { queries := [], divergences := [] } queueFull reached
  exact ⟨final, reached, rows, drops, ended, held⟩

end Sumidero.Db
