import Sumidero.Data.Runs
import Sumidero.Db.Rows

namespace Sumidero.Db

/-! The writer thread, its queue, and the handles that log and flush.  Every step is one
operation on the queue, on the database or on the drop counter, so a run is an interleaving
of any number of callers with the writer. -/

def BATCH_SIZE : Nat := 256

/-- The sender of a `oneshot` channel, by the number of the channel. -/
abbrev Ack : Type := Nat

/-- Public events and control signals. -/
inductive Msg where
  | Event (event : LogEvent)
  | Flush (ack : Ack)
deriving Repr, DecidableEq

/-- The events among messages, in order. -/
def eventsOf : List Msg → List LogEvent
  | [] => []
  | .Event event :: rest => event :: eventsOf rest
  | .Flush _ :: rest => eventsOf rest

/-- The acks among messages, in order. -/
def acksOf : List Msg → List Ack
  | [] => []
  | .Event _ :: rest => acksOf rest
  | .Flush ack :: rest => ack :: acksOf rest

@[simp] theorem eventsOf_append (front back : List Msg) :
    eventsOf (front ++ back) = eventsOf front ++ eventsOf back := by
  induction front with
  | nil => rfl
  | cons msg rest ih =>
      cases msg with
      | Event event => simp only [List.cons_append, eventsOf, ih]
      | Flush ack => simp only [List.cons_append, eventsOf, ih]

@[simp] theorem acksOf_append (front back : List Msg) :
    acksOf (front ++ back) = acksOf front ++ acksOf back := by
  induction front with
  | nil => rfl
  | cons msg rest ih =>
      cases msg with
      | Event event => simp only [List.cons_append, acksOf, ih]
      | Flush ack => simp only [List.cons_append, acksOf, ih]

/-- Where the writer's loop is. -/
inductive Writer where
  /-- In `blocking_recv`. -/
  | receiving
  /-- Filling a batch from what is queued. -/
  | batching (batch : List Msg)
  /-- Inside the transaction: what is left of the batch, the tables as the transaction sees
  them, and the acks met so far. -/
  | inserting (rest : List Msg) (tx : Tables) (flushAcks : List Ack)
  /-- After the transaction, committed or not: the acks still to be sent. -/
  | acking (acks : List Ack)
deriving Repr, DecidableEq

/-- The acks the writer holds. -/
def Writer.acks : Writer → List Ack
  | .receiving => []
  | .batching batch => acksOf batch
  | .inserting rest _ flushAcks => flushAcks ++ acksOf rest
  | .acking acks => acks

structure State where
  queue : List Msg
  /-- Flushes that found the queue full: each has a thread in `blocking_send`. -/
  blocked : List Ack
  writer : Writer
  tables : Tables
  drops : UInt64
  /-- Calls of `log` between a failed `try_send` and the counter. -/
  counting : Nat
  /-- Acks that were sent or dropped: the waits that have ended. -/
  ended : List Ack
  /-- The number of the next channel. -/
  nextAck : Ack
deriving Repr, DecidableEq

inductive Event where
  /-- `try_send` of an event, and whether there was room. -/
  | log (event : LogEvent) (room : Bool)
  /-- `fetch_add`, with which `log` returns false. -/
  | count
  /-- `try_send` of a flush, and whether there was room. -/
  | flush (room : Bool)
  /-- A thread gets its flush into the queue. -/
  | unblock (ack : Ack)
  /-- `blocking_recv` or `try_recv` gets a message. -/
  | recv
  /-- The batch is full, or `try_recv` found nothing: the transaction begins, or fails to. -/
  | begin (ok : Bool)
  /-- The next message of the batch is handled, or its insertion fails. -/
  | insert (ok : Bool)
  | commit (ok : Bool)
  /-- The next ack is sent; after the last one the loop starts again. -/
  | ack
deriving Repr, DecidableEq

namespace State

variable (state : State)

/-- The acks of the flushes that got into the queue: ended, held by the writer, or queued. -/
def placed : List Ack := state.ended ++ state.writer.acks ++ acksOf state.queue

def enqueue (msg : Msg) : State := { state with queue := state.queue ++ [msg] }

/-- The batch is given up: the rest of it is dropped, the acks met so far are sent. -/
def giveUp (rest : List Msg) (flushAcks : List Ack) : State :=
  { state with writer := .acking flushAcks, ended := state.ended ++ acksOf rest }

end State

/-- `log`: a full queue, or one whose free places are promised to blocked senders, refuses. -/
def logEvent (capacity : Nat) (state : State) (event : LogEvent) (room : Bool) : Option State :=
  if room then
    if state.queue.length < capacity then some (state.enqueue (.Event event)) else none
  else if capacity ≤ state.queue.length + state.blocked.length then
    some { state with counting := state.counting + 1 }
  else none

/-- `flush`: a full queue makes it block in a thread, with a channel of its own. -/
def flushQueue (capacity : Nat) (state : State) (room : Bool) : Option State :=
  if room then
    if state.queue.length < capacity then
      some { state.enqueue (.Flush state.nextAck) with nextAck := state.nextAck + 1 }
    else none
  else if capacity ≤ state.queue.length + state.blocked.length then
    some { state with blocked := state.blocked ++ [state.nextAck], nextAck := state.nextAck + 1 }
  else none

/-- One message from the queue into the batch. -/
def receive (state : State) : Option State :=
  match state.queue, state.writer with
  | msg :: rest, .receiving => some { state with queue := rest, writer := .batching [msg] }
  | msg :: rest, .batching batch =>
      if batch.length < BATCH_SIZE then
        some { state with queue := rest, writer := .batching (batch ++ [msg]) }
      else none
  | _, _ => none

/-- `unchecked_transaction`, once the batch is complete. -/
def beginBatch (state : State) (ok : Bool) : Option State :=
  match state.writer with
  | .batching batch =>
      if batch.length < BATCH_SIZE ∧ state.queue ≠ [] then none
      else if ok then some { state with writer := .inserting batch state.tables [] }
      else some (state.giveUp batch [])
  | _ => none

/-- One turn of the loop through the batch. -/
def insertNext (state : State) (ok : Bool) : Option State :=
  match state.writer with
  | .inserting (.Event event :: rest) tx flushAcks =>
      if ok then some { state with writer := .inserting rest (tx.insert event) flushAcks }
      else some (state.giveUp rest flushAcks)
  | .inserting (.Flush ack :: rest) tx flushAcks =>
      if ok then some { state with writer := .inserting rest tx (flushAcks ++ [ack]) } else none
  | _ => none

/-- `commit`, whose failure rolls back. -/
def commitBatch (state : State) (ok : Bool) : Option State :=
  match state.writer with
  | .inserting [] tx flushAcks =>
      if ok then some { state with tables := tx, writer := .acking flushAcks }
      else some (state.giveUp [] flushAcks)
  | _ => none

def sendAck (state : State) : Option State :=
  match state.writer with
  | .acking (ack :: rest) =>
      some { state with writer := .acking rest, ended := state.ended ++ [ack] }
  | .acking [] => some { state with writer := .receiving }
  | _ => none

def step (capacity : Nat) (state : State) : Event → Option State
  | .log event room => logEvent capacity state event room
  | .count =>
      match state.counting with
      | 0 => none
      | counting + 1 => some { state with counting, drops := state.drops + 1 }
  | .flush room => flushQueue capacity state room
  | .unblock ack =>
      if ack ∈ state.blocked ∧ state.queue.length < capacity then
        some { state.enqueue (.Flush ack) with blocked := state.blocked.erase ack }
      else none
  | .recv => receive state
  | .begin ok => beginBatch state ok
  | .insert ok => insertNext state ok
  | .commit ok => commitBatch state ok
  | .ack => sendAck state

/-- A database just opened, with the rows that were in it. -/
def opened (tables : Tables) : State where
  queue := []
  blocked := []
  writer := .receiving
  tables
  drops := 0
  counting := 0
  ended := []
  nextAck := 0

end Sumidero.Db
