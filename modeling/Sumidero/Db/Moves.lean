import Sumidero.Db.Writer

namespace Sumidero.Db

/-! Everything a step of the query log can do, with its guard. -/

inductive Move (capacity : Nat) (before : State) : Event → State → Prop
  | accept (event : LogEvent) (room : before.queue.length < capacity) :
      Move capacity before (.log event true) (before.enqueue (.Event event))
  | refuse (event : LogEvent) :
      Move capacity before (.log event false) { before with counting := before.counting + 1 }
  | count {counting : Nat} (pending : before.counting = counting + 1) :
      Move capacity before .count { before with counting, drops := before.drops + 1 }
  | flush (room : before.queue.length < capacity) :
      Move capacity before (.flush true)
        { before.enqueue (.Flush before.nextAck) with nextAck := before.nextAck + 1 }
  | block :
      Move capacity before (.flush false)
        { before with
          blocked := before.blocked ++ [before.nextAck]
          nextAck := before.nextAck + 1 }
  | unblock {ack : Ack} (waits : ack ∈ before.blocked) (room : before.queue.length < capacity) :
      Move capacity before (.unblock ack)
        { before.enqueue (.Flush ack) with blocked := before.blocked.erase ack }
  | recvFirst {msg : Msg} {rest : List Msg} (queued : before.queue = msg :: rest)
      (receiving : before.writer = .receiving) :
      Move capacity before .recv { before with queue := rest, writer := .batching [msg] }
  | recvNext {msg : Msg} {rest batch : List Msg} (queued : before.queue = msg :: rest)
      (batching : before.writer = .batching batch) (small : batch.length < BATCH_SIZE) :
      Move capacity before .recv
        { before with queue := rest, writer := .batching (batch ++ [msg]) }
  | begin {batch : List Msg} (batching : before.writer = .batching batch) :
      Move capacity before (.begin true)
        { before with writer := .inserting batch before.tables [] }
  | beginFails {batch : List Msg} (batching : before.writer = .batching batch) :
      Move capacity before (.begin false) (before.giveUp batch [])
  | insert {event : LogEvent} {rest : List Msg} {tx : Tables} {acks : List Ack}
      (inserting : before.writer = .inserting (.Event event :: rest) tx acks) :
      Move capacity before (.insert true)
        { before with writer := .inserting rest (tx.insert event) acks }
  | insertFails {event : LogEvent} {rest : List Msg} {tx : Tables} {acks : List Ack}
      (inserting : before.writer = .inserting (.Event event :: rest) tx acks) :
      Move capacity before (.insert false) (before.giveUp rest acks)
  | collect {ack : Ack} {rest : List Msg} {tx : Tables} {acks : List Ack}
      (inserting : before.writer = .inserting (.Flush ack :: rest) tx acks) :
      Move capacity before (.insert true)
        { before with writer := .inserting rest tx (acks ++ [ack]) }
  | commit {tx : Tables} {acks : List Ack} (inserting : before.writer = .inserting [] tx acks) :
      Move capacity before (.commit true) { before with tables := tx, writer := .acking acks }
  | commitFails {tx : Tables} {acks : List Ack}
      (inserting : before.writer = .inserting [] tx acks) :
      Move capacity before (.commit false) (before.giveUp [] acks)
  | ack {ack : Ack} {rest : List Ack} (acking : before.writer = .acking (ack :: rest)) :
      Move capacity before .ack
        { before with writer := .acking rest, ended := before.ended ++ [ack] }
  | restart (acking : before.writer = .acking []) :
      Move capacity before .ack { before with writer := .receiving }

theorem step_move {capacity : Nat} {before after : State} {event : Event}
    (stepped : step capacity before event = some after) : Move capacity before event after := by
  cases event with
  | log event room =>
      simp only [step, logEvent] at stepped
      cases room with
      | true =>
          simp only [if_true] at stepped
          split at stepped
          · next room =>
            cases stepped
            exact .accept event room
          · cases stepped
      | false =>
          simp only [Bool.false_eq_true, if_false] at stepped
          split at stepped
          · cases stepped
            exact .refuse event
          · cases stepped
  | count =>
      simp only [step] at stepped
      split at stepped
      · cases stepped
      · next counting pending =>
        cases stepped
        exact .count pending
  | flush room =>
      simp only [step, flushQueue] at stepped
      cases room with
      | true =>
          simp only [if_true] at stepped
          split at stepped
          · next room =>
            cases stepped
            exact .flush room
          · cases stepped
      | false =>
          simp only [Bool.false_eq_true, if_false] at stepped
          split at stepped
          · cases stepped
            exact .block
          · cases stepped
  | unblock ack =>
      simp only [step] at stepped
      split at stepped
      · next guard =>
        cases stepped
        exact .unblock guard.1 guard.2
      · cases stepped
  | recv =>
      simp only [step, receive] at stepped
      split at stepped
      · next msg rest queued receiving =>
        cases stepped
        exact .recvFirst queued receiving
      · next msg rest batch queued batching =>
        split at stepped
        · next small =>
          cases stepped
          exact .recvNext queued batching small
        · cases stepped
      · cases stepped
  | begin ok =>
      simp only [step, beginBatch] at stepped
      split at stepped
      · next batch batching =>
        split at stepped
        · cases stepped
        · cases ok with
          | true =>
              cases stepped
              exact .begin batching
          | false =>
              cases stepped
              exact .beginFails batching
      · cases stepped
  | insert ok =>
      simp only [step, insertNext] at stepped
      split at stepped
      · next event rest tx acks inserting =>
        cases ok with
        | true =>
            cases stepped
            exact .insert inserting
        | false =>
            cases stepped
            exact .insertFails inserting
      · next ack rest tx acks inserting =>
        cases ok with
        | true =>
            cases stepped
            exact .collect inserting
        | false => cases stepped
      · cases stepped
  | commit ok =>
      simp only [step, commitBatch] at stepped
      split at stepped
      · next tx acks inserting =>
        cases ok with
        | true =>
            cases stepped
            exact .commit inserting
        | false =>
            cases stepped
            exact .commitFails inserting
      · cases stepped
  | ack =>
      simp only [step, sendAck] at stepped
      split at stepped
      · next ack rest acking =>
        cases stepped
        exact .ack acking
      · next acking =>
        cases stepped
        exact .restart acking
      · cases stepped

end Sumidero.Db
