import Sumidero.Data.Frames
import Sumidero.Net.SocketAddr
import Sumidero.Server.Admission

namespace Sumidero.Server

open Text Dns Cache Sumidero.Filter Data

/-! `serve`: the datagrams and the connections of every bound address, around the one pipeline.
A connection carries one query at a time. -/

/-- Concurrent TCP connections served; more are closed on accept. -/
def MAX_TCP_CONNECTIONS : Nat := 128

/-- What the sockets use of the DNS library. -/
structure Wire where
  fromVec : List UInt8 → Option Message
  toVec : Message → Option (List UInt8)
  truncate : Message → Message
  maxPayload : Message → UInt16

inductive Reply where
  | awaited
  | sent (bytes : List UInt8)
  /-- Not to be put into bytes. -/
  | withheld

/-- A datagram that was a message, and the query it became. -/
structure Datagram where
  listener : Nat
  peer : Net.SocketAddr
  call : Nat
  reply : Reply

inductive ConnPhase where
  | readingLength
  | readingMessage (length : Nat)
  /-- `handle` is at work on it. -/
  | handling (call : Nat)
  | writing (rest : List UInt8)
  | closed

/-- One TCP connection, with the history of it: all that arrived and was written, the messages
read with the query each became, and the answers framed. -/
structure Conn where
  listener : Nat
  peer : Net.IpAddr
  phase : ConnPhase
  unread : List UInt8
  arrived : List UInt8
  written : List UInt8
  asked : List (List UInt8 × Nat)
  replies : List (List UInt8)

structure Sockets where
  work : Workload
  /-- Free connection slots, for every listener. -/
  slots : List Nat
  datagrams : List Datagram
  conns : List Conn
  stopped : Bool

inductive Traffic where
  | datagram (listener : Nat) (peer : Net.SocketAddr) (bytes : List UInt8)
  | respond (index : Nat)
  | accept (listener : Nat) (peer : Net.SocketAddr)
  | arrive (index : Nat) (bytes : List UInt8)
  | read (index : Nat)
  /-- `handle` has returned. -/
  | take (index : Nat)
  | write (index count : Nat)
  /-- The peer has closed, ten seconds have passed, or the connection's task has panicked. -/
  | hangUp (index : Nat)
  /-- A query goes on, or a reload installs its policy. -/
  | work (event : Work)
  | shutdown

end Sumidero.Server

namespace Sumidero.Net

def SocketAddr.ip : SocketAddr → IpAddr
  | .V4 octets _ => .V4 octets
  | .V6 groups _ _ => .V6 groups

end Sumidero.Net

namespace Sumidero.Server

open Text Dns Cache Sumidero.Filter Data

def Conn.new (listener : Nat) (peer : Net.IpAddr) : Conn where
  listener
  peer
  phase := .readingLength
  unread := []
  arrived := []
  written := []
  asked := []
  replies := []

/-- It holds a slot of the listener. -/
def Conn.holds (listener : Nat) (conn : Conn) : Bool :=
  match conn.phase with
  | .closed => false
  | _ => conn.listener = listener

/-- Only the sockets start queries. -/
def Work.starts : Work → Bool
  | .call _ _ => true
  | _ => false

variable (proto : Proto) (wire : Wire)

/-- Never above 1232 bytes and never below the classic 512. -/
def udpPayloadLimit (request : Message) : Nat := min 1232 (max 512 (wire.maxPayload request).toNat)

/-- The answer, or the truncated form of one that is too big for this client. -/
def datagramReply (request response : Message) : Reply :=
  match wire.toVec response with
  | some bytes =>
      if bytes.length ≤ udpPayloadLimit wire request then .sent bytes
      else
        match wire.toVec (wire.truncate response) with
        | some bytes => .sent bytes
        | none => .withheld
  | none => .withheld

namespace Sockets

def new (policy : Policy) (listeners : Nat) : Sockets where
  work := .new policy
  slots := List.replicate listeners MAX_TCP_CONNECTIONS
  datagrams := []
  conns := []
  stopped := false

def setConn (sockets : Sockets) (index : Nat) (conn : Conn) : Sockets :=
  { sockets with conns := sockets.conns.set index conn }

/-- The connection's task ends, and its slot is free again. -/
def close (sockets : Sockets) (index : Nat) (conn : Conn) : Sockets :=
  { sockets.setConn index { conn with phase := .closed } with
    slots := sockets.slots.modify conn.listener (· + 1) }

def readLength (sockets : Sockets) (index : Nat) (conn : Conn) : Option Sockets :=
  match conn.unread with
  | high :: low :: rest =>
      some (sockets.setConn index
        { conn with phase := .readingMessage (lengthOf high low), unread := rest })
  | _ => none

def readMessage (sockets : Sockets) (index : Nat) (conn : Conn) (length : Nat) :
    Option Sockets :=
  if length ≤ conn.unread.length then
    let body := conn.unread.take length
    let rest := conn.unread.drop length
    match wire.fromVec body with
    | some request => do
        let work ← sockets.work.step proto (.call request conn.peer)
        let call := sockets.work.handlings.length
        return { sockets.setConn index { conn with
            phase := .handling call, unread := rest, asked := conn.asked ++ [(body, call)] } with
          work }
    | none => some (sockets.close index { conn with unread := rest })
  else none

/-- The answer is framed, unless it has no bytes or too many. -/
def frameReply (sockets : Sockets) (index : Nat) (conn : Conn) (response : Message) : Sockets :=
  match wire.toVec response with
  | some bytes =>
      if bytes.length < 65536 then
        sockets.setConn index { conn with
          phase := .writing (frame bytes), replies := conn.replies ++ [bytes] }
      else sockets.close index conn
  | none => sockets.close index conn

def write (sockets : Sockets) (index : Nat) (conn : Conn) (rest : List UInt8) (count : Nat) :
    Option Sockets :=
  if 0 < count ∧ count ≤ rest.length then
    some (sockets.setConn index { conn with
      phase := if count = rest.length then .readingLength else .writing (rest.drop count)
      written := conn.written ++ rest.take count })
  else none

def step (sockets : Sockets) : Traffic → Option Sockets
  | .datagram listener peer bytes =>
      if sockets.stopped || decide (sockets.slots.length ≤ listener) then none
      else
        match wire.fromVec bytes with
        | some request => do
            let work ← sockets.work.step proto (.call request peer.ip)
            let call := sockets.work.handlings.length
            return { sockets with
              work
              datagrams := sockets.datagrams ++ [{ listener, peer, call, reply := .awaited }] }
        | none => some sockets
  | .respond index => do
      let datagram ← sockets.datagrams[index]?
      let handling ← sockets.work.handlings[datagram.call]?
      match datagram.reply, handling.stage with
      | .awaited, .left handled =>
          let reply := datagramReply wire handling.request handled.response
          return { sockets with datagrams := sockets.datagrams.set index { datagram with reply } }
      | _, _ => none
  | .accept listener peer => do
      if sockets.stopped then none
      else
        let free ← sockets.slots[listener]?
        if !clientAllowed sockets.work.policy.allow peer.ip then return sockets
        else
          match free with
          | 0 => return sockets
          | free + 1 =>
              return { sockets with
                slots := sockets.slots.set listener free
                conns := sockets.conns ++ [.new listener peer.ip] }
  | .arrive index bytes => do
      let conn ← sockets.conns[index]?
      match conn.phase with
      | .closed => none
      | _ =>
          return sockets.setConn index
            { conn with unread := conn.unread ++ bytes, arrived := conn.arrived ++ bytes }
  | .read index => do
      let conn ← sockets.conns[index]?
      match conn.phase with
      | .readingLength => sockets.readLength index conn
      | .readingMessage length => sockets.readMessage proto wire index conn length
      | _ => none
  | .take index => do
      let conn ← sockets.conns[index]?
      match conn.phase with
      | .handling call => do
          let handling ← sockets.work.handlings[call]?
          match handling.stage with
          | .left handled => return sockets.frameReply wire index conn handled.response
          | _ => none
      | _ => none
  | .write index count => do
      let conn ← sockets.conns[index]?
      match conn.phase with
      | .writing rest => sockets.write index conn rest count
      | _ => none
  | .hangUp index => do
      let conn ← sockets.conns[index]?
      match conn.phase with
      | .readingLength | .readingMessage _ | .writing _ => return sockets.close index conn
      | .handling call => do
          let handling ← sockets.work.handlings[call]?
          match handling.stage with
          | .unwound => return sockets.close index conn
          | _ => none
      | .closed => none
  | .work event => do
      if event.starts then none
      else
        let work ← sockets.work.step proto event
        return { sockets with work }
  | .shutdown => some { sockets with stopped := true }

end Sockets

/-! ### Everything a step can do -/

/-- A connection goes on, and stays open. -/
inductive ConnMove (work : Workload) (conn : Conn) : Conn → Prop
  | arrive (bytes : List UInt8) (alive : conn.phase ≠ .closed) :
      ConnMove work conn
        { conn with unread := conn.unread ++ bytes, arrived := conn.arrived ++ bytes }
  | length {high low : UInt8} {rest : List UInt8} (reading : conn.phase = .readingLength)
      (unread : conn.unread = high :: low :: rest) :
      ConnMove work conn { conn with phase := .readingMessage (lengthOf high low), unread := rest }
  | reply {call : Nat} {handling : Handling} {handled : Handled} {bytes : List UInt8}
      (busy : conn.phase = .handling call) (found : work.handlings[call]? = some handling)
      (left : handling.stage = .left handled) (encoded : wire.toVec handled.response = some bytes)
      (fits : bytes.length < 65536) :
      ConnMove work conn
        { conn with phase := .writing (frame bytes), replies := conn.replies ++ [bytes] }
  | write {rest : List UInt8} {count : Nat} (writing : conn.phase = .writing rest)
      (within : count ≤ rest.length) :
      ConnMove work conn { conn with
        phase := if count = rest.length then .readingLength else .writing (rest.drop count)
        written := conn.written ++ rest.take count }

inductive SocketsMove (before : Sockets) : Sockets → Prop
  | same : SocketsMove before before
  | conn {index : Nat} {conn next : Conn} (found : before.conns[index]? = some conn)
      (moved : ConnMove wire before.work conn next) :
      SocketsMove before (before.setConn index next)
  | close {index : Nat} {conn : Conn} (unread : List UInt8)
      (found : before.conns[index]? = some conn) (alive : conn.phase ≠ .closed) :
      SocketsMove before (before.close index { conn with unread })
  | ask {index length : Nat} {conn : Conn} {request : Message} {work : Workload}
      (found : before.conns[index]? = some conn) (reading : conn.phase = .readingMessage length)
      (whole : length ≤ conn.unread.length)
      (decoded : wire.fromVec (conn.unread.take length) = some request)
      (called : before.work.step proto (.call request conn.peer) = some work) :
      SocketsMove before { before.setConn index { conn with
          phase := .handling before.work.handlings.length
          unread := conn.unread.drop length
          asked := conn.asked ++ [(conn.unread.take length, before.work.handlings.length)] } with
        work }
  | accept {listener free : Nat} {peer : Net.SocketAddr}
      (allowed : clientAllowed before.work.policy.allow peer.ip = true)
      (slot : before.slots[listener]? = some (free + 1)) :
      SocketsMove before { before with
        slots := before.slots.set listener free
        conns := before.conns ++ [.new listener peer.ip] }
  | datagram {listener : Nat} {peer : Net.SocketAddr} {request : Message} {work : Workload}
      (called : before.work.step proto (.call request peer.ip) = some work) :
      SocketsMove before { before with
        work
        datagrams := before.datagrams ++
          [{ listener, peer, call := before.work.handlings.length, reply := .awaited }] }
  | respond {index : Nat} {datagram : Datagram} {handling : Handling} {handled : Handled}
      (sent : before.datagrams[index]? = some datagram)
      (found : before.work.handlings[datagram.call]? = some handling)
      (left : handling.stage = .left handled) :
      SocketsMove before { before with
        datagrams := before.datagrams.set index { datagram with
          reply := datagramReply wire handling.request handled.response } }
  | work {event : Work} {work : Workload} (stepped : before.work.step proto event = some work) :
      SocketsMove before { before with work }
  | shutdown : SocketsMove before { before with stopped := true }

section Moves

variable {proto wire} {before after : Sockets} {event : Traffic} {index : Nat} {conn : Conn}

theorem read_move (found : before.conns[index]? = some conn)
    (stepped : (match conn.phase with
      | .readingLength => before.readLength index conn
      | .readingMessage length => before.readMessage proto wire index conn length
      | _ => none) = some after) : SocketsMove proto wire before after := by
  split at stepped
  · next reading =>
    simp only [Sockets.readLength] at stepped
    split at stepped
    · next high low rest unread =>
      cases stepped
      exact .conn found (.length reading unread)
    · cases stepped
  · next length reading =>
    simp only [Sockets.readMessage] at stepped
    split at stepped
    · next whole =>
      split at stepped
      · next request decoded =>
        obtain ⟨work, called, stepped⟩ := Option.bind_eq_some_iff.mp stepped
        cases stepped
        exact .ask found reading whole decoded called
      · cases stepped
        have alive : conn.phase ≠ .closed := by
          rw [reading]
          intro closed
          cases closed
        exact .close _ found alive
    · cases stepped
  · cases stepped

theorem frameReply_move (found : before.conns[index]? = some conn) {call : Nat}
    (busy : conn.phase = .handling call) {handling : Handling} {handled : Handled}
    (held : before.work.handlings[call]? = some handling) (left : handling.stage = .left handled) :
    SocketsMove proto wire before (before.frameReply wire index conn handled.response) := by
  have alive : conn.phase ≠ .closed := by
    rw [busy]
    exact nofun
  simp only [Sockets.frameReply]
  split
  · next bytes encoded =>
    split
    · next fits => exact .conn found (.reply busy held left encoded fits)
    · exact .close conn.unread found alive
  · exact .close conn.unread found alive

theorem sockets_move (stepped : before.step proto wire event = some after) :
    SocketsMove proto wire before after := by
  cases event with
  | datagram listener peer bytes =>
      simp only [Sockets.step] at stepped
      split at stepped
      · cases stepped
      · split at stepped
        · obtain ⟨work, called, stepped⟩ := Option.bind_eq_some_iff.mp stepped
          cases stepped
          exact .datagram called
        · cases stepped
          exact .same
  | respond index =>
      obtain ⟨datagram, sent, stepped⟩ := Option.bind_eq_some_iff.mp stepped
      obtain ⟨handling, found, stepped⟩ := Option.bind_eq_some_iff.mp stepped
      split at stepped
      · next handled awaited left =>
        cases stepped
        exact .respond sent found left
      · cases stepped
  | accept listener peer =>
      simp only [Sockets.step] at stepped
      split at stepped
      · cases stepped
      · obtain ⟨free, slot, stepped⟩ := Option.bind_eq_some_iff.mp stepped
        split at stepped
        · cases stepped
          exact .same
        · next allowed =>
          split at stepped
          · cases stepped
            exact .same
          · next free =>
            cases stepped
            exact .accept (by simpa using allowed) slot
  | arrive index bytes =>
      obtain ⟨conn, found, stepped⟩ := Option.bind_eq_some_iff.mp stepped
      split at stepped
      · cases stepped
      · next alive =>
        cases stepped
        exact .conn found (.arrive bytes alive)
  | read index =>
      obtain ⟨conn, found, stepped⟩ := Option.bind_eq_some_iff.mp stepped
      exact read_move found stepped
  | take index =>
      obtain ⟨conn, found, stepped⟩ := Option.bind_eq_some_iff.mp stepped
      split at stepped
      · next call busy =>
        obtain ⟨handling, held, stepped⟩ := Option.bind_eq_some_iff.mp stepped
        split at stepped
        · next handled left =>
          cases stepped
          exact frameReply_move found busy held left
        · cases stepped
      · cases stepped
  | write index count =>
      obtain ⟨conn, found, stepped⟩ := Option.bind_eq_some_iff.mp stepped
      split at stepped
      · next rest writing =>
        simp only [Sockets.write] at stepped
        split at stepped
        · next within =>
          cases stepped
          exact .conn found (.write writing within.2)
        · cases stepped
      · cases stepped
  | hangUp index =>
      obtain ⟨conn, found, stepped⟩ := Option.bind_eq_some_iff.mp stepped
      have closing (alive : conn.phase ≠ .closed) :
          SocketsMove proto wire before (before.close index conn) := .close conn.unread found alive
      split at stepped
      · next phase =>
        cases stepped
        exact closing (by rw [phase]; exact nofun)
      · next phase =>
        cases stepped
        exact closing (by rw [phase]; exact nofun)
      · next phase =>
        cases stepped
        exact closing (by rw [phase]; exact nofun)
      · next phase =>
        obtain ⟨handling, held, stepped⟩ := Option.bind_eq_some_iff.mp stepped
        split at stepped
        · cases stepped
          exact closing (by rw [phase]; exact nofun)
        · cases stepped
      · cases stepped
  | work event =>
      simp only [Sockets.step] at stepped
      split at stepped
      · cases stepped
      · obtain ⟨work, moved, stepped⟩ := Option.bind_eq_some_iff.mp stepped
        cases stepped
        exact .work moved
  | shutdown =>
      cases stepped
      exact .shutdown

end Moves

/-! ### What holds at any moment -/

/-- A message that was read, and the query that it became. -/
def Asked (work : Workload) (peer : Net.IpAddr) (item : List UInt8 × Nat) : Prop :=
  ∃ handling, work.handlings[item.2]? = some handling ∧
    wire.fromVec item.1 = some handling.request ∧ handling.client = peer

/-- The bytes of a query's answer. -/
def Replied (work : Workload) (call : Nat) (reply : List UInt8) : Prop :=
  ∃ handling handled, work.handlings[call]? = some handling ∧ handling.stage = .left handled ∧
    wire.toVec handled.response = some reply

def Conn.bodies (conn : Conn) : List (List UInt8) := conn.asked.map Prod.fst

/-- What has arrived is what was read and what was not; what was written is every answer so far,
but for the rest of the one being written. -/
def Conn.InPhase (conn : Conn) : Prop :=
  match conn.phase with
  | .readingLength => conn.arrived = frames conn.bodies ++ conn.unread ∧
      conn.written = frames conn.replies ∧ conn.replies.length = conn.asked.length
  | .readingMessage length => length < 65536 ∧
      conn.arrived = frames conn.bodies ++ (lengthBytes length ++ conn.unread) ∧
      conn.written = frames conn.replies ∧ conn.replies.length = conn.asked.length
  | .handling call => conn.arrived = frames conn.bodies ++ conn.unread ∧
      conn.written = frames conn.replies ∧
      ∃ front body, conn.asked = front ++ [(body, call)] ∧ conn.replies.length = front.length
  | .writing rest => conn.arrived = frames conn.bodies ++ conn.unread ∧
      conn.written ++ rest = frames conn.replies ∧ conn.replies.length = conn.asked.length
  | .closed => frames conn.bodies <+: conn.arrived ∧ conn.written <+: frames conn.replies

structure Conn.Sound (work : Workload) (conn : Conn) : Prop where
  asked : ∀ item ∈ conn.asked, Asked wire work conn.peer item
  sizes : ∀ body ∈ conn.bodies, body.length < 65536
  fits : ∀ reply ∈ conn.replies, reply.length < 65536
  replied : ∀ (place : Nat) (reply : List UInt8), conn.replies[place]? = some reply →
    ∃ item : List UInt8 × Nat, conn.asked[place]? = some item ∧ Replied wire work item.2 reply
  phase : conn.InPhase
  /-- It was let in by a policy that was in force. -/
  allowed : ∃ policy ∈ work.installed, clientAllowed policy.allow conn.peer = true

section Conn

variable {wire} {work further : Workload} {conn next : Conn}

theorem Asked.later {peer : Net.IpAddr} {item : List UInt8 × Nat}
    (asked : Asked wire work peer item) (continues : work.Continues further) :
    Asked wire further peer item := by
  obtain ⟨handling, found, decoded, client⟩ := asked
  obtain ⟨now, foundNow, request, same, _⟩ := continues.handlings _ _ found
  exact ⟨now, foundNow, request ▸ decoded, same.trans client⟩

theorem Replied.later {call : Nat} {reply : List UInt8} (replied : Replied wire work call reply)
    (continues : work.Continues further) : Replied wire further call reply := by
  obtain ⟨handling, handled, found, left, encoded⟩ := replied
  obtain ⟨now, foundNow, _, _, ended⟩ := continues.handlings _ _ found
  obtain rfl := ended handled left
  exact ⟨now, handled, foundNow, left, encoded⟩

theorem Conn.Sound.later (sound : conn.Sound wire work) (continues : work.Continues further) :
    conn.Sound wire further where
  asked item member := (sound.asked item member).later continues
  sizes := sound.sizes
  fits := sound.fits
  replied place reply found := by
    obtain ⟨item, asked, replied⟩ := sound.replied place reply found
    exact ⟨item, asked, replied.later continues⟩
  phase := sound.phase
  allowed := by
    obtain ⟨policy, member, allowed⟩ := sound.allowed
    exact ⟨policy, continues.installed.subset member, allowed⟩

/-- However far a connection has come, closing it takes nothing back. -/
theorem Conn.InPhase.closed (phase : conn.InPhase) :
    frames conn.bodies <+: conn.arrived ∧ conn.written <+: frames conn.replies := by
  simp only [Conn.InPhase] at phase
  split at phase
  · exact ⟨⟨_, phase.1.symm⟩, phase.2.1 ▸ List.prefix_refl _⟩
  · exact ⟨⟨_, phase.2.1.symm⟩, phase.2.2.1 ▸ List.prefix_refl _⟩
  · exact ⟨⟨_, phase.1.symm⟩, phase.2.1 ▸ List.prefix_refl _⟩
  · exact ⟨⟨_, phase.1.symm⟩, ⟨_, phase.2.1⟩⟩
  · exact phase

theorem Conn.Sound.arrive (sound : conn.Sound wire work) (alive : conn.phase ≠ .closed)
    (bytes : List UInt8) :
    { conn with unread := conn.unread ++ bytes, arrived := conn.arrived ++ bytes }.Sound wire
      work := by
  refine ⟨sound.asked, sound.sizes, sound.fits, sound.replied, ?_, sound.allowed⟩
  have phase := sound.phase
  simp only [Conn.InPhase] at phase ⊢
  cases here : conn.phase with
  | readingLength =>
      rw [here] at phase
      exact ⟨by rw [phase.1, List.append_assoc]; rfl, phase.2⟩
  | readingMessage length =>
      rw [here] at phase
      refine ⟨phase.1, ?_, phase.2.2⟩
      rw [phase.2.1, List.append_assoc, List.append_assoc]
      rfl
  | handling call =>
      rw [here] at phase
      exact ⟨by rw [phase.1, List.append_assoc]; rfl, phase.2⟩
  | writing rest =>
      rw [here] at phase
      exact ⟨by rw [phase.1, List.append_assoc]; rfl, phase.2⟩
  | closed => exact absurd here alive

/-- The answer to the last message joins the others. -/
theorem Conn.Sound.reply (sound : conn.Sound wire work) {call : Nat} {bytes : List UInt8}
    (busy : conn.phase = .handling call) (replied : Replied wire work call bytes)
    (fits : bytes.length < 65536) :
    { conn with phase := .writing (frame bytes), replies := conn.replies ++ [bytes] }.Sound wire
      work := by
  have phase := sound.phase
  simp only [Conn.InPhase, busy] at phase
  obtain ⟨arrived, written, front, body, split, count⟩ := phase
  refine ⟨sound.asked, sound.sizes, ?_, ?_, ⟨arrived, ?_, ?_⟩, sound.allowed⟩
  · intro reply member
    rcases List.mem_append.mp member with member | member
    · exact sound.fits reply member
    · rw [List.mem_singleton.mp member]
      exact fits
  · intro place reply found
    rcases getElem?_concat_cases found with ⟨_, found⟩ | ⟨last, same⟩
    · exact sound.replied place reply found
    · refine ⟨(body, call), ?_, same ▸ replied⟩
      rw [split, last, count, List.getElem?_append_right (Nat.le_refl _), Nat.sub_self]
      rfl
  · rw [written, ← frames_snoc]
  · rw [List.length_append, count, split, List.length_append]
    rfl

theorem Conn.Sound.write (sound : conn.Sound wire work) {rest : List UInt8} {count : Nat}
    (writing : conn.phase = .writing rest) :
    { conn with
      phase := if count = rest.length then .readingLength else .writing (rest.drop count)
      written := conn.written ++ rest.take count }.Sound wire work := by
  have phase := sound.phase
  simp only [Conn.InPhase, writing] at phase
  obtain ⟨arrived, written, count_⟩ := phase
  refine ⟨sound.asked, sound.sizes, sound.fits, sound.replied, ?_, sound.allowed⟩
  by_cases whole : count = rest.length
  · simp only [Conn.InPhase, if_pos whole]
    refine ⟨arrived, ?_, count_⟩
    rw [whole, List.take_length]
    exact written
  · simp only [Conn.InPhase, if_neg whole]
    refine ⟨arrived, ?_, count_⟩
    rw [List.append_assoc, List.take_append_drop]
    exact written

theorem Conn.Sound.move (sound : conn.Sound wire work) (moved : ConnMove wire work conn next) :
    next.Sound wire work := by
  cases moved with
  | arrive bytes alive => exact sound.arrive alive bytes
  | @length high low rest reading unread =>
      have phase := sound.phase
      simp only [Conn.InPhase, reading] at phase
      refine ⟨sound.asked, sound.sizes, sound.fits, sound.replied,
        ⟨lengthOf_lt high low, ?_, phase.2⟩, sound.allowed⟩
      rw [lengthBytes_lengthOf, phase.1, unread]
      rfl
  | reply busy found left encoded fits =>
      exact sound.reply busy ⟨_, _, found, left, encoded⟩ fits
  | write writing within => exact sound.write writing

/-- A message read whole becomes the next query. -/
theorem Conn.Sound.ask (sound : conn.Sound wire work) {length : Nat} {request : Message}
    (reading : conn.phase = .readingMessage length) (whole : length ≤ conn.unread.length)
    (decoded : wire.fromVec (conn.unread.take length) = some request)
    (called : further.handlings = work.handlings ++ [.new request conn.peer])
    (continues : work.Continues further) :
    { conn with
      phase := .handling work.handlings.length
      unread := conn.unread.drop length
      asked := conn.asked ++ [(conn.unread.take length, work.handlings.length)] }.Sound wire
        further := by
  have still := sound.later continues
  have phase := sound.phase
  simp only [Conn.InPhase, reading] at phase
  obtain ⟨fits, arrived, written, count⟩ := phase
  have size : (conn.unread.take length).length = length := List.length_take_of_le whole
  refine ⟨?_, ?_, still.fits, ?_, ⟨?_, written, _, _, rfl, count⟩, still.allowed⟩
  · intro item member
    rcases List.mem_append.mp member with member | member
    · exact still.asked item member
    · rw [List.mem_singleton.mp member]
      refine ⟨.new request conn.peer, ?_, decoded, rfl⟩
      rw [called, List.getElem?_append_right (Nat.le_refl _), Nat.sub_self]
      rfl
  · intro body member
    obtain ⟨item, among, rfl⟩ := List.mem_map.mp member
    rcases List.mem_append.mp among with among | among
    · exact sound.sizes item.1 (List.mem_map_of_mem among)
    · rw [List.mem_singleton.mp among, size]
      exact fits
  · intro place reply found
    obtain ⟨item, asked, replied⟩ := still.replied place reply found
    have inside := (List.getElem?_eq_some_iff.mp asked).1
    exact ⟨item, (List.getElem?_append_left inside).trans asked, replied⟩
  · simp only [Conn.bodies, List.map_append, List.map_cons, List.map_nil, frames_snoc]
    rw [arrived, List.append_assoc, frame, size, List.append_assoc, List.take_append_drop]
    rfl

theorem conn_new {policy : Policy} {listener : Nat} {peer : Net.IpAddr}
    (inForce : policy ∈ work.installed) (allowed : clientAllowed policy.allow peer = true) :
    (Conn.new listener peer).Sound wire work where
  asked := fun _ absent => nomatch absent
  sizes := fun _ absent => nomatch absent
  fits := fun _ absent => nomatch absent
  replied := fun _ _ absent => nomatch absent
  phase := ⟨rfl, rfl, rfl⟩
  allowed := ⟨policy, inForce, allowed⟩

theorem ConnMove.holds (moved : ConnMove wire work conn next) (listener : Nat) :
    next.holds listener = conn.holds listener := by
  cases moved with
  | arrive bytes alive => rfl
  | length reading unread => simp only [Conn.holds, reading]
  | reply busy found left encoded fits => simp only [Conn.holds, busy]
  | @write rest count writing within =>
      simp only [Conn.holds, writing]
      by_cases whole : count = rest.length
      · rw [if_pos whole]
      · rw [if_neg whole]

theorem holds_of_alive (alive : conn.phase ≠ .closed) (listener : Nat) :
    conn.holds listener = decide (conn.listener = listener) := by
  simp only [Conn.holds]

end Conn

/-- The answer to a datagram is that of its query. -/
def Datagram.Sound (work : Workload) (datagram : Datagram) : Prop :=
  ∃ handling, work.handlings[datagram.call]? = some handling ∧
    handling.client = datagram.peer.ip ∧ ∀ bytes, datagram.reply = .sent bytes →
      ∃ handled, handling.stage = .left handled ∧
        datagramReply wire handling.request handled.response = .sent bytes

structure Sockets.Sound (sockets : Sockets) : Prop where
  work : sockets.work.Sound proto
  slots : ∀ (listener free : Nat), sockets.slots[listener]? = some free →
    free + sockets.conns.countP (Conn.holds listener) = MAX_TCP_CONNECTIONS
  conns : ∀ conn ∈ sockets.conns, conn.Sound wire sockets.work
  datagrams : ∀ datagram ∈ sockets.datagrams, datagram.Sound wire sockets.work

section Invariant

variable {proto wire} {before after : Sockets} {work : Workload} {index : Nat} {conn next : Conn}

theorem Datagram.Sound.later {datagram : Datagram} (sound : datagram.Sound wire before.work)
    (continues : before.work.Continues work) : datagram.Sound wire work := by
  obtain ⟨handling, found, client, replied⟩ := sound
  obtain ⟨now, foundNow, request, same, ended⟩ := continues.handlings _ _ found
  refine ⟨now, foundNow, same.trans client, ?_⟩
  intro bytes sent
  obtain ⟨handled, left, encoded⟩ := replied bytes sent
  obtain rfl := ended handled left
  exact ⟨handled, left, encoded⟩

/-- The queries go on, and nothing else moves. -/
theorem Sockets.Sound.later (sound : before.Sound proto wire) (next : work.Sound proto)
    (continues : before.work.Continues work) : { before with work }.Sound proto wire where
  work := next
  slots := sound.slots
  conns conn member := (sound.conns conn member).later continues
  datagrams datagram member := (sound.datagrams datagram member).later continues

theorem Sockets.Sound.setConn (sound : before.Sound proto wire)
    (found : before.conns[index]? = some conn) (here : next.Sound wire before.work)
    (holds : ∀ listener, next.holds listener = conn.holds listener) :
    (before.setConn index next).Sound proto wire where
  work := sound.work
  slots listener free slot := by
    have same : (before.conns.set index next).countP (Conn.holds listener) = _ :=
      countP_set_same found (holds listener)
    have full := sound.slots listener free slot
    rwa [← same] at full
  conns other member := by
    rcases List.mem_or_eq_of_mem_set member with member | rfl
    · exact sound.conns other member
    · exact here
  datagrams := sound.datagrams

theorem Sockets.Sound.close (sound : before.Sound proto wire) (unread : List UInt8)
    (found : before.conns[index]? = some conn) (alive : conn.phase ≠ .closed) :
    (before.close index { conn with unread }).Sound proto wire := by
  have here := sound.conns conn (List.mem_of_getElem? found)
  let shut : Conn := { conn with unread, phase := .closed }
  refine ⟨sound.work, ?_, ?_, sound.datagrams⟩
  · intro listener free slot
    have fewer : (before.conns.set index shut).countP _ + _ = _ + _ :=
      countP_set (Conn.holds listener) found
    have gone : shut.holds listener = false := rfl
    rw [gone, holds_of_alive alive, Bool.toNat_false] at fewer
    change free + (before.conns.set index shut).countP (Conn.holds listener) = _
    change (before.slots.modify conn.listener (· + 1))[listener]? = some free at slot
    rw [List.getElem?_modify] at slot
    obtain ⟨earlier, was, rfl⟩ := Option.map_eq_some_iff.mp slot
    have full := sound.slots listener earlier was
    by_cases same : conn.listener = listener
    · rw [decide_eq_true same, Bool.toNat_true] at fewer
      rw [if_pos same]
      omega
    · rw [decide_eq_false same, Bool.toNat_false] at fewer
      rw [if_neg same]
      omega
  · intro other member
    rcases List.mem_or_eq_of_mem_set member with member | rfl
    · exact sound.conns other member
    · exact ⟨here.asked, here.sizes, here.fits, here.replied, here.phase.closed, here.allowed⟩

theorem Sockets.Sound.accept (sound : before.Sound proto wire) {listener free : Nat}
    {peer : Net.SocketAddr} (allowed : clientAllowed before.work.policy.allow peer.ip = true)
    (slot : before.slots[listener]? = some (free + 1)) :
    { before with
      slots := before.slots.set listener free
      conns := before.conns ++ [Conn.new listener peer.ip] }.Sound proto wire := by
  refine ⟨sound.work, ?_, ?_, sound.datagrams⟩
  · intro other left found
    change (before.slots.set listener free)[other]? = some left at found
    change left + (before.conns ++ [Conn.new listener peer.ip]).countP (Conn.holds other) = _
    rw [List.countP_append]
    rw [List.getElem?_set] at found
    by_cases same : listener = other
    · subst same
      rw [if_pos rfl, if_pos (List.getElem?_eq_some_iff.mp slot).1] at found
      cases found
      have full := sound.slots listener (free + 1) slot
      have taken : [Conn.new listener peer.ip].countP (Conn.holds listener) = 1 := by
        rw [List.countP_singleton, Conn.holds, Conn.new]
        simp only [decide_true, if_true]
      omega
    · rw [if_neg same] at found
      have full := sound.slots other left found
      have untaken : [Conn.new listener peer.ip].countP (Conn.holds other) = 0 := by
        rw [List.countP_singleton, Conn.holds, Conn.new]
        simp only [same, decide_false, Bool.false_eq_true, if_false]
      omega
  · intro conn member
    rcases List.mem_append.mp member with member | member
    · exact sound.conns conn member
    · rw [List.mem_singleton.mp member]
      have inForce : before.work.policy ∈ before.work.installed :=
        List.mem_append_right _ List.mem_cons_self
      exact conn_new inForce allowed

/-- A new query is the last one. -/
theorem called_work {request : Message} {client : Net.IpAddr}
    (called : before.work.step proto (.call request client) = some work) :
    work.handlings = before.work.handlings ++ [.new request client] := by
  cases called
  rfl

theorem sockets_step {event : Traffic} (sound : before.Sound proto wire)
    (stepped : before.step proto wire event = some after) : after.Sound proto wire := by
  cases sockets_move stepped with
  | same => exact sound
  | conn found moved =>
      have here := sound.conns _ (List.mem_of_getElem? found)
      exact sound.setConn found (here.move moved) moved.holds
  | close unread found alive => exact sound.close unread found alive
  | ask found reading whole decoded called =>
      have continues := workload_continues called
      have handlings := called_work called
      have here := sound.conns _ (List.mem_of_getElem? found)
      have still := sound.later (workload_step sound.work called) continues
      exact still.setConn found (here.ask reading whole decoded handlings continues)
        fun listener => by simp only [Conn.holds, reading]
  | accept allowed slot => exact sound.accept allowed slot
  | @datagram listener peer request work called =>
      have still := sound.later (workload_step sound.work called) (workload_continues called)
      refine ⟨still.work, still.slots, still.conns, ?_⟩
      intro datagram member
      rcases List.mem_append.mp member with member | member
      · exact still.datagrams datagram member
      · rw [List.mem_singleton.mp member]
        refine ⟨.new request peer.ip, ?_, rfl, nofun⟩
        rw [called_work called, List.getElem?_append_right (Nat.le_refl _), Nat.sub_self]
        rfl
  | @respond index datagram handling handled sent found left =>
      refine ⟨sound.work, sound.slots, sound.conns, ?_⟩
      intro other member
      rcases List.mem_or_eq_of_mem_set member with member | rfl
      · exact sound.datagrams other member
      · obtain ⟨same, foundSame, client, _⟩ := sound.datagrams _ (List.mem_of_getElem? sent)
        obtain rfl := Option.some.inj (foundSame.symm.trans found)
        exact ⟨same, found, client, fun bytes replied => ⟨handled, left, replied⟩⟩
  | work moved => exact sound.later (workload_step sound.work moved) (workload_continues moved)
  | shutdown => exact ⟨sound.work, sound.slots, sound.conns, sound.datagrams⟩

theorem sockets_new (policy : Policy) (listeners : Nat) :
    (Sockets.new policy listeners).Sound proto wire where
  work := workload_new policy
  slots listener free slot := by
    have same := List.eq_of_mem_replicate (List.mem_of_getElem? slot)
    exact same
  conns := fun _ absent => nomatch absent
  datagrams := fun _ absent => nomatch absent

end Invariant

/-- One of the pipeline's queries, from this peer, and its answer by a policy in force. -/
def Answers (work : Workload) (handling : Handling) (peer : Net.IpAddr) (handled : Handled) :
    Prop :=
  handling ∈ work.handlings ∧ handling.client = peer ∧
    handling.AnsweredBy proto work.installed handled

section Results

variable {proto wire} {policy : Policy} {listeners : Nat} {events : List Traffic}
  {final : Sockets}

theorem sockets_sound
    (ran : run (Sockets.step proto wire) (.new policy listeners) events = some final) :
    final.Sound proto wire :=
  invariant_of_run (fun _ _ _ => sockets_step) (sockets_new policy listeners) ran

theorem answers_left {handling : Handling} {handled : Handled} {call : Nat} {peer : Net.IpAddr}
    (sound : final.Sound proto wire) (found : final.work.handlings[call]? = some handling)
    (left : handling.stage = .left handled) (client : handling.client = peer) :
    Answers proto final.work handling peer handled := by
  have member := List.mem_of_getElem? found
  have answered : handling.handled? = some handled := by simp only [Handling.handled?, left]
  exact ⟨member, client, sound.work.answered member answered⟩

/-- On every connection the answers are written one behind the other, and the one in a place
answers the message that arrived in that place. -/
theorem connections_in_order
    (ran : run (Sockets.step proto wire) (.new policy listeners) events = some final) :
    ∀ conn ∈ final.conns, ∃ replies, conn.written <+: frames replies ∧
      (unframe conn.written).1 <+: replies ∧
      ∀ (place : Nat) (reply : List UInt8), replies[place]? = some reply →
        ∃ body handling handled, (unframe conn.arrived).1[place]? = some body ∧
          wire.fromVec body = some handling.request ∧
          Answers proto final.work handling conn.peer handled ∧
          wire.toVec handled.response = some reply := by
  intro conn member
  have sound := sockets_sound ran
  have here := sound.conns conn member
  obtain ⟨read, written⟩ := here.phase.closed
  refine ⟨conn.replies, written, unframe_written here.fits written, ?_⟩
  intro place reply found
  obtain ⟨item, asked, handling, handled, call, left, encoded⟩ := here.replied place reply found
  obtain ⟨same, foundSame, decoded, client⟩ := here.asked item (List.mem_of_getElem? asked)
  obtain rfl := Option.some.inj (foundSame.symm.trans call)
  refine ⟨item.1, same, handled, ?_, decoded, answers_left sound call left client, encoded⟩
  obtain ⟨rest, arrived⟩ := read
  have body : conn.bodies[place]? = some item.1 := by
    rw [Conn.bodies, List.getElem?_map, asked]
    rfl
  rw [← arrived, unframe_frames here.sizes]
  exact (List.getElem?_append_left (List.getElem?_eq_some_iff.mp body).1).trans body

theorem datagramReply_cases {request response : Message} {bytes : List UInt8}
    (sent : datagramReply wire request response = .sent bytes) :
    wire.toVec response = some bytes ∧ bytes.length ≤ udpPayloadLimit wire request ∨
      ∃ whole, wire.toVec response = some whole ∧ udpPayloadLimit wire request < whole.length ∧
        wire.toVec (wire.truncate response) = some bytes := by
  simp only [datagramReply] at sent
  split at sent
  · next whole encoded =>
    split at sent
    · next fits =>
      cases sent
      exact .inl ⟨encoded, fits⟩
    · next long =>
      split at sent
      · next short truncated =>
        cases sent
        exact .inr ⟨whole, encoded, Nat.lt_of_not_le long, truncated⟩
      · cases sent
  · cases sent

end Results

/-- `shop.test. IN ANY`. -/
def anyQuestion : Query := Query.query (plainName "shop.test.") .ANY

def anyQuestionBytes : List UInt8 := [4, 115, 104, 111, 112, 4, 116, 101, 115, 116, 0, 0, 255, 0, 1]

def askedBytes : List UInt8 := [0, 7, 1, 0, 0, 1, 0, 0, 0, 0, 0, 0] ++ anyQuestionBytes

def refusedBytes : List UInt8 := [0, 7, 129, 133, 0, 1, 0, 0, 0, 0, 0, 0] ++ anyQuestionBytes

/-- One question and its refusal, as they are in bytes. -/
def anyWire : Wire where
  fromVec bytes := if bytes = askedBytes then some (Message.asking 7 anyQuestion) else none
  toVec message :=
    if message = synthRefused (Message.asking 7 anyQuestion) then some refusedBytes else none
  truncate message := { message with
    metadata := { message.metadata with truncation := true }
    answers := []
    authorities := []
    additionals := [] }
  maxPayload _ := 512

/-- A query is let in and answered. -/
def answering (index : Nat) (seen : Pipeline) : List Traffic :=
  [.work (.enter index), .work (.load index), .work (.answer index seen atStart),
    .work (.leave index)]

/-- The question on a connection, in two pieces, and then in a datagram. -/
def askedTwice (policy : Policy) : List Traffic :=
  let seen := Pipeline.idle policy fun _ => none
  [.accept 0 (.V4 [192, 168, 1, 7] 40000), .arrive 0 ((frame askedBytes).take 9), .read 0,
    .arrive 0 ((frame askedBytes).drop 9), .read 0] ++ answering 0 seen ++
  [.take 0, .write 0 4, .write 0 25, .datagram 0 (.V4 [192, 168, 1, 7] 40001) askedBytes] ++
  answering 1 seen ++ [.respond 0]

theorem askedTwice_runs (policy : Policy) (open_ : policy.allow = everyone) :
    ∃ final, run (Sockets.step plainProto anyWire) (.new policy 1) (askedTwice policy) =
      some final ∧ final.conns.map Conn.written = [frame refusedBytes] := by
  obtain ⟨engine, safesearch, allow⟩ := policy
  cases open_
  exact ⟨_, rfl, rfl⟩

theorem connections_in_order_refused : ∃ engine final,
    LoadedEngine.load .insertion ["||tracker.test^".toList] = some engine ∧
      run (Sockets.step plainProto anyWire)
        (.new { engine, safesearch := { enabled := 0 }, allow := everyone } 1)
        (askedTwice { engine, safesearch := { enabled := 0 }, allow := everyone }) = some final ∧
      final.conns.map Conn.written = [frame refusedBytes] ∧
      ∀ conn ∈ final.conns, ∃ replies, conn.written <+: frames replies ∧
        (unframe conn.written).1 <+: replies ∧
        ∀ (place : Nat) (reply : List UInt8), replies[place]? = some reply →
          ∃ body handling handled, (unframe conn.arrived).1[place]? = some body ∧
            anyWire.fromVec body = some handling.request ∧
            Answers plainProto final.work handling conn.peer handled ∧
            anyWire.toVec handled.response = some reply := by
  obtain ⟨engine, loaded⟩ := trackerEngine
  obtain ⟨final, ran, written⟩ := askedTwice_runs
    { engine, safesearch := { enabled := 0 }, allow := everyone } rfl
  exact ⟨engine, final, loaded, ran, written, connections_in_order ran⟩

end Sumidero.Server
