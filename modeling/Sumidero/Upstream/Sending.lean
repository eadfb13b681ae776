import Sumidero.Data.Programs
import Sumidero.Dns.Message
import Sumidero.Text

namespace Sumidero.Upstream

open Text Dns Data Program

/-! `send`: one query on one upstream, with a second try on a new connection. -/

/-- How one send on a connection ended: an answer, an error of this query only, an error that
condemns the connection, or a silent hang. -/
inductive Sent where
  | answer (response : Message)
  | query (err : Str)
  | fatal (err : Str)
  | timedOut
deriving DecidableEq

namespace Sending

/-- What a query asks of its upstream: a connection, its counters, its backoff. -/
inductive SendOp where
  | countQuery
  | acquire
  | sendQuery (generation : Nat) (msg : Message)
  | invalidate (generation : Nat) (why : Str)
  | countFailure
  | countConsecutive
  | clearConsecutive
  | stampSuccess
  | resetBackoff
  | prove

abbrev SendReply : SendOp → Type
  | .acquire => Except Str Nat
  | .sendQuery _ _ => Sent
  | _ => Unit

end Sending

open Sending (SendOp SendReply)

abbrev Sending (Result : Type) : Type := Program SendReply Result

/-- The upstream's URL, and how a response code reads. -/
structure Sender where
  label : Str
  display : ResponseCode → Str

/-- SERVFAIL, REFUSED and NOTIMP. -/
def Unusable (response : Message) : Prop :=
  response.responseCode = .ServFail ∨ response.responseCode = .Refused ∨
    response.responseCode = .Unknown 4

instance (response : Message) : Decidable (Unusable response) := inferInstanceAs (Decidable (_ ∨ _))

/-- Count a failed query and return the error unchanged. -/
def recordFailure (err : Str) : Sending Str := do
  call SendOp.countFailure
  call SendOp.countConsecutive
  return err

/-- An answer: the connection is proven, the backoff resets. -/
def recordSuccess : Sending Unit := do
  call SendOp.clearConsecutive
  call SendOp.stampSuccess
  call SendOp.resetBackoff
  call SendOp.prove

/-- Accept or reject a transport-level success by its rcode. -/
def Sender.judge (self : Sender) (response : Message) : Sending (Except Str Message) := do
  if Unusable response then
    return .error (← recordFailure
      (self.label ++ ": upstream answered ".toList ++ self.display response.responseCode))
  else
    recordSuccess
    return .ok response

def timedOutOnConnection : Str := "query timed out on this connection".toList

/-- The second try, after the first connection failed. -/
def Sender.resend (self : Sender) (msg : Message) (firstErr : Str) :
    Sending (Except Str Message) := do
  match ← call SendOp.acquire with
  | .error err => return .error (← recordFailure (firstErr ++ "; ".toList ++ err))
  | .ok generation =>
      let after := firstErr ++ "; after reconnect: ".toList
      match ← call (SendOp.sendQuery generation msg) with
      | .answer response => return (← self.judge response).mapError (after ++ ·)
      | .query err => return .error (← recordFailure (after ++ err))
      | .fatal err =>
          call (SendOp.invalidate generation err)
          return .error (← recordFailure (after ++ err))
      | .timedOut =>
          call (SendOp.invalidate generation timedOutOnConnection)
          return .error (← recordFailure (after ++ self.label ++ ": timed out".toList))

/-- Send one query, reconnecting once if the connection fails fatally. -/
def Sender.send (self : Sender) (msg : Message) : Sending (Except Str Message) := do
  call SendOp.countQuery
  match ← call SendOp.acquire with
  | .error err => return .error (← recordFailure err)
  | .ok generation =>
      match ← call (SendOp.sendQuery generation msg) with
      | .answer response => self.judge response
      | .query err => return .error (← recordFailure err)
      | .timedOut =>
          call (SendOp.invalidate generation timedOutOnConnection)
          return .error (← recordFailure (self.label ++ ": timed out".toList))
      | .fatal err =>
          call (SendOp.invalidate generation err)
          self.resend msg err

/-! ### What one send does -/

/-- The operations of one send, by kind. -/
structure Account where
  queries : Nat
  failures : Nat
  consecutive : Nat
  successes : Nat
  /-- The connections it was sent on, and how that ended. -/
  sends : List (Nat × Sent)
  condemned : List Nat
deriving DecidableEq

def Account.opened : Account where
  queries := 0
  failures := 0
  consecutive := 0
  successes := 0
  sends := []
  condemned := []

def Account.note (account : Account) : (op : SendOp) → SendReply op → Account
  | .countQuery, _ => { account with queries := account.queries + 1 }
  | .sendQuery generation _, sent =>
      { account with sends := account.sends ++ [(generation, sent)] }
  | .invalidate generation _, _ =>
      { account with condemned := account.condemned ++ [generation] }
  | .countFailure, _ => { account with failures := account.failures + 1 }
  | .countConsecutive, _ => { account with consecutive := account.consecutive + 1 }
  | .clearConsecutive, _ => { account with successes := account.successes + 1 }
  | _, _ => account

def noted (account : Account) (op : SendOp) (reply : SendReply op) : Option Account :=
  some (account.note op reply)

def Sent.condemns : Sent → Bool
  | .fatal _ | .timedOut => true
  | .answer _ | .query _ => false

/-- What a send that returned has done. -/
structure Settled (account : Account) (result : Except Str Message) : Prop where
  once : account.queries = 1
  /-- It counts as one failure exactly if it returned an error, and as an answer otherwise. -/
  counted : account.failures = (if result.isOk then 0 else 1) ∧
    account.consecutive = account.failures ∧ account.successes + account.failures = 1
  /-- What it returns is the answer on the last connection, and is usable. -/
  answered : ∀ response, result = .ok response →
    ¬ Unusable response ∧ ∃ generation, account.sends.getLast? = some (generation, .answer response)
  tries : account.sends.length ≤ 2
  /-- There is a second try only after a fatal error. -/
  retried : ∀ first ∈ account.sends.dropLast, ∃ err, first.2 = .fatal err
  /-- The connections it takes down are those on which it failed fatally or hung. -/
  condemned : account.condemned =
    (account.sends.filter fun sent => sent.2.condemns).map Prod.fst

def anything : Duty Account SendReply := .considering fun _ _ _ => True

section Spec

variable {account : Account} {post : Account → Except Str Message → Prop}

theorem recordFailure_spec {A : Type} {last : Account → A → Prop} {err : Str} {rest : Str → A}
    (holds : last { account with
      failures := account.failures + 1, consecutive := account.consecutive + 1 } (rest err)) :
    Ensures noted anything last (recordFailure err >>= fun told => pure (rest told)) account := by
  refine ⟨trivial, trivial, ?_⟩
  intro counted middle effected _
  cases effected
  refine ⟨trivial, trivial, ?_⟩
  intro counted after effected _
  cases effected
  exact holds

theorem judge_spec (self : Sender) {response : Message}
    (failed : ∀ err, post { account with
      failures := account.failures + 1, consecutive := account.consecutive + 1 } (.error err))
    (answered : ¬ Unusable response →
      post { account with successes := account.successes + 1 } (.ok response)) :
    Ensures noted anything post (self.judge response) account := by
  by_cases unusable : Unusable response
  · simp only [Sender.judge, if_pos unusable]
    exact recordFailure_spec (failed _)
  · simp only [Sender.judge, if_neg unusable]
    refine ⟨trivial, trivial, ?_⟩
    intro cleared first effected _
    cases effected
    refine ⟨trivial, trivial, ?_⟩
    intro stamped second effected _
    cases effected
    refine ⟨trivial, trivial, ?_⟩
    intro reset third effected _
    cases effected
    refine ⟨trivial, trivial, ?_⟩
    intro proven last effected _
    cases effected
    exact answered unusable

/-- One operation, whose reply the rest goes on with. -/
theorem call_spec {B : Type} {last : Account → B → Prop} {op : SendOp}
    {rest : SendReply op → Sending B}
    (later : ∀ reply, Ensures noted anything last (rest reply) (account.note op reply)) :
    Ensures noted anything last (call op >>= rest) account := by
  refine ⟨trivial, trivial, ?_⟩
  intro reply after effected _
  cases effected
  exact later reply

end Spec

/-- The books before the answer or the failure is counted: one query, and these sends. -/
def Account.after (sends : List (Nat × Sent)) (condemned : List Nat) : Account where
  queries := 1
  failures := 0
  consecutive := 0
  successes := 0
  sends
  condemned

/-- Sends that failed fatally, and then one more. -/
structure Tried (sends : List (Nat × Sent)) (condemned : List Nat) : Prop where
  tries : sends.length ≤ 2
  retried : ∀ first ∈ sends.dropLast, ∃ err, first.2 = .fatal err
  condemned : condemned = (sends.filter fun sent => sent.2.condemns).map Prod.fst

section Settling

variable {sends : List (Nat × Sent)} {condemned : List Nat}

theorem settled_failure (tried : Tried sends condemned) (err : Str) :
    Settled { Account.after sends condemned with failures := 1, consecutive := 1 }
      (.error err) where
  once := rfl
  counted := ⟨rfl, rfl, rfl⟩
  answered := fun _ absent => nomatch absent
  tries := tried.tries
  retried := tried.retried
  condemned := tried.condemned

theorem failure_settles (tried : Tried sends condemned) (err : Str)
    {rest : Str → Except Str Message} (fails : ∀ err, ∃ other, rest err = .error other) :
    Ensures noted anything Settled (recordFailure err >>= fun told => pure (rest told))
      (Account.after sends condemned) := by
  apply recordFailure_spec
  obtain ⟨other, same⟩ := fails err
  rw [same]
  exact settled_failure tried other

theorem answer_settles (self : Sender) {generation : Nat} {response : Message}
    (last : sends.getLast? = some (generation, .answer response))
    (tried : Tried sends condemned) :
    Ensures noted anything Settled (self.judge response) (Account.after sends condemned) := by
  apply judge_spec
  · exact settled_failure tried
  · intro usable
    refine ⟨rfl, ⟨rfl, rfl, rfl⟩, ?_, tried.tries, tried.retried, tried.condemned⟩
    rintro other ⟨⟩
    exact ⟨usable, generation, last⟩

theorem settled_mapError {account : Account} {result : Except Str Message} (front : Str → Str)
    (settled : Settled account result) : Settled account (result.mapError front) := by
  cases result with
  | ok response => exact settled
  | error err =>
      exact ⟨settled.once, settled.counted, fun _ absent => (nomatch absent), settled.tries,
        settled.retried, settled.condemned⟩

theorem tried_none : Tried [] [] :=
  ⟨Nat.zero_le _, fun _ member => (nomatch member), rfl⟩

theorem tried_once (generation : Nat) (sent : Sent) :
    Tried [(generation, sent)] (if sent.condemns then [generation] else []) := by
  refine ⟨Nat.le_succ 1, fun _ member => (nomatch member), ?_⟩
  cases condemns : sent.condemns <;> simp [condemns]

theorem tried_twice (first second : Nat) (err : Str) (sent : Sent) :
    Tried [(first, .fatal err), (second, sent)]
      (if sent.condemns then [first, second] else [first]) := by
  refine ⟨Nat.le_refl 2, ?_, ?_⟩
  · intro other member
    cases List.mem_singleton.mp member
    exact ⟨err, rfl⟩
  · have first : (Sent.fatal err).condemns = true := rfl
    cases condemns : sent.condemns <;> simp [condemns, first]

theorem resend_settles (self : Sender) (msg : Message) (generation : Nat) (firstErr : Str) :
    Ensures noted anything Settled (self.resend msg firstErr)
      (Account.after [(generation, .fatal firstErr)] [generation]) := by
  apply call_spec
  intro acquired
  cases acquired with
  | error err =>
      exact failure_settles (tried_once generation (.fatal firstErr)) _ fun err => ⟨err, rfl⟩
  | ok fresh =>
      apply call_spec
      intro sent
      have tried := tried_twice generation fresh firstErr sent
      cases sent with
      | answer response =>
          apply ensures_bind
          apply ensures_mono _ (answer_settles self rfl tried)
          exact fun after result settled => settled_mapError _ settled
      | query err => exact failure_settles tried _ fun err => ⟨err, rfl⟩
      | fatal err =>
          apply call_spec
          exact fun _ => failure_settles tried _ fun err => ⟨err, rfl⟩
      | timedOut =>
          apply call_spec
          exact fun _ => failure_settles tried _ fun err => ⟨err, rfl⟩

/-- Whatever the upstream and its connections do, one `send` is one query of the counters and
one failure or one answer, is sent at most twice, and a second time only after a fatal error;
it asks to take down the connections that failed fatally or hung and no other, and returns
only a usable answer, which is that of the last connection it was sent on. -/
theorem send_settles (self : Sender) (msg : Message) :
    Ensures noted anything Settled (self.send msg) Account.opened := by
  apply call_spec
  intro counted
  apply call_spec
  intro acquired
  cases acquired with
  | error err => exact failure_settles tried_none _ fun err => ⟨err, rfl⟩
  | ok generation =>
      apply call_spec
      intro sent
      have tried := tried_once generation sent
      cases sent with
      | answer response => exact answer_settles self rfl tried
      | query err => exact failure_settles tried _ fun err => ⟨err, rfl⟩
      | timedOut =>
          apply call_spec
          exact fun _ => failure_settles tried _ fun err => ⟨err, rfl⟩
      | fatal err =>
          apply call_spec
          exact fun _ => resend_settles self msg generation err

end Settling

end Sumidero.Upstream
