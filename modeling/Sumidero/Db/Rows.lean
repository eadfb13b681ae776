import Sumidero.Server.Pipeline

namespace Sumidero.Db

open Text
open Server (VerdictKind ResponseSource)

/-! The query log: its events, and the rows that the writer inserts for them. -/

/-- One row for the query log. -/
structure QueryRecord where
  ts : Int
  client : Net.IpAddr
  qname : Str
  qtype : UInt16
  verdict : VerdictKind
  rule : Option Str
  list : Option Nat
  source : ResponseSource
  rcode : UInt16
  durationUs : UInt32
deriving Repr, DecidableEq

/-- A shadow-mode divergence. -/
structure Divergence where
  ts : Int
  qname : Str
  qtype : UInt16
  ours : Str
  theirs : Str
  class_ : Str
deriving Repr, DecidableEq

inductive LogEvent where
  | Query (record : QueryRecord)
  | Divergence (divergence : Divergence)
deriving Repr, DecidableEq

def VerdictKind.asStr : VerdictKind → String
  | .Allowed => "allowed"
  | .Blocked => "blocked"
  | .Excepted => "excepted"
  | .Rewritten => "rewritten"

def ResponseSource.asStr : ResponseSource → String
  | .Synth => "synth"
  | .Cache => "cache"
  | .Stale => "stale"
  | .Upstream => "upstream"
  | .Failed => "failed"
  | .FailureCached => "failure_cached"

/-- `i64::MAX`, what a list index too large for a column is stored as. -/
def I64_MAX : Nat := 2 ^ 63 - 1

structure QueryRow where
  ts : Int
  client : Str
  qname : Str
  qtype : Int
  verdict : String
  rule : Option Str
  list : Option Nat
  source : String
  rcode : Int
  durationUs : Int
deriving Repr, DecidableEq

structure DivergenceRow where
  ts : Int
  qname : Str
  qtype : Int
  ours : Str
  theirs : Str
  class_ : Str
deriving Repr, DecidableEq

def QueryRecord.row (q : QueryRecord) : QueryRow where
  ts := q.ts
  client := q.client.toStr
  qname := q.qname
  qtype := q.qtype.toNat
  verdict := VerdictKind.asStr q.verdict
  rule := q.rule
  list := q.list.map (min · I64_MAX)
  source := ResponseSource.asStr q.source
  rcode := q.rcode.toNat
  durationUs := q.durationUs.toNat

def Divergence.row (divergence : Divergence) : DivergenceRow where
  ts := divergence.ts
  qname := divergence.qname
  qtype := divergence.qtype.toNat
  ours := divergence.ours
  theirs := divergence.theirs
  class_ := divergence.class_

namespace LogEvent

def queryRow : LogEvent → Option QueryRow
  | Query record => some record.row
  | Divergence _ => none

def divergenceRow : LogEvent → Option DivergenceRow
  | Query _ => none
  | Divergence divergence => some divergence.row

end LogEvent

/-- The rows of both tables, oldest first. -/
structure Tables where
  queries : List QueryRow
  divergences : List DivergenceRow
deriving Repr, DecidableEq

namespace Tables

def insert (tables : Tables) : LogEvent → Tables
  | .Query record => { tables with queries := tables.queries ++ [record.row] }
  | .Divergence divergence =>
      { tables with divergences := tables.divergences ++ [divergence.row] }

def insertAll (tables : Tables) (events : List LogEvent) : Tables := events.foldl insert tables

variable {tables : Tables}

@[simp] theorem insertAll_nil : tables.insertAll [] = tables := rfl

/-- Each table gets the rows of its own events, in their order. -/
theorem insertAll_eq (events : List LogEvent) :
    tables.insertAll events =
      { queries := tables.queries ++ events.filterMap LogEvent.queryRow
        divergences := tables.divergences ++ events.filterMap LogEvent.divergenceRow } := by
  induction events generalizing tables with
  | nil => simp
  | cons event rest ih =>
      change (tables.insert event).insertAll rest = _
      rw [ih]
      cases event <;>
        simp [insert, List.filterMap_cons, LogEvent.queryRow, LogEvent.divergenceRow]

theorem insertAll_append (first second : List LogEvent) :
    tables.insertAll (first ++ second) = (tables.insertAll first).insertAll second :=
  List.foldl_append ..

theorem insertAll_snoc (events : List LogEvent) (event : LogEvent) :
    tables.insertAll (events ++ [event]) = (tables.insertAll events).insert event := by
  rw [insertAll_append]
  rfl

end Tables

end Sumidero.Db
