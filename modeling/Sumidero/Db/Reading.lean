import Sumidero.Data.Checks
import Sumidero.Data.Ranking
import Sumidero.Db.Rows
import Sumidero.Net.Display

namespace Sumidero.Db

open Data Text
open Server (VerdictKind ResponseSource)

/-! Reading the log back: rows to records, the newest rows, and aggregates. -/

inductive ColumnType where
  | Text
  | Integer
deriving Repr, DecidableEq

/-- `FromSqlConversionFailure`: the column, its type, and what is wrong with the value. -/
structure ConversionFailure where
  column : Nat
  type : ColumnType
  reason : Str
deriving Repr, DecidableEq

def VerdictKind.fromDb : String → Except ConversionFailure VerdictKind
  | "allowed" => .ok .Allowed
  | "blocked" => .ok .Blocked
  | "excepted" => .ok .Excepted
  | "rewritten" => .ok .Rewritten
  | other => .error { column := 0, type := .Text, reason := ("unknown verdict: " ++ other).toList }

def ResponseSource.fromDb : String → Except ConversionFailure ResponseSource
  | "synth" => .ok .Synth
  | "cache" => .ok .Cache
  | "stale" => .ok .Stale
  | "upstream" => .ok .Upstream
  | "failed" => .ok .Failed
  | "failure_cached" => .ok .FailureCached
  | other => .error { column := 0, type := .Text, reason := ("unknown source: " ++ other).toList }

def clientOf (text : Str) : Except ConversionFailure Net.IpAddr :=
  match Net.parseIpAddr text with
  | some client => .ok client
  | none =>
      .error { column := 1, type := .Text, reason := "invalid IP address syntax".toList }

/-- `try_from` of an integer column, for the unsigned type that ends before `bound`. -/
def unsignedOf (bound column : Nat) (value : Int) : Except ConversionFailure Nat :=
  if 0 ≤ value ∧ value < bound then .ok value.toNat
  else .error
    { column, type := .Integer
      reason := "out of range integral type conversion attempted".toList }

/-- One row read back.  A list index is a non-negative column, which `usize` holds. -/
def rowToQueryRecord (row : QueryRow) : Except ConversionFailure QueryRecord := do
  let client ← clientOf row.client
  let qtype ← unsignedOf (2 ^ 16) 3 row.qtype
  let verdict ← VerdictKind.fromDb row.verdict
  let source ← ResponseSource.fromDb row.source
  let rcode ← unsignedOf (2 ^ 16) 8 row.rcode
  let durationUs ← unsignedOf (2 ^ 32) 9 row.durationUs
  return {
    ts := row.ts
    client
    qname := row.qname
    qtype := UInt16.ofNat qtype
    verdict
    rule := row.rule
    list := row.list
    source
    rcode := UInt16.ofNat rcode
    durationUs := UInt32.ofNat durationUs }

/-- The record as a row keeps it. -/
def QueryRecord.stored (q : QueryRecord) : QueryRecord :=
  { q with list := q.list.map (min · I64_MAX) }

/-! ### Records and rows -/

theorem fromDb_asStr (verdict : VerdictKind) :
    VerdictKind.fromDb (VerdictKind.asStr verdict) = .ok verdict := by
  cases verdict <;> rfl

theorem fromDb_asStr_source (source : ResponseSource) :
    ResponseSource.fromDb (ResponseSource.asStr source) = .ok source := by
  cases source <;> rfl

theorem asStr_of_fromDb {text : String} {verdict : VerdictKind}
    (read : VerdictKind.fromDb text = .ok verdict) : VerdictKind.asStr verdict = text := by
  unfold VerdictKind.fromDb at read
  split at read
  all_goals first
    | contradiction
    | (cases read; rfl)

theorem asStr_of_fromDb_source {text : String} {source : ResponseSource}
    (read : ResponseSource.fromDb text = .ok source) : ResponseSource.asStr source = text := by
  unfold ResponseSource.fromDb at read
  split at read
  all_goals first
    | contradiction
    | (cases read; rfl)

theorem unsignedOf_natCast {bound column value : Nat} (small : value < bound) :
    unsignedOf bound column value = .ok value := by
  have fits : (0 : Int) ≤ value ∧ (value : Int) < bound := by omega
  simp only [unsignedOf, if_pos fits, Int.toNat_natCast]

theorem unsignedOf_eq_ok {bound column result : Nat} {value : Int}
    (read : unsignedOf bound column value = .ok result) : value = result ∧ result < bound := by
  simp only [unsignedOf] at read
  split at read
  · cases read
    omega
  · cases read

theorem clientOf_toStr {client : Net.IpAddr} (formed : client.WellFormed) :
    clientOf client.toStr = .ok client := by
  simp only [clientOf, Net.parseIpAddr_toStr formed]

theorem clientOf_formed {text : Str} {client : Net.IpAddr} (read : clientOf text = .ok client) :
    client.WellFormed := by
  simp only [clientOf] at read
  split at read
  · next found =>
    cases read
    exact Net.parseIpAddr_wellFormed found
  · cases read

/-- What was inserted is what is read. -/
theorem rowToQueryRecord_row {record : QueryRecord} (formed : record.client.WellFormed) :
    rowToQueryRecord record.row = .ok record.stored := by
  simp only [rowToQueryRecord, QueryRecord.row, clientOf_toStr formed, fromDb_asStr,
    fromDb_asStr_source, unsignedOf_natCast record.qtype.toNat_lt,
    unsignedOf_natCast record.rcode.toNat_lt, unsignedOf_natCast record.durationUs.toNat_lt,
    ok_bind, UInt16.ofNat_toNat, UInt32.ofNat_toNat]
  rfl

theorem bind_eq_ok {ε α β : Type} {first : Except ε α} {next : α → Except ε β} {result : β}
    (read : (first >>= next) = .ok result) :
    ∃ value, first = .ok value ∧ next value = .ok result := by
  cases first with
  | error reason => cases read
  | ok value => exact ⟨value, rfl, read⟩

/-- A row that is read back is the row of the record it was read as, but for the spelling of
the client's address. -/
theorem row_of_rowToQueryRecord {row : QueryRow} {record : QueryRecord}
    (index : ∀ list, row.list = some list → list ≤ I64_MAX)
    (read : rowToQueryRecord row = .ok record) :
    record.client.WellFormed ∧ { record.row with client := row.client } = row := by
  obtain ⟨client, clientRead, read⟩ := bind_eq_ok read
  obtain ⟨qtype, qtypeRead, read⟩ := bind_eq_ok read
  obtain ⟨verdict, verdictRead, read⟩ := bind_eq_ok read
  obtain ⟨source, sourceRead, read⟩ := bind_eq_ok read
  obtain ⟨rcode, rcodeRead, read⟩ := bind_eq_ok read
  obtain ⟨duration, durationRead, read⟩ := bind_eq_ok read
  cases read
  obtain ⟨qtypeIs, qtypeFits⟩ := unsignedOf_eq_ok qtypeRead
  obtain ⟨rcodeIs, rcodeFits⟩ := unsignedOf_eq_ok rcodeRead
  obtain ⟨durationIs, durationFits⟩ := unsignedOf_eq_ok durationRead
  have listed : row.list.map (min · I64_MAX) = row.list := by
    cases known : row.list with
    | none => rfl
    | some list => simp only [Option.map_some, Nat.min_eq_left (index list known)]
  refine ⟨clientOf_formed clientRead, ?_⟩
  simp only [QueryRecord.row, listed, asStr_of_fromDb verdictRead,
    asStr_of_fromDb_source sourceRead, UInt16.toNat_ofNat_of_lt' qtypeFits,
    UInt16.toNat_ofNat_of_lt' rcodeFits, UInt32.toNat_ofNat_of_lt' durationFits, ← qtypeIs,
    ← rcodeIs, ← durationIs]

/-! ### The newest rows -/

/-- `ORDER BY ts DESC, id DESC`, of what has a time and an id. -/
def Newer {α : Type} (ts : α → Int) (first second : α × Nat) : Prop :=
  ts second.1 < ts first.1 ∨ ts second.1 = ts first.1 ∧ second.2 ≤ first.2

instance {α : Type} (ts : α → Int) : DecidableRel (Newer ts) :=
  fun _ _ => inferInstanceAs (Decidable (_ ∨ _))

instance {α : Type} (ts : α → Int) : Std.Total (Newer ts) where
  total first second := by
    simp only [Newer]
    omega

instance {α : Type} (ts : α → Int) : IsTrans (α × Nat) (Newer ts) where
  trans first second third early late := by
    simp only [Newer] at *
    omega

/-- Ids grow from row to row and are never used again, so places in the table order rows as
their ids do. -/
def recentRows (tables : Tables) (limit : UInt32) : List QueryRow :=
  ((tables.queries.zipIdx.insertionSort (Newer QueryRow.ts)).take limit.toNat).map Prod.fst

/-- Most recent query rows, newest first. -/
def recentQueries (tables : Tables) (limit : UInt32) :
    Except ConversionFailure (List QueryRecord) :=
  (recentRows tables limit).mapM rowToQueryRecord

theorem recentQueries_newest {tables : Tables} {records : List QueryRecord}
    (rows : tables.queries = records.map QueryRecord.row)
    (formed : ∀ record ∈ records, record.client.WellFormed) (limit : UInt32) :
    ∃ picked, Leading (Newer QueryRecord.ts) limit.toNat records.zipIdx picked ∧
      recentQueries tables limit = .ok (picked.map fun numbered => numbered.1.stored) := by
  have leading : Leading (Newer QueryRecord.ts) limit.toNat records.zipIdx
      ((records.zipIdx.insertionSort (Newer QueryRecord.ts)).take limit.toNat) :=
    leading_take limit.toNat records.zipIdx
  refine ⟨_, leading, ?_⟩
  have alike : tables.queries.zipIdx.insertionSort (Newer QueryRow.ts) =
      (records.zipIdx.insertionSort (Newer QueryRecord.ts)).map
        (Prod.map QueryRecord.row id) := by
    rw [rows, List.zipIdx_map]
    exact (List.map_insertionSort (Newer QueryRecord.ts) (Newer QueryRow.ts) _ _
      fun _ _ _ _ => Iff.rfl).symm
  rw [recentQueries, recentRows, alike, ← List.map_take, List.map_map, mapM_ok,
    List.forall₂_map_left_iff, List.forall₂_map_right_iff, List.forall₂_same]
  intro numbered member
  exact rowToQueryRecord_row (formed _ (List.fst_mem_of_mem_zipIdx (leading.mem member)))

/-! ### Divergences -/

/-- A row of `divergences` read back; a type no query can have reads as 0. -/
def DivergenceRow.read (row : DivergenceRow) : Divergence where
  ts := row.ts
  qname := row.qname
  qtype := if 0 ≤ row.qtype ∧ row.qtype < 2 ^ 16 then UInt16.ofNat row.qtype.toNat else 0
  ours := row.ours
  theirs := row.theirs
  class_ := row.class_

/-- Recent divergences, newest first: the last rows of the table. -/
def recentDivergences (tables : Tables) (limit : UInt32) : List Divergence :=
  (tables.divergences.reverse.take limit.toNat).map DivergenceRow.read

theorem read_row (divergence : Divergence) : divergence.row.read = divergence := by
  have small := divergence.qtype.toNat_lt
  have fits : (0 : Int) ≤ divergence.qtype.toNat ∧ (divergence.qtype.toNat : Int) < 2 ^ 16 := by
    omega
  simp only [DivergenceRow.read, Divergence.row, if_pos fits, Int.toNat_natCast,
    UInt16.ofNat_toNat]

theorem recentDivergences_newest {tables : Tables} {divergences : List Divergence}
    (rows : tables.divergences = divergences.map Divergence.row) (limit : UInt32) :
    recentDivergences tables limit = divergences.reverse.take limit.toNat := by
  have same : DivergenceRow.read ∘ Divergence.row = id := funext read_row
  rw [recentDivergences, rows, ← List.map_reverse, ← List.map_take, List.map_map, same,
    List.map_id]

/-! ### Aggregates -/

structure Stats where
  total : Nat
  blocked : Nat
  excepted : Nat
  rewritten : Nat
  cacheHits : Nat
  staleHits : Nat
  upstreamFailures : Nat
  failureCached : Nat
  topQueried : List (Str × Nat)
  topBlocked : List (Str × Nat)
deriving Repr, DecidableEq

/-- `ORDER BY cnt DESC`. -/
def More (first second : Str × Nat) : Prop := second.2 ≤ first.2

instance : DecidableRel More := fun _ _ => inferInstanceAs (Decidable (_ ≤ _))

instance : Std.Total More where
  total first second := by
    simp only [More]
    omega

instance : IsTrans (Str × Nat) More where
  trans first second third early late := by
    simp only [More] at *
    omega

/-- The rows of the window `[since, now]`. -/
def rowsSince (since : Int) (tables : Tables) : List QueryRow :=
  tables.queries.filter fun row => since ≤ row.ts

/-- `GROUP BY qname ORDER BY cnt DESC LIMIT 10`; `visit` is the order in which the groups come
out of the grouping, which decides among equal counts. -/
def topList (visit : List (Str × Nat) → List (Str × Nat)) (rows : List QueryRow) :
    List (Str × Nat) :=
  ((visit (tally (rows.map QueryRow.qname))).insertionSort More).take 10

/-- Aggregates for a window. -/
def stats (visit : List (Str × Nat) → List (Str × Nat)) (tables : Tables) (since : Int) : Stats :=
  let rows := rowsSince since tables
  { total := rows.length
    blocked := rows.countP fun row => row.verdict = "blocked"
    excepted := rows.countP fun row => row.verdict = "excepted"
    rewritten := rows.countP fun row => row.verdict = "rewritten"
    cacheHits := rows.countP fun row => row.source = "cache"
    staleHits := rows.countP fun row => row.source = "stale"
    upstreamFailures := rows.countP fun row => row.source = "failed"
    failureCached := rows.countP fun row => row.source = "failure_cached"
    topQueried := topList visit rows
    topBlocked := topList visit (rows.filter fun row => row.verdict = "blocked") }

/-- Divergence counts per class since a time, largest first. -/
def divergenceSummary (visit : List (Str × Nat) → List (Str × Nat)) (tables : Tables)
    (since : Int) : List (Str × Nat) :=
  let rows := tables.divergences.filter fun row => since ≤ row.ts
  (visit (tally (rows.map DivergenceRow.class_))).insertionSort More

/-- What aggregates say of the records they are about. -/
structure Counts (records : List QueryRecord) (stats : Stats) : Prop where
  total : stats.total = records.length
  blocked : stats.blocked = records.countP fun record => record.verdict = .Blocked
  excepted : stats.excepted = records.countP fun record => record.verdict = .Excepted
  rewritten : stats.rewritten = records.countP fun record => record.verdict = .Rewritten
  cacheHits : stats.cacheHits = records.countP fun record => record.source = .Cache
  staleHits : stats.staleHits = records.countP fun record => record.source = .Stale
  upstreamFailures : stats.upstreamFailures = records.countP fun record => record.source = .Failed
  failureCached : stats.failureCached =
    records.countP fun record => record.source = .FailureCached
  topQueried : Leading More 10 (tally (records.map QueryRecord.qname)) stats.topQueried
  topBlocked : Leading More 10
    (tally ((records.filter fun record => record.verdict = .Blocked).map QueryRecord.qname))
    stats.topBlocked

theorem asStr_eq_iff (verdict other : VerdictKind) :
    VerdictKind.asStr verdict = VerdictKind.asStr other ↔ verdict = other := by
  cases verdict <;> cases other <;> decide

theorem asStr_source_eq_iff (source other : ResponseSource) :
    ResponseSource.asStr source = ResponseSource.asStr other ↔ source = other := by
  cases source <;> cases other <;> decide

section Counts

variable {visit : List (Str × Nat) → List (Str × Nat)} {tables : Tables}
  {records : List QueryRecord}

theorem countP_verdict (verdict : VerdictKind) :
    (records.map QueryRecord.row).countP (fun row => row.verdict = VerdictKind.asStr verdict) =
      records.countP fun record => record.verdict = verdict := by
  rw [List.countP_map]
  apply List.countP_congr
  intro record _
  simp only [Function.comp_apply, QueryRecord.row, decide_eq_true_eq, asStr_eq_iff]

theorem countP_source (source : ResponseSource) :
    (records.map QueryRecord.row).countP (fun row => row.source = ResponseSource.asStr source) =
      records.countP fun record => record.source = source := by
  rw [List.countP_map]
  apply List.countP_congr
  intro record _
  simp only [Function.comp_apply, QueryRecord.row, decide_eq_true_eq, asStr_source_eq_iff]

theorem topList_leads (visits : ∀ groups, (visit groups).Perm groups) :
    Leading More 10 (tally (records.map QueryRecord.qname))
      (topList visit (records.map QueryRecord.row)) := by
  have names : (records.map QueryRecord.row).map QueryRow.qname =
      records.map QueryRecord.qname := by
    rw [List.map_map]
    rfl
  rw [topList, names]
  exact (leading_take 10 _).perm (visits _)

theorem rowsSince_map (rows : tables.queries = records.map QueryRecord.row) (since : Int) :
    rowsSince since tables =
      (records.filter fun record => since ≤ record.ts).map QueryRecord.row := by
  rw [rowsSince, rows, List.filter_map]
  rfl

theorem stats_counts (visits : ∀ groups, (visit groups).Perm groups)
    (rows : tables.queries = records.map QueryRecord.row) (since : Int) :
    Counts (records.filter fun record => since ≤ record.ts) (stats visit tables since) := by
  have window := rowsSince_map rows since
  have blocked : ((records.filter fun record => since ≤ record.ts).map QueryRecord.row).filter
      (fun row => row.verdict = "blocked") =
      ((records.filter fun record => since ≤ record.ts).filter
        fun record => record.verdict = .Blocked).map QueryRecord.row := by
    rw [List.filter_map]
    congr 1
    apply List.filter_congr
    intro record _
    exact decide_eq_decide.mpr (asStr_eq_iff record.verdict .Blocked)
  simp only [stats, window, blocked]
  exact {
    total := List.length_map _
    blocked := countP_verdict .Blocked
    excepted := countP_verdict .Excepted
    rewritten := countP_verdict .Rewritten
    cacheHits := countP_source .Cache
    staleHits := countP_source .Stale
    upstreamFailures := countP_source .Failed
    failureCached := countP_source .FailureCached
    topQueried := topList_leads visits
    topBlocked := topList_leads visits }

theorem divergenceSummary_counts {divergences : List Divergence}
    (visits : ∀ groups, (visit groups).Perm groups)
    (rows : tables.divergences = divergences.map Divergence.row) (since : Int) :
    (divergenceSummary visit tables since).Pairwise More ∧
      (divergenceSummary visit tables since).Perm
        (tally ((divergences.filter fun each => since ≤ each.ts).map Divergence.class_)) := by
  have window : (tables.divergences.filter fun row => since ≤ row.ts).map DivergenceRow.class_ =
      (divergences.filter fun each => since ≤ each.ts).map Divergence.class_ := by
    rw [rows, List.filter_map, List.map_map]
    rfl
  rw [divergenceSummary, window]
  exact ⟨List.pairwise_insertionSort More _, (List.perm_insertionSort More _).trans (visits _)⟩

end Counts

end Sumidero.Db
