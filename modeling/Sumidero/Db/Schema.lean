import Sumidero.Data.Programs
import Sumidero.Db.Rows

namespace Sumidero.Db

open Data Text Program

/-! Opening the database: its tables, and the steps that bring an older one up to date.  Every
statement is a transaction of its own, any of them may fail, and the process may be killed
between any two. -/

/-- On-disk schema version. -/
def SCHEMA_VERSION : Nat := 4

inductive DbError where
  | Open (path : Str) (source : String)
  | Sql (source : String)
  | SchemaTooNew (found supported : Nat)
deriving Repr, DecidableEq

/-- `str::parse::<u32>`. -/
def parseU32 (text : Str) : Option Nat :=
  let digits := if text.head? = some '+' then text.drop 1 else text
  if digits ≠ [] ∧ digits.all Char.isDigit then
    let value := digits.foldl (fun value c => 10 * value + (c.toNat - '0'.toNat)) 0
    if value < 2 ^ 32 then some value else none
  else none

/-! ### Tables -/

/-- What the `CHECK` of a new `queries` table admits as verdict. -/
def VERDICTS : List String := ["allowed", "blocked", "excepted", "rewritten"]

/-- The columns of a new `daemon_stats` table. -/
def STATS_COLUMNS : List String :=
  ["id", "updated_ts", "log_events_dropped", "log_events_dropped_recent", "upstreams_json",
   "runtime_json"]

/-- `queries`: the verdicts its `CHECK` admits, its rows by id, and whether it has its index. -/
structure QueriesTable where
  verdicts : List String
  rows : List (Nat × QueryRow)
  indexed : Bool
  checked : ∀ numbered ∈ rows, numbered.2.verdict ∈ verdicts

structure DivergencesTable where
  rows : List (Nat × DivergenceRow)
  indexed : Bool

inductive Value where
  | Integer (value : Int)
  | Text (value : Str)
deriving Repr, DecidableEq

/-- `daemon_stats`: its columns, and a value for each of them if it has its row. -/
structure StatsTable where
  columns : List String
  row : Option (List Value)
  full : ∀ values ∈ row, values.length = columns.length

structure Heartbeat where
  pid : Nat
  startedTs : Int
  updatedTs : Int
  configHash : Str
  listsHash : Str
deriving Repr, DecidableEq

/-- The tables that exist; of `meta`, the schema version. -/
structure Database where
  meta_ : Option (Option Str)
  queries : Option QueriesTable
  heartbeat : Option (Option Heartbeat)
  daemonStats : Option StatsTable
  divergences : Option DivergencesTable

/-- What `create_schema` creates, in its order. -/
inductive Relation where
  | meta_
  | queries
  | queriesTs
  | heartbeat
  | daemonStats
  | divergences
  | divergencesTs
deriving Repr, DecidableEq

def SCHEMA : List Relation :=
  [.meta_, .queries, .queriesTs, .heartbeat, .daemonStats, .divergences, .divergencesTs]

namespace Database

/-- A file just created. -/
def empty : Database where
  meta_ := none
  queries := none
  heartbeat := none
  daemonStats := none
  divergences := none

def newQueries : QueriesTable where
  verdicts := VERDICTS
  rows := []
  indexed := false
  checked := fun _ member => nomatch member

def newStats : StatsTable where
  columns := STATS_COLUMNS
  row := none
  full := fun _ member => nomatch member

/-- `CREATE … IF NOT EXISTS`; an index needs its table. -/
def create (db : Database) : Relation → Option Database
  | .meta_ => some { db with meta_ := some (db.meta_.getD none) }
  | .queries => some { db with queries := some (db.queries.getD newQueries) }
  | .queriesTs =>
      db.queries.map fun table => { db with queries := some { table with indexed := true } }
  | .heartbeat => some { db with heartbeat := some (db.heartbeat.getD none) }
  | .daemonStats => some { db with daemonStats := some (db.daemonStats.getD newStats) }
  | .divergences =>
      some { db with divergences := some (db.divergences.getD { rows := [], indexed := false }) }
  | .divergencesTs =>
      db.divergences.map fun table => { db with divergences := some { table with indexed := true } }

end Database

/-- `ALTER TABLE … ADD COLUMN … NOT NULL DEFAULT …`; a column is not added twice. -/
def StatsTable.addColumn (table : StatsTable) (name : String) (value : Value) :
    Option StatsTable :=
  if name ∈ table.columns then none
  else some {
    columns := table.columns ++ [name]
    row := table.row.map (· ++ [value])
    full := by
      intro values member
      obtain ⟨old, found, rfl⟩ := Option.map_eq_some_iff.mp member
      have full := table.full old found
      simp only [List.length_append, List.length_singleton, full] }

/-- The transaction that rebuilds `queries`: the table is renamed, a new one takes its rows
and ids, the old one goes with its index, and the new one gets an index.  A row that the new
`CHECK` refuses fails it. -/
def QueriesTable.rebuild (table : QueriesTable) : Option QueriesTable :=
  if checked : ∀ numbered ∈ table.rows, numbered.2.verdict ∈ VERDICTS then
    some { verdicts := VERDICTS, rows := table.rows, indexed := true, checked }
  else none

/-- The value of a column in the row of `daemon_stats`. -/
def StatsTable.get (table : StatsTable) (name : String) : Option Value := do
  let values ← table.row
  values[table.columns.idxOf name]?

/-! ### Statements -/

inductive Op where
  /-- `Connection::open` and the pragmas. -/
  | connect (path : Str)
  | create (what : Relation)
  /-- The columns of `SELECT * FROM daemon_stats LIMIT 0`. -/
  | columnNames
  | addColumn (name : String) (value : Value)
  /-- The verdicts in the `CHECK` of `queries`, which is what its `sql` is searched for. -/
  | queriesSql
  | rebuildQueries
  /-- The schema version, if there is one and it can be read. -/
  | readVersion
  | replaceVersion (version : Str)
  | insertVersion (version : Str)

abbrev Reply : Op → Type
  | .connect _ => Except String Unit
  | .create _ => Except String Unit
  | .columnNames => Except String (List String)
  | .addColumn _ _ => Except String Unit
  | .queriesSql => Except String (List String)
  | .rebuildQueries => Except String Unit
  | .readVersion => Option Str
  | .replaceVersion _ => Except String Unit
  | .insertVersion _ => Except String Unit

/-- The database after a reply, if the reply is possible there.  A statement that fails
changes nothing. -/
def effect (db : Database) : (op : Op) → Reply op → Option Database
  | .connect _, _ => some db
  | .create what, .ok () => db.create what
  | .create _, .error _ => some db
  | .columnNames, .ok names =>
      if db.daemonStats.map StatsTable.columns = some names then some db else none
  | .columnNames, .error _ => some db
  | .addColumn name value, .ok () => do
      let table ← db.daemonStats
      let wider ← table.addColumn name value
      return { db with daemonStats := some wider }
  | .addColumn _ _, .error _ => some db
  | .queriesSql, .ok verdicts =>
      if db.queries.map QueriesTable.verdicts = some verdicts then some db else none
  | .queriesSql, .error _ => some db
  | .rebuildQueries, .ok () => do
      let table ← db.queries
      let rebuilt ← table.rebuild
      return { db with queries := some rebuilt }
  | .rebuildQueries, .error _ => some db
  | .readVersion, some version => if db.meta_ = some (some version) then some db else none
  | .readVersion, none => some db
  | .replaceVersion version, .ok () =>
      if db.meta_.isSome then some { db with meta_ := some (some version) } else none
  | .replaceVersion _, .error _ => some db
  | .insertVersion version, .ok () =>
      if db.meta_ = some none then some { db with meta_ := some (some version) } else none
  | .insertVersion _, .error _ => some db

/-! ### The code -/

abbrev Session : Type := Program Reply (Except DbError Unit)

/-- `?` on the reply to a statement. -/
def sql {A : Type} (reply : Except String A) (next : A → Session) : Session :=
  match reply with
  | .ok value => next value
  | .error source => done (.error (.Sql source))

/-- `?` on a result. -/
def andThen (first next : Session) : Session :=
  first >>= fun
    | .ok () => next
    | .error err => done (.error err)

def createAll : List Relation → Session
  | [] => done (.ok ())
  | what :: rest => perform (.create what) fun made => sql made fun () => createAll rest

def createSchema : Session := createAll SCHEMA

/-- A column of `daemon_stats` that older versions lack. -/
def addMissing (name : String) (value : Value) : Session :=
  perform .columnNames fun names => sql names fun names =>
    if name ∈ names then done (.ok ())
    else perform (.addColumn name value) fun added => sql added fun () => done (.ok ())

/-- `queries` with the `CHECK` that older versions lack. -/
def rebuildMissing : Session :=
  perform .queriesSql fun verdicts => sql verdicts fun verdicts =>
    if "rewritten" ∈ verdicts then done (.ok ())
    else perform .rebuildQueries fun rebuilt => sql rebuilt fun () => done (.ok ())

def unlessFrom (version : Nat) (found : Nat) (missing : Session) : Session :=
  if found < version then missing else done (.ok ())

/-- Bring an older database up to `SCHEMA_VERSION`. -/
def migrateSchema (found : Nat) : Session :=
  andThen (unlessFrom 2 found (addMissing "log_events_dropped_recent" (.Integer 0)))
    (andThen (unlessFrom 3 found rebuildMissing)
      (unlessFrom 4 found (addMissing "runtime_json" (.Text "{}".toList))))

def ensureSchemaVersion : Session :=
  perform .readVersion fun
    | some version =>
        let found := (parseU32 version).getD 0
        if SCHEMA_VERSION < found then done (.error (.SchemaTooNew found SCHEMA_VERSION))
        else if found < SCHEMA_VERSION then
          andThen (migrateSchema found)
            (perform (.replaceVersion (toString SCHEMA_VERSION).toList) fun replaced =>
              sql replaced fun () => done (.ok ()))
        else done (.ok ())
    | none =>
        perform (.insertVersion (toString SCHEMA_VERSION).toList) fun inserted =>
          sql inserted fun () => done (.ok ())

/-- Open (creating if absent) and migrate the schema. -/
def openDb (path : Str) : Session :=
  perform (.connect path) fun
    | .error source => done (.error (.Open path source))
    | .ok () => andThen createSchema ensureSchemaVersion

end Sumidero.Db
