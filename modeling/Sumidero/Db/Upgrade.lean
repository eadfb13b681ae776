import Sumidero.Db.Schema

namespace Sumidero.Db

open Data Text Program

/-! What opening a database keeps, whatever fails and wherever the process is killed, and
what it has done once it succeeds. -/

/-! ### What is in a database -/

namespace Database

def has (db : Database) : Relation → Prop
  | .meta_ => db.meta_.isSome
  | .queries => db.queries.isSome
  | .queriesTs => ∃ table ∈ db.queries, table.indexed = true
  | .heartbeat => db.heartbeat.isSome
  | .daemonStats => db.daemonStats.isSome
  | .divergences => db.divergences.isSome
  | .divergencesTs => ∃ table ∈ db.divergences, table.indexed = true

def version (db : Database) : Option Str := db.meta_.getD none

def queryRows (db : Database) : List (Nat × QueryRow) :=
  (db.queries.map QueriesTable.rows).getD []

def divergenceRows (db : Database) : List (Nat × DivergenceRow) :=
  (db.divergences.map DivergencesTable.rows).getD []

def heartbeatRow (db : Database) : Option Heartbeat := db.heartbeat.getD none

/-- The value of a column in the row of `daemon_stats`. -/
def stat (db : Database) (name : String) : Option Value :=
  db.daemonStats.bind fun table => table.get name

/-- Whether the daemon has published statistics. -/
def published (db : Database) : Bool := (db.daemonStats.bind StatsTable.row).isSome

/-- No `daemon_stats` table lacks the column. -/
def Column (db : Database) (name : String) : Prop :=
  ∀ table ∈ db.daemonStats, name ∈ table.columns

/-- No `queries` table refuses the verdict. -/
def Admits (db : Database) (verdict : String) : Prop :=
  ∀ table ∈ db.queries, verdict ∈ table.verdicts

end Database

/-- The version that added a column; those of the first version count as there before. -/
def columnSince (name : String) : Nat :=
  if name = "log_events_dropped_recent" then 2 else if name = "runtime_json" then 4 else 0

def verdictSince (verdict : String) : Nat := if verdict = "rewritten" then 3 else 0

/-- Every table that exists has what this version gives it. -/
structure Shaped (version : Nat) (db : Database) : Prop where
  columns : ∀ name ∈ STATS_COLUMNS, columnSince name ≤ version → db.Column name
  verdicts : ∀ verdict ∈ VERDICTS, verdictSince verdict ≤ version → db.Admits verdict

/-- The version written says no more than what the tables have; without one, every table is
of the current version.  Nothing is known of newer versions. -/
def Honest (db : Database) : Prop :=
  match db.version with
  | some version =>
      (parseU32 version).getD 0 ≤ SCHEMA_VERSION → Shaped ((parseU32 version).getD 0) db
  | none => Shaped SCHEMA_VERSION db

/-- Every row and value stays, no other appears, and no table loses what it has. -/
structure Grows (before after : Database) : Prop where
  relations : ∀ what, before.has what → after.has what
  queries : after.queryRows = before.queryRows
  divergences : after.divergenceRows = before.divergenceRows
  heartbeat : after.heartbeatRow = before.heartbeatRow
  stats : ∀ name value, before.stat name = some value → after.stat name = some value
  published : after.published = before.published
  columns : ∀ name ∈ STATS_COLUMNS, before.Column name → after.Column name
  verdicts : ∀ verdict ∈ VERDICTS, before.Admits verdict → after.Admits verdict

/-- And the version stays. -/
structure Steady (before after : Database) : Prop extends Grows before after where
  version : after.version = before.version

section Grows

variable {before middle after : Database}

theorem Grows.refl (db : Database) : Grows db db :=
  ⟨fun _ => id, rfl, rfl, rfl, fun _ _ => id, rfl, fun _ _ => id, fun _ _ => id⟩

theorem Grows.trans (first : Grows before middle) (second : Grows middle after) :
    Grows before after where
  relations := fun what present => second.relations what (first.relations what present)
  queries := second.queries.trans first.queries
  divergences := second.divergences.trans first.divergences
  heartbeat := second.heartbeat.trans first.heartbeat
  stats := fun name value found => second.stats name value (first.stats name value found)
  published := second.published.trans first.published
  columns := fun name known there => second.columns name known (first.columns name known there)
  verdicts := fun verdict known there =>
    second.verdicts verdict known (first.verdicts verdict known there)

theorem Steady.refl (db : Database) : Steady db db := ⟨Grows.refl db, rfl⟩

theorem Steady.trans (first : Steady before middle) (second : Steady middle after) :
    Steady before after :=
  ⟨first.toGrows.trans second.toGrows, second.version.trans first.version⟩

theorem Shaped.grows {version : Nat} (shaped : Shaped version before)
    (grows : Grows before after) : Shaped version after where
  columns := fun name known old => grows.columns name known (shaped.columns name known old)
  verdicts := fun verdict known old =>
    grows.verdicts verdict known (shaped.verdicts verdict known old)

theorem Honest.steady (honest : Honest before) (steady : Steady before after) : Honest after := by
  simp only [Honest] at honest ⊢
  rw [steady.version]
  split at honest
  · exact fun old => (honest old).grows steady.toGrows
  · exact honest.grows steady.toGrows

theorem create_steady {what : Relation} (created : before.create what = some after) :
    Steady before after := by
  cases what with
  | meta_ =>
      cases created
      refine ⟨⟨?_, rfl, rfl, rfl, fun _ _ => id, rfl, fun _ _ => id, fun _ _ => id⟩, rfl⟩
      rintro what present
      cases what <;> first | exact rfl | exact present
  | queries =>
      cases created
      refine ⟨⟨?_, ?_, rfl, rfl, fun _ _ => id, rfl, fun _ _ => id, ?_⟩, rfl⟩
      · intro what present
        cases what with
        | queries => rfl
        | queriesTs =>
            obtain ⟨table, held, indexed⟩ := present
            exact ⟨table, by simp [Option.mem_def.mp held], indexed⟩
        | _ => exact present
      · cases held : before.queries <;> simp [Database.queryRows, Database.newQueries, held]
      · intro verdict known admits table held
        cases old : before.queries with
        | none =>
            simp only [old, Option.getD_none, Option.mem_def, Option.some.injEq] at held
            rw [← held]
            exact known
        | some other =>
            simp only [old, Option.getD_some, Option.mem_def, Option.some.injEq] at held
            exact admits table (by rw [old, held, Option.mem_def])
  | queriesTs =>
      obtain ⟨table, held, rfl⟩ := Option.map_eq_some_iff.mp created
      refine ⟨⟨?_, ?_, rfl, rfl, fun _ _ => id, rfl, fun _ _ => id, ?_⟩, rfl⟩
      · intro what present
        cases what with
        | queries => rfl
        | queriesTs => exact ⟨_, rfl, rfl⟩
        | _ => exact present
      · simp [Database.queryRows, held]
      · intro verdict _ admits other member
        cases member
        exact admits table held
  | heartbeat =>
      cases created
      refine ⟨⟨?_, rfl, rfl, rfl, fun _ _ => id, rfl, fun _ _ => id, fun _ _ => id⟩, rfl⟩
      intro what present
      cases what <;> first | exact rfl | exact present
  | daemonStats =>
      cases created
      refine ⟨⟨?_, rfl, rfl, rfl, ?_, ?_, ?_, fun _ _ => id⟩, rfl⟩
      · intro what present
        cases what <;> first | exact rfl | exact present
      · intro name value found
        cases held : before.daemonStats with
        | none => simp [Database.stat, held] at found
        | some table => simpa [Database.stat, held] using found
      · cases held : before.daemonStats <;> simp [Database.published, Database.newStats, held]
      · intro name known there table member
        cases held : before.daemonStats with
        | none =>
            simp only [held, Option.getD_none, Option.mem_def, Option.some.injEq] at member
            rw [← member]
            exact known
        | some other =>
            simp only [held, Option.getD_some, Option.mem_def, Option.some.injEq] at member
            exact there table (by rw [held, member, Option.mem_def])
  | divergences =>
      cases created
      refine ⟨⟨?_, rfl, ?_, rfl, fun _ _ => id, rfl, fun _ _ => id, fun _ _ => id⟩, rfl⟩
      · intro what present
        cases what with
        | divergences => rfl
        | divergencesTs =>
            obtain ⟨table, held, indexed⟩ := present
            exact ⟨table, by simp [Option.mem_def.mp held], indexed⟩
        | _ => exact present
      · cases held : before.divergences <;> simp [Database.divergenceRows, held]
  | divergencesTs =>
      obtain ⟨table, held, rfl⟩ := Option.map_eq_some_iff.mp created
      refine ⟨⟨?_, rfl, ?_, rfl, fun _ _ => id, rfl, fun _ _ => id, fun _ _ => id⟩, rfl⟩
      · intro what present
        cases what with
        | divergences => rfl
        | divergencesTs => exact ⟨_, rfl, rfl⟩
        | _ => exact present
      · simp [Database.divergenceRows, held]

theorem addColumn_get {table wider : StatsTable} {name other : String} {value found : Value}
    (added : table.addColumn name value = some wider) (held : table.get other = some found) :
    wider.get other = some found := by
  simp only [StatsTable.addColumn] at added
  split at added
  · cases added
  · cases added
    obtain ⟨values, row, there⟩ := Option.bind_eq_some_iff.mp held
    obtain ⟨inside, _⟩ := List.getElem?_eq_some_iff.mp there
    have place : table.columns.idxOf other < table.columns.length :=
      table.full values row ▸ inside
    have known : other ∈ table.columns := List.idxOf_lt_length_iff.mp place
    simp only [StatsTable.get, row, Option.map_some, Option.bind_eq_bind, Option.bind_some]
    rw [List.idxOf_append_of_mem known, List.getElem?_append_left inside]
    exact there

theorem rebuild_eq {table rebuilt : QueriesTable} (done : table.rebuild = some rebuilt) :
    rebuilt.verdicts = VERDICTS ∧ rebuilt.rows = table.rows ∧ rebuilt.indexed = true := by
  simp only [QueriesTable.rebuild] at done
  split at done
  · cases done
    exact ⟨rfl, rfl, rfl⟩
  · cases done

theorem addColumn_steady {name : String} {value : Value}
    (effected : effect before (.addColumn name value) (.ok ()) = some after) :
    Steady before after ∧ after.Column name := by
  obtain ⟨table, held, effected⟩ := Option.bind_eq_some_iff.mp effected
  obtain ⟨wider, added, effected⟩ := Option.bind_eq_some_iff.mp effected
  cases effected
  have parts : wider.columns = table.columns ++ [name] ∧
      wider.row.isSome = table.row.isSome := by
    simp only [StatsTable.addColumn] at added
    split at added
    · cases added
    · cases added
      exact ⟨rfl, Option.isSome_map⟩
  obtain ⟨columns, row⟩ := parts
  refine ⟨⟨⟨?_, rfl, rfl, rfl, ?_, ?_, ?_, fun _ _ => id⟩, rfl⟩, ?_⟩
  · intro what present
    cases what <;> first | exact rfl | exact present
  · intro other found there
    simp only [Database.stat, held, Option.bind_some] at there ⊢
    exact addColumn_get added there
  · simpa only [Database.published, held, Option.bind_some] using row
  · intro other _ there each member
    cases member
    rw [columns]
    exact List.mem_append_left _ (there table held)
  · intro each member
    cases member
    rw [columns]
    exact List.mem_append_right _ List.mem_cons_self

theorem rebuild_steady (effected : effect before .rebuildQueries (.ok ()) = some after) :
    Steady before after ∧ ∀ verdict ∈ VERDICTS, after.Admits verdict := by
  obtain ⟨table, held, effected⟩ := Option.bind_eq_some_iff.mp effected
  obtain ⟨rebuilt, done, effected⟩ := Option.bind_eq_some_iff.mp effected
  cases effected
  obtain ⟨verdicts, rows, indexed⟩ := rebuild_eq done
  have admits : ∀ verdict ∈ VERDICTS,
      Database.Admits { before with queries := some rebuilt } verdict := by
    intro verdict known each member
    cases member
    rw [verdicts]
    exact known
  refine ⟨⟨⟨?_, ?_, rfl, rfl, fun _ _ => id, rfl, fun _ _ => id, ?_⟩, rfl⟩, admits⟩
  · intro what present
    cases what with
    | queries => rfl
    | queriesTs => exact ⟨rebuilt, rfl, indexed⟩
    | _ => exact present
  · simp [Database.queryRows, held, rows]
  · exact fun verdict known _ => admits verdict known

end Grows

/-! ### What each statement does -/

/-- The statements that write the version. -/
def WritesVersion : Op → Prop
  | .replaceVersion _ | .insertVersion _ => True
  | _ => False

section Statements

variable {before after found : Database}

theorem effect_steady {op : Op} {reply : Reply op} (plain : ¬ WritesVersion op)
    (effected : effect before op reply = some after) : Steady before after := by
  cases op with
  | connect path =>
      cases effected
      exact Steady.refl _
  | create what =>
      cases reply with
      | error source =>
          cases effected
          exact Steady.refl _
      | ok done => exact create_steady effected
  | columnNames =>
      cases reply with
      | error source =>
          cases effected
          exact Steady.refl _
      | ok names =>
          simp only [effect] at effected
          split at effected
          · cases effected
            exact Steady.refl _
          · cases effected
  | addColumn name value =>
      cases reply with
      | error source =>
          cases effected
          exact Steady.refl _
      | ok done => exact (addColumn_steady effected).1
  | queriesSql =>
      cases reply with
      | error source =>
          cases effected
          exact Steady.refl _
      | ok verdicts =>
          simp only [effect] at effected
          split at effected
          · cases effected
            exact Steady.refl _
          · cases effected
  | rebuildQueries =>
      cases reply with
      | error source =>
          cases effected
          exact Steady.refl _
      | ok done => exact (rebuild_steady effected).1
  | readVersion =>
      cases reply with
      | none =>
          cases effected
          exact Steady.refl _
      | some version =>
          simp only [effect] at effected
          split at effected
          · cases effected
            exact Steady.refl _
          · cases effected
  | replaceVersion version => exact absurd trivial plain
  | insertVersion version => exact absurd trivial plain

/-- What holds between any two statements. -/
structure Sound (found db : Database) : Prop where
  grows : Grows found db
  honest : Honest db

def openDuty (found : Database) : Duty Database Reply where
  alive := Sound found
  safe := fun _ _ => True
  admits := fun _ _ _ => True

theorem Sound.steady (sound : Sound found before) (steady : Steady before after) :
    Sound found after :=
  ⟨sound.grows.trans steady.toGrows, sound.honest.steady steady⟩

/-- A part succeeds with this fact, or a statement failed. -/
def Outcome (fact : Database → Prop) (after : Database) : Except DbError Unit → Prop
  | .ok () => fact after
  | .error err => ∃ source, err = .Sql source

/-- What a part of the code that writes no version owes: the version stays, and if the part
succeeds, this fact holds. -/
def Ends (found : Database) (fact : Database → Prop) (before : Database) (part : Session) :
    Prop :=
  Ensures effect (openDuty found)
    (fun after result => Steady before after ∧ Outcome fact after result) part before

theorem ends_done {fact : Database → Prop} (holds : fact before) :
    Ends found fact before (done (.ok ())) :=
  ⟨Steady.refl _, holds⟩

theorem ends_error {fact : Database → Prop} (source : String) :
    Ends found fact before (done (.error (.Sql source))) :=
  ⟨Steady.refl _, source, rfl⟩

theorem ends_perform {fact : Database → Prop} {op : Op} {next : Reply op → Session}
    (sound : Sound found before) (plain : ¬ WritesVersion op)
    (later : ∀ reply after, effect before op reply = some after → Sound found after →
      Ends found fact after (next reply)) : Ends found fact before (perform op next) := by
  refine ⟨sound, trivial, ?_⟩
  intro reply after effected _
  have steady := effect_steady plain effected
  have ends := later reply after effected (sound.steady steady)
  exact ensures_mono (fun last result held => ⟨steady.trans held.1, held.2⟩) ends

theorem ends_andThen {fact last : Database → Prop} {first next : Session}
    (sound : Sound found before) (ends : Ends found fact before first)
    (later : ∀ after, Steady before after → Sound found after → fact after →
      Ends found last after next) : Ends found last before (andThen first next) := by
  apply ensures_bind
  apply ensures_mono _ ends
  rintro middle result ⟨steady, holds⟩
  cases result with
  | error err => exact ⟨steady, holds⟩
  | ok done =>
      have rest := later middle steady (sound.steady steady) holds
      exact ensures_mono (fun after result held => ⟨steady.trans held.1, held.2⟩) rest

/-- A part that is left out where its work was done by an earlier version. -/
theorem ends_unlessFrom {fact : Database → Prop} {version number : Nat} {part : Session}
    (already : version ≤ number → fact before) (ends : Ends found fact before part) :
    Ends found fact before (unlessFrom version number part) := by
  simp only [unlessFrom]
  split
  · exact ends
  · next late => exact ends_done (already (Nat.le_of_not_lt late))

end Statements

/-! ### What each part does -/

section Parts

variable {found before : Database}

theorem create_has {what : Relation} {after : Database}
    (created : before.create what = some after) : after.has what := by
  cases what with
  | queriesTs =>
      obtain ⟨table, held, rfl⟩ := Option.map_eq_some_iff.mp created
      exact ⟨_, rfl, rfl⟩
  | divergencesTs =>
      obtain ⟨table, held, rfl⟩ := Option.map_eq_some_iff.mp created
      exact ⟨_, rfl, rfl⟩
  | _ =>
      cases created
      rfl

theorem ends_createAll (sound : Sound found before) (wanted : List Relation) :
    Ends found (fun after => ∀ what ∈ wanted, after.has what) before (createAll wanted) := by
  induction wanted generalizing before with
  | nil => exact ends_done (fun _ member => nomatch member)
  | cons what rest ih =>
      apply ends_perform sound id
      intro reply after effected sound
      cases reply with
      | error source => exact ends_error _
      | ok done =>
          have made := create_has effected
          apply ensures_mono _ (ih sound)
          rintro last result ⟨steady, holds⟩
          refine ⟨steady, ?_⟩
          cases result with
          | error err => exact holds
          | ok done =>
              intro other member
              rcases List.mem_cons.mp member with rfl | later
              · exact steady.relations other made
              · exact holds other later

theorem ends_addMissing (sound : Sound found before) (name : String) (value : Value) :
    Ends found (·.Column name) before (addMissing name value) := by
  apply ends_perform sound id
  intro names middle effected sound
  cases names with
  | error source => exact ends_error _
  | ok names =>
      simp only [effect] at effected
      split at effected
      · next held =>
        cases effected
        simp only [sql]
        split
        · next known =>
          apply ends_done
          intro table member
          rw [Option.mem_def.mp member] at held
          cases held
          exact known
        · apply ends_perform sound id
          intro added after effected sound
          cases added with
          | error source => exact ends_error _
          | ok done => exact ends_done (addColumn_steady effected).2
      · cases effected

theorem ends_rebuildMissing (sound : Sound found before) :
    Ends found (·.Admits "rewritten") before rebuildMissing := by
  apply ends_perform sound id
  intro verdicts middle effected sound
  cases verdicts with
  | error source => exact ends_error _
  | ok verdicts =>
      simp only [effect] at effected
      split at effected
      · next held =>
        cases effected
        simp only [sql]
        split
        · next known =>
          apply ends_done
          intro table member
          rw [Option.mem_def.mp member] at held
          cases held
          exact known
        · apply ends_perform sound id
          intro rebuilt after effected sound
          cases rebuilt with
          | error source => exact ends_error _
          | ok done => exact ends_done ((rebuild_steady effected).2 _ (by decide))
      · cases effected

/-- The migration from a version the tables have brings them to the current one. -/
theorem ends_migrateSchema (sound : Sound found before) {number : Nat}
    (shaped : Shaped number before) :
    Ends found (Shaped SCHEMA_VERSION) before (migrateSchema number) := by
  have first : Ends found (·.Column "log_events_dropped_recent") before
      (unlessFrom 2 number (addMissing "log_events_dropped_recent" (.Integer 0))) := by
    apply ends_unlessFrom _ (ends_addMissing sound _ _)
    exact fun late => shaped.columns _ (by decide) late
  apply ends_andThen sound first
  intro recent steady sound counted
  have second : Ends found (·.Admits "rewritten") recent
      (unlessFrom 3 number rebuildMissing) := by
    apply ends_unlessFrom _ (ends_rebuildMissing sound)
    exact fun late => (shaped.grows steady.toGrows).verdicts _ (by decide) late
  apply ends_andThen sound second
  intro rewritten later sound admitted
  have grows := steady.toGrows.trans later.toGrows
  have third : Ends found (·.Column "runtime_json") rewritten
      (unlessFrom 4 number (addMissing "runtime_json" (.Text "{}".toList))) := by
    apply ends_unlessFrom _ (ends_addMissing sound _ _)
    exact fun late => (shaped.grows grows).columns _ (by decide) late
  apply ensures_mono _ third
  rintro after result ⟨last, reported⟩
  refine ⟨last, ?_⟩
  cases result with
  | error err => exact reported
  | ok done =>
      have every := grows.trans last.toGrows
      constructor
      · intro name known _
        by_cases recentName : name = "log_events_dropped_recent"
        · rw [recentName]
          exact last.columns _ (by decide) (later.columns _ (by decide) counted)
        · by_cases runtimeName : name = "runtime_json"
          · rw [runtimeName]
            exact reported
          · apply (shaped.grows every).columns name known
            simp only [columnSince, if_neg recentName, if_neg runtimeName, Nat.zero_le]
      · intro verdict known _
        by_cases rewrittenVerdict : verdict = "rewritten"
        · rw [rewrittenVerdict]
          exact last.verdicts _ (by decide) admitted
        · apply (shaped.grows every).verdicts verdict known
          simp only [verdictSince, if_neg rewrittenVerdict, Nat.zero_le]

end Parts

/-! ### Opening -/

/-- What an open has done when it returns. -/
structure Opened (before after : Database) (result : Except DbError Unit) : Prop where
  grows : Grows before after
  honest : Honest after
  upToDate : result = .ok () →
    Shaped SCHEMA_VERSION after ∧ after.version.bind parseU32 = some SCHEMA_VERSION
  refused : ∀ number supported, result = .error (.SchemaTooNew number supported) →
    supported = SCHEMA_VERSION ∧ SCHEMA_VERSION < number ∧
      before.version.bind parseU32 = some number ∧ after.version = before.version

section Opening

variable {found before : Database}

theorem written_version : parseU32 (toString SCHEMA_VERSION).toList = some SCHEMA_VERSION := by
  decide

theorem written_grows (version : Str) :
    Grows before { before with meta_ := some (some version) } := by
  refine ⟨?_, rfl, rfl, rfl, fun _ _ => id, rfl, fun _ _ => id, fun _ _ => id⟩
  intro what present
  cases what <;> first | exact rfl | exact present

/-- The version of the code is written only where the tables are of that version. -/
theorem opened_written (shaped : Shaped SCHEMA_VERSION before) :
    Opened before { before with meta_ := some (some (toString SCHEMA_VERSION).toList) }
      (.ok ()) := by
  have grows : Grows before
      { before with meta_ := some (some (toString SCHEMA_VERSION).toList) } := written_grows _
  have current := shaped.grows grows
  refine ⟨grows, fun _ => current, fun _ => ⟨current, written_version⟩, ?_⟩
  exact fun _ _ absent => nomatch absent

theorem opened_steady {after : Database} (steady : Steady before after) (honest : Honest before)
    (source : String) : Opened before after (.error (.Sql source)) :=
  ⟨steady.toGrows, honest.steady steady, fun absent => (nomatch absent),
    fun _ _ absent => nomatch absent⟩

theorem Opened.after {middle after : Database} {result : Except DbError Unit}
    (opened : Opened middle after result) (steady : Steady before middle) :
    Opened before after result := by
  refine ⟨steady.toGrows.trans opened.grows, opened.honest, opened.upToDate, ?_⟩
  intro number supported refused
  rw [← steady.version]
  exact opened.refused number supported refused

theorem ensureSchemaVersion_opens (sound : Sound found before) :
    Ensures effect (openDuty found) (Opened before) ensureSchemaVersion before := by
  refine ⟨sound, trivial, ?_⟩
  intro reply middle effected _
  cases reply with
  | none =>
      cases effected
      refine ⟨sound, trivial, ?_⟩
      intro inserted after effected _
      cases inserted with
      | error source =>
          cases effected
          exact opened_steady (Steady.refl _) sound.honest source
      | ok done =>
          simp only [effect] at effected
          split at effected
          · next absent =>
            cases effected
            have honest := sound.honest
            simp only [Honest, Database.version, absent, Option.getD_some] at honest
            exact opened_written honest
          · cases effected
  | some version =>
      simp only [effect] at effected
      split at effected
      · next held =>
        cases effected
        have known : before.version = some version := by
          rw [Database.version, held, Option.getD_some]
        have honest := sound.honest
        simp only [Honest, known] at honest
        dsimp only
        split
        · next newer =>
          have number : parseU32 version = some ((parseU32 version).getD 0) := by
            cases parsed : parseU32 version with
            | none =>
                rw [parsed] at newer
                exact absurd newer (by decide)
            | some number => rfl
          refine ⟨Grows.refl _, sound.honest, fun absent => (nomatch absent), ?_⟩
          rintro other supported ⟨⟩
          refine ⟨rfl, newer, ?_, rfl⟩
          rw [known, Option.bind_some]
          exact number
        · next notNewer =>
          have shaped := honest (Nat.le_of_not_lt notNewer)
          split
          · apply ensures_bind
            apply ensures_mono _ (ends_migrateSchema sound shaped)
            rintro migrated result ⟨steady, upgraded⟩
            have later := sound.steady steady
            cases result with
            | error err =>
                obtain ⟨source, rfl⟩ := upgraded
                exact opened_steady steady sound.honest source
            | ok done =>
                refine ⟨later, trivial, ?_⟩
                intro replaced after effected _
                cases replaced with
                | error source =>
                    cases effected
                    exact opened_steady steady sound.honest source
                | ok done =>
                    simp only [effect] at effected
                    split at effected
                    · cases effected
                      exact (opened_written upgraded).after steady
                    · cases effected
          · next notOlder =>
            have number : (parseU32 version).getD 0 = SCHEMA_VERSION := by omega
            rw [number] at shaped
            refine ⟨Grows.refl _, sound.honest, ?_, fun _ _ absent => nomatch absent⟩
            intro _
            refine ⟨shaped, ?_⟩
            rw [known, Option.bind_some]
            cases parsed : parseU32 version with
            | none =>
                rw [parsed] at number
                exact absurd number (by decide)
            | some other =>
                rw [parsed] at number
                exact congrArg some number
      · cases effected

theorem openDb_opens (path : Str) (sound : Sound found before) :
    Ensures effect (openDuty found)
      (fun after result => Opened before after result ∧
        (result = .ok () → ∀ what ∈ SCHEMA, after.has what)) (openDb path) before := by
  refine ⟨sound, trivial, ?_⟩
  intro connected middle effected _
  cases effected
  cases connected with
  | error source =>
      refine ⟨⟨Grows.refl _, sound.honest, fun absent => (nomatch absent), ?_⟩,
        fun absent => (nomatch absent)⟩
      exact fun _ _ absent => nomatch absent
  | ok done =>
      apply ensures_bind
      apply ensures_mono _ (ends_createAll sound SCHEMA)
      rintro created result ⟨steady, holds⟩
      cases result with
      | error err =>
          obtain ⟨source, rfl⟩ := holds
          exact ⟨opened_steady steady sound.honest source, fun absent => nomatch absent⟩
      | ok done =>
          apply ensures_mono _ (ensureSchemaVersion_opens (sound.steady steady))
          intro after result opened
          refine ⟨opened.after steady, ?_⟩
          exact fun _ what member => opened.grows.relations what (holds what member)

/-- Every table is there and of the current version, and the version says so. -/
structure UpToDate (db : Database) : Prop where
  relations : ∀ what ∈ SCHEMA, db.has what
  version : db.version.bind parseU32 = some SCHEMA_VERSION

def idleDuty (db : Database) : Duty Database Reply where
  alive := (· = db)
  safe := fun _ _ => True
  admits := fun _ _ _ => True

theorem create_same {what : Relation} (present : before.has what) :
    before.create what = some before := by
  obtain ⟨meta_, queries, heartbeat, daemonStats, divergences⟩ := before
  cases what with
  | meta_ =>
      obtain ⟨version, rfl⟩ := Option.isSome_iff_exists.mp present
      rfl
  | queries =>
      obtain ⟨table, rfl⟩ := Option.isSome_iff_exists.mp present
      rfl
  | queriesTs =>
      obtain ⟨⟨verdicts, rows, indexed, checked⟩, member, indexedIs⟩ := present
      cases member
      cases indexedIs
      rfl
  | heartbeat =>
      obtain ⟨row, rfl⟩ := Option.isSome_iff_exists.mp present
      rfl
  | daemonStats =>
      obtain ⟨table, rfl⟩ := Option.isSome_iff_exists.mp present
      rfl
  | divergences =>
      obtain ⟨table, rfl⟩ := Option.isSome_iff_exists.mp present
      rfl
  | divergencesTs =>
      obtain ⟨⟨rows, indexed⟩, member, indexedIs⟩ := present
      cases member
      cases indexedIs
      rfl

theorem createAll_same (wanted : List Relation) (present : ∀ what ∈ wanted, before.has what) :
    Ensures effect (idleDuty before) (fun after _ => after = before) (createAll wanted) before := by
  induction wanted with
  | nil => rfl
  | cons what rest ih =>
      refine ⟨rfl, trivial, ?_⟩
      intro reply after effected _
      cases reply with
      | error source =>
          cases effected
          rfl
      | ok done =>
          have same : before.create what = some after := effected
          rw [create_same (present what List.mem_cons_self)] at same
          cases same
          exact ih fun other member => present other (List.mem_cons_of_mem _ member)

/-- An open of a database that is up to date writes nothing. -/
theorem openDb_same (path : Str) (current : UpToDate before) :
    Ensures effect (idleDuty before) (fun after _ => after = before) (openDb path) before := by
  obtain ⟨version, held, number⟩ := Option.bind_eq_some_iff.mp current.version
  refine ⟨rfl, trivial, ?_⟩
  intro connected middle effected _
  cases effected
  cases connected with
  | error source => rfl
  | ok done =>
      apply ensures_bind
      apply ensures_mono _ (createAll_same SCHEMA current.relations)
      rintro created result rfl
      cases result with
      | error err => rfl
      | ok done =>
          refine ⟨rfl, trivial, ?_⟩
          intro reply middle effected _
          cases reply with
          | none =>
              cases effected
              refine ⟨rfl, trivial, ?_⟩
              intro inserted after effected _
              cases inserted with
              | error source =>
                  cases effected
                  rfl
              | ok done =>
                  simp only [effect] at effected
                  split at effected
                  · next absent =>
                    rw [Database.version, absent] at held
                    cases held
                  · cases effected
          | some read =>
              simp only [effect] at effected
              split at effected
              · next there =>
                cases effected
                have same : read = version := by
                  rw [Database.version, there] at held
                  exact Option.some.inj held
                dsimp only
                rw [same, number]
                rfl
              · cases effected

end Opening

/-! ### An open whose statements succeed -/

/-- The statement succeeds; the version is read as it is. -/
def Succeeds (db : Database) : (op : Op) → Reply op → Prop
  | .connect _, reply => reply = .ok ()
  | .create _, reply => reply = .ok ()
  | .columnNames, reply => ∃ names, reply = .ok names
  | .addColumn _ _, reply => reply = .ok ()
  | .queriesSql, reply => ∃ verdicts, reply = .ok verdicts
  | .rebuildQueries, reply => reply = .ok ()
  | .readVersion, reply => reply = db.version
  | .replaceVersion _, reply => reply = .ok ()
  | .insertVersion _, reply => reply = .ok ()

/-- The part can run to its end. -/
def Finishes (before : Database) (part : Session) (after : Database) : Prop :=
  Returns effect Succeeds before part after (.ok ())

section Succeeding

variable {before middle after : Database}

theorem finishes_andThen {first next : Session} (begins : Finishes before first middle)
    (ends : Finishes middle next after) : Finishes before (andThen first next) after :=
  returns_bind begins ends

theorem createAll_finished {wanted : List Relation}
    (finished : Finishes before (createAll wanted) after) :
    Steady before after ∧ ∀ what ∈ wanted, after.has what := by
  induction wanted generalizing before with
  | nil =>
      cases finished
      exact ⟨Steady.refl _, fun _ member => nomatch member⟩
  | cons what rest ih =>
      cases finished with
      | perform reply effected admitted later =>
          cases admitted
          have created : before.create what = some _ := effected
          have steady := create_steady created
          obtain ⟨further, holds⟩ := ih later
          refine ⟨steady.trans further, ?_⟩
          intro other member
          rcases List.mem_cons.mp member with rfl | among
          · exact further.relations other (create_has created)
          · exact holds other among

theorem finishes_createSchema (before : Database) :
    ∃ after, Finishes before createSchema after :=
  ⟨_, .perform (.ok ()) rfl rfl (.perform (.ok ()) rfl rfl (.perform (.ok ()) rfl rfl
    (.perform (.ok ()) rfl rfl (.perform (.ok ()) rfl rfl (.perform (.ok ()) rfl rfl
      (.perform (.ok ()) rfl rfl (.done _ _)))))))⟩

theorem finishes_addMissing {name : String} {value : Value} (table : before.daemonStats.isSome) :
    ∃ after, Finishes before (addMissing name value) after ∧ Steady before after := by
  obtain ⟨stats, held⟩ := Option.isSome_iff_exists.mp table
  have read : effect before .columnNames (.ok stats.columns) = some before := by
    simp only [effect, held, Option.map_some, if_true]
  by_cases known : name ∈ stats.columns
  · refine ⟨before, .perform (.ok stats.columns) read ⟨_, rfl⟩ ?_, Steady.refl _⟩
    simp only [sql, if_pos known]
    exact .done _ _
  · have wider : ∃ wider, stats.addColumn name value = some wider := by
      rw [StatsTable.addColumn, if_neg known]
      exact ⟨_, rfl⟩
    obtain ⟨wider, widened⟩ := wider
    have added : effect before (.addColumn name value) (.ok ()) =
        some { before with daemonStats := some wider } := by
      simp only [effect, held, widened, Option.bind_eq_bind, Option.bind_some, Option.pure_def]
    refine ⟨_, .perform (.ok stats.columns) read ⟨_, rfl⟩ ?_, (addColumn_steady added).1⟩
    simp only [sql, if_neg known]
    exact .perform (.ok ()) added rfl (.done _ _)

theorem finishes_rebuildMissing (table : before.queries.isSome)
    (known : ∀ numbered ∈ before.queryRows, numbered.2.verdict ∈ VERDICTS) :
    ∃ after, Finishes before rebuildMissing after ∧ Steady before after := by
  obtain ⟨queries, held⟩ := Option.isSome_iff_exists.mp table
  have read : effect before .queriesSql (.ok queries.verdicts) = some before := by
    simp only [effect, held, Option.map_some, if_true]
  by_cases wide : "rewritten" ∈ queries.verdicts
  · refine ⟨before, .perform (.ok queries.verdicts) read ⟨_, rfl⟩ ?_, Steady.refl _⟩
    simp only [sql, if_pos wide]
    exact .done _ _
  · have checked : ∀ numbered ∈ queries.rows, numbered.2.verdict ∈ VERDICTS := by
      simpa only [Database.queryRows, held, Option.map_some, Option.getD_some] using known
    have other : ∃ other, queries.rebuild = some other := by
      rw [QueriesTable.rebuild, dif_pos checked]
      exact ⟨_, rfl⟩
    obtain ⟨other, built⟩ := other
    have rebuilt : effect before .rebuildQueries (.ok ()) =
        some { before with queries := some other } := by
      simp only [effect, held, built, Option.bind_eq_bind, Option.bind_some, Option.pure_def]
    refine ⟨_, .perform (.ok queries.verdicts) read ⟨_, rfl⟩ ?_, (rebuild_steady rebuilt).1⟩
    simp only [sql, if_neg wide]
    exact .perform (.ok ()) rebuilt rfl (.done _ _)

theorem finishes_unlessFrom {version number : Nat} {part : Session}
    (finishes : ∃ after, Finishes before part after ∧ Steady before after) :
    ∃ after, Finishes before (unlessFrom version number part) after ∧ Steady before after := by
  simp only [unlessFrom]
  split
  · exact finishes
  · exact ⟨before, .done _ _, Steady.refl _⟩

theorem finishes_migrateSchema (number : Nat) (relations : ∀ what ∈ SCHEMA, before.has what)
    (known : ∀ numbered ∈ before.queryRows, numbered.2.verdict ∈ VERDICTS) :
    ∃ after, Finishes before (migrateSchema number) after ∧ Steady before after := by
  obtain ⟨recent, first, steady⟩ := @finishes_unlessFrom before 2 number _
    (@finishes_addMissing before "log_events_dropped_recent" (.Integer 0)
      (relations .daemonStats (by decide)))
  obtain ⟨rewritten, second, later⟩ := @finishes_unlessFrom recent 3 number _
    (finishes_rebuildMissing (steady.relations .queries (relations .queries (by decide)))
      (by rwa [steady.queries]))
  have every := steady.trans later
  obtain ⟨runtime, third, last⟩ := @finishes_unlessFrom rewritten 4 number _
    (@finishes_addMissing rewritten "runtime_json" (.Text "{}".toList)
      (every.relations .daemonStats (relations .daemonStats (by decide))))
  exact ⟨runtime, finishes_andThen first (finishes_andThen second third), every.trans last⟩

theorem finishes_ensureSchemaVersion (relations : ∀ what ∈ SCHEMA, before.has what)
    (known : ∀ numbered ∈ before.queryRows, numbered.2.verdict ∈ VERDICTS)
    (supported : ∀ number, before.version.bind parseU32 = some number →
      number ≤ SCHEMA_VERSION) : ∃ after, Finishes before ensureSchemaVersion after := by
  obtain ⟨version, held⟩ := Option.isSome_iff_exists.mp (relations .meta_ (by decide))
  cases version with
  | none =>
      have here : before.version = none := by
        rw [Database.version, held, Option.getD_some]
      have inserted : effect before (.insertVersion (toString SCHEMA_VERSION).toList) (.ok ()) =
          some { before with meta_ := some (some (toString SCHEMA_VERSION).toList) } := by
        simp only [effect, held, if_true]
      exact ⟨_, .perform none rfl here.symm (.perform (.ok ()) inserted rfl (.done _ _))⟩
  | some version =>
      have read : effect before .readVersion (some version) = some before := by
        simp only [effect, held, if_true]
      have here : before.version = some version := by
        rw [Database.version, held, Option.getD_some]
      have notNewer : ¬ SCHEMA_VERSION < (parseU32 version).getD 0 := by
        cases parsed : parseU32 version with
        | none => exact Nat.not_lt_zero _
        | some number =>
            apply Nat.not_lt_of_le
            apply supported number
            rw [here, Option.bind_some]
            exact parsed
      by_cases older : (parseU32 version).getD 0 < SCHEMA_VERSION
      · obtain ⟨migrated, finishes, steady⟩ :=
          finishes_migrateSchema ((parseU32 version).getD 0) relations known
        have there : migrated.meta_.isSome = true :=
          steady.relations .meta_ (relations .meta_ (by decide))
        have replaced : effect migrated (.replaceVersion (toString SCHEMA_VERSION).toList)
            (.ok ()) =
            some { migrated with meta_ := some (some (toString SCHEMA_VERSION).toList) } := by
          simp only [effect, there, if_true]
        refine ⟨{ migrated with meta_ := some (some (toString SCHEMA_VERSION).toList) },
          .perform (some version) read here.symm ?_⟩
        dsimp only
        rw [if_neg notNewer, if_pos older]
        exact finishes_andThen finishes (.perform (.ok ()) replaced rfl (.done _ _))
      · refine ⟨before, .perform (some version) read here.symm ?_⟩
        dsimp only
        rw [if_neg notNewer, if_neg older]
        exact .done _ _

end Succeeding

/-- An open of a database that is not newer, whose rows have verdicts of today, succeeds if
its statements do. -/
theorem openDb_succeeds (path : Str) (before : Database)
    (known : ∀ numbered ∈ before.queryRows, numbered.2.verdict ∈ VERDICTS)
    (supported : ∀ number, before.version.bind parseU32 = some number →
      number ≤ SCHEMA_VERSION) : ∃ after, Finishes before (openDb path) after := by
  obtain ⟨created, first⟩ := finishes_createSchema before
  obtain ⟨steady, relations⟩ := createAll_finished first
  obtain ⟨after, second⟩ := finishes_ensureSchemaVersion relations (by rwa [steady.queries])
    (by rwa [steady.version])
  exact ⟨after, .perform (.ok ()) rfl rfl (finishes_andThen first second)⟩

/-! ### Every run of opens -/

/-- A version 2 log with one row, and statistics of that version. -/
def sampleV2 : Database where
  meta_ := some (some "2".toList)
  queries := some {
    verdicts := ["allowed", "blocked", "excepted"]
    rows := [(1, {
      ts := 1700000000, client := "192.168.0.116".toList, qname := "ads.test".toList, qtype := 1
      verdict := "blocked", rule := some "||ads.test^".toList, list := some 3
      source := "synth", rcode := 3, durationUs := 40 })]
    indexed := true
    checked := by decide }
  heartbeat := some none
  daemonStats := some {
    columns := ["id", "updated_ts", "log_events_dropped", "upstreams_json",
      "log_events_dropped_recent"]
    row := some [.Integer 1, .Integer 1700000000, .Integer 7, .Text "{}".toList, .Integer 0]
    full := by simp }
  divergences := some { rows := [], indexed := true }

/-- Every statement succeeds; the version is 2. -/
def succeeding : ∀ op, Reply op
  | .connect _ => .ok ()
  | .create _ => .ok ()
  | .columnNames =>
      .ok ["id", "updated_ts", "log_events_dropped", "upstreams_json", "log_events_dropped_recent"]
  | .addColumn _ _ => .ok ()
  | .queriesSql => .ok ["allowed", "blocked", "excepted"]
  | .rebuildQueries => .ok ()
  | .readVersion => some "2".toList
  | .replaceVersion _ => .ok ()
  | .insertVersion _ => .ok ()

/-- Killed after the rebuild, before the column of version 4 is added. -/
def killedOpen : List (Happening Str Reply) :=
  .start "sumidero.sqlite".toList :: List.replicate 11 (.reply succeeding) ++ [.crash]

end Sumidero.Db
