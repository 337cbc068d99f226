import Mathlib.Data.Finset.Insert
import Mathlib.Data.List.Sort
import Remediation.Lib.Prog
import Remediation.Spec.Connection

/-!
# The migration

`init_db` with `_backfill_missing_work_keys` and `_rebuild_sessions_table`
(`app/db/connection.py`), statement by statement. The connection is in autocommit
mode, so that each statement is there for good as soon as it has run.

A table carries what its schema demands of its rows as a field: every statement that
changes rows or schema has the demands checked, as SQLite does.
-/

namespace Remediation

namespace Migration

open Interaction Regex

/-! ## Tables of earlier schemas -/

/-- The exceptions that end a start-up, of `sqlite3` but for the last. -/
inductive Error
  | operationalError
  | integrityError
  | valueError
  deriving DecidableEq

/-- A row whose `work_key` may be NULL. -/
structure LegacyRow where
  workKey : Option String
  row : SessionRow
  agree : row.workKey = workKey.getD ""

def LegacyRow.setWorkKey (k : String) (r : LegacyRow) : LegacyRow :=
  ⟨some k, r.row.setWorkKey k, rfl⟩

/-- A row as `_rebuild_sessions_table` copies it: the column list of its INSERT does not
have `structured_output_json`. -/
def LegacyRow.copied (r : LegacyRow) : LegacyRow :=
  { r with row := { r.row with structuredOutputJson := none } }

/-- Whether `work_key` is there, and if so, whether it is declared NOT NULL. -/
inductive KeyColumn
  | absent | nullable | notNull
  deriving DecidableEq

/-- The indexes that do not constrain anything: on `status`, `trigger_ref`,
`parent_devin_session_id`, `started_at` and `devin_session_id`. -/
inductive SessionsIndex
  | status | triggerRef | parent | started | devinId
  deriving DecidableEq

/-- What differs between the schemas that `sessions` has had. -/
structure Schema where
  workKeyColumn : KeyColumn
  /-- `devin_session_id` is declared NOT NULL. -/
  idsNotNull : Bool
  structuredOutputColumn : Bool
  indexes : Finset SessionsIndex
  /-- There is the index `uq_sessions_work_key`. -/
  uniqueWorkKey : Bool
  deriving DecidableEq

/-- What a schema demands of the rows. They are listed in the order of their ids, in which
SQLite keeps them. -/
structure Schema.Admits (s : Schema) (rows : List LegacyRow) : Prop where
  ascending : rows.Pairwise fun r r' => r.row.id < r'.row.id
  absent : s.workKeyColumn = .absent → ∀ r ∈ rows, r.workKey = none
  notNull : s.workKeyColumn = .notNull → ∀ r ∈ rows, r.workKey ≠ none
  ids : s.idsNotNull = true → ∀ r ∈ rows, r.row.devinSessionId ≠ none
  structured : s.structuredOutputColumn = false → ∀ r ∈ rows, r.row.structuredOutputJson = none
  /-- In a unique index, NULL is different from NULL. -/
  unique : s.uniqueWorkKey = true → (rows.filterMap (·.workKey)).Nodup

instance (s : Schema) (rows : List LegacyRow) : Decidable (s.Admits rows) :=
  decidable_of_iff
    ((rows.Pairwise fun r r' => r.row.id < r'.row.id) ∧
      (s.workKeyColumn = .absent → ∀ r ∈ rows, r.workKey = none) ∧
      (s.workKeyColumn = .notNull → ∀ r ∈ rows, r.workKey ≠ none) ∧
      (s.idsNotNull = true → ∀ r ∈ rows, r.row.devinSessionId ≠ none) ∧
      (s.structuredOutputColumn = false → ∀ r ∈ rows, r.row.structuredOutputJson = none) ∧
      (s.uniqueWorkKey = true → (rows.filterMap (·.workKey)).Nodup))
    ⟨fun ⟨h₁, h₂, h₃, h₄, h₅, h₆⟩ => ⟨h₁, h₂, h₃, h₄, h₅, h₆⟩,
      fun ⟨h₁, h₂, h₃, h₄, h₅, h₆⟩ => ⟨h₁, h₂, h₃, h₄, h₅, h₆⟩⟩

theorem Schema.admits_nil (s : Schema) : s.Admits [] where
  ascending := List.Pairwise.nil
  absent := by simp
  notNull := by simp
  ids := by simp
  structured := by simp
  unique := by simp

structure SessionsTable where
  schema : Schema
  rows : List LegacyRow
  admits : schema.Admits rows

namespace SessionsTable

/-- What becomes of `sessions`, unless a constraint fails. -/
def check (schema : Schema) (rows : List LegacyRow) : Except Error SessionsTable :=
  if h : schema.Admits rows then .ok ⟨schema, rows, h⟩ else .error .integrityError

/-! ## Statements on one table -/

/-- `CREATE INDEX IF NOT EXISTS idx_sessions_… ON sessions(…)` -/
def createIndex (i : SessionsIndex) (t : SessionsTable) : SessionsTable where
  schema := { t.schema with indexes := insert i t.schema.indexes }
  rows := t.rows
  admits := { t.admits with }

/-- `ALTER TABLE sessions ADD COLUMN work_key TEXT` -/
def addWorkKey (t : SessionsTable) : Except Error SessionsTable :=
  if t.schema.workKeyColumn = .absent then
    .ok
      { schema := { t.schema with workKeyColumn := .nullable }
        rows := t.rows
        admits := { t.admits with absent := nofun, notNull := nofun } }
  else .error .operationalError

/-- `UPDATE sessions SET work_key = ? WHERE id = ?` -/
def updateWorkKey (id : ℕ) (k : String) (t : SessionsTable) : Except Error SessionsTable :=
  if t.schema.workKeyColumn = .absent then .error .operationalError
  else check t.schema (t.rows.map fun r => if r.row.id = id then r.setWorkKey k else r)

/-- `INSERT INTO sessions_new (…) SELECT … FROM sessions`, for a table `new`. -/
def insertCopies (t new : SessionsTable) : Except Error SessionsTable :=
  if t.schema.workKeyColumn = .absent ∨ new.schema.workKeyColumn = .absent then
    .error .operationalError
  else
    check new.schema
      ((new.rows ++ t.rows.map LegacyRow.copied).insertionSort fun r r' => r.row.id ≤ r'.row.id)

/-- `CREATE UNIQUE INDEX IF NOT EXISTS uq_sessions_work_key ON sessions(work_key)` -/
def createUniqueIndex (t : SessionsTable) : Except Error SessionsTable :=
  if t.schema.workKeyColumn = .absent then .error .operationalError
  else check { t.schema with uniqueWorkKey := true } t.rows

/-- `ALTER TABLE sessions ADD COLUMN structured_output_json TEXT` -/
def addStructuredOutput (t : SessionsTable) : Except Error SessionsTable :=
  if t.schema.structuredOutputColumn = false then
    .ok
      { schema := { t.schema with structuredOutputColumn := true }
        rows := t.rows
        admits := { t.admits with structured := nofun } }
  else .error .operationalError

/-- `WHERE work_key IS NULL OR work_key = '' ORDER BY id ASC` -/
def missing (t : SessionsTable) : List SessionRow :=
  (t.rows.map (·.row)).filter fun r => r.workKey = ""

/-- `WHERE work_key IS NOT NULL AND work_key != ''` -/
def workKeys (t : SessionsTable) : List String :=
  (t.rows.map (·.row.workKey)).filter fun k => k ≠ ""

end SessionsTable

/-- The table `init_db` creates where there is none. -/
def freshSessions : SessionsTable where
  schema :=
    { workKeyColumn := .notNull, idsNotNull := false, structuredOutputColumn := true
      indexes := ∅, uniqueWorkKey := false }
  rows := []
  admits := Schema.admits_nil _

/-- The table `_rebuild_sessions_table` creates. -/
def freshSessionsNew : SessionsTable where
  schema :=
    { workKeyColumn := .notNull, idsNotNull := false, structuredOutputColumn := false
      indexes := ∅, uniqueWorkKey := false }
  rows := []
  admits := Schema.admits_nil _

/-! ## Statements on the database -/

structure Db where
  webhookEvents : Bool
  sessions : Option SessionsTable
  sessionsNew : Option SessionsTable

inductive Stmt
  | createWebhookEvents
  | createSessions
  | createIndex (i : SessionsIndex)
  | addWorkKey
  | updateWorkKey (id : ℕ) (k : String)
  | createSessionsNew
  | copySessions
  | dropSessions
  | renameSessionsNew
  | createUniqueIndex
  | addStructuredOutput

/-- The columns the migration asks for. -/
inductive Column
  | workKey | devinSessionId | structuredOutputJson

inductive Op
  | execute (s : Stmt)
  | columnExists (c : Column)
  | columnIsNotNull (c : Column)
  | selectMissing
  | selectWorkKeys

abbrev Ans : Op → Type
  | .execute _ => Except Error Unit
  | .columnExists _ => Bool
  | .columnIsNotNull _ => Bool
  | .selectMissing => Except Error (List SessionRow)
  | .selectWorkKeys => Except Error (List String)

/-- A statement on `sessions`. -/
def Db.onSessions (d : Db) (f : SessionsTable → Except Error SessionsTable) :
    Except Error Unit × Db :=
  match d.sessions with
  | none => (.error .operationalError, d)
  | some t =>
    match f t with
    | .ok t' => (.ok (), { d with sessions := some t' })
    -- a statement that fails changes nothing
    | .error e => (.error e, d)

def Stmt.exec (d : Db) : Stmt → Except Error Unit × Db
  | createWebhookEvents => (.ok (), { d with webhookEvents := true })
  | createSessions => (.ok (), { d with sessions := some (d.sessions.getD freshSessions) })
  | createIndex i => d.onSessions fun t => .ok (t.createIndex i)
  | addWorkKey => d.onSessions SessionsTable.addWorkKey
  | updateWorkKey id k => d.onSessions (SessionsTable.updateWorkKey id k)
  | createSessionsNew =>
    match d.sessionsNew with
    | none => (.ok (), { d with sessionsNew := some freshSessionsNew })
    -- without IF NOT EXISTS
    | some _ => (.error .operationalError, d)
  | copySessions =>
    match d.sessions, d.sessionsNew with
    | some t, some new =>
      match t.insertCopies new with
      | .ok new' => (.ok (), { d with sessionsNew := some new' })
      | .error e => (.error e, d)
    | _, _ => (.error .operationalError, d)
  | dropSessions =>
    match d.sessions with
    | some _ => (.ok (), { d with sessions := none })
    | none => (.error .operationalError, d)
  | renameSessionsNew =>
    match d.sessions, d.sessionsNew with
    | none, some new => (.ok (), { d with sessions := some new, sessionsNew := none })
    | _, _ => (.error .operationalError, d)
  | createUniqueIndex => d.onSessions SessionsTable.createUniqueIndex
  | addStructuredOutput => d.onSessions SessionsTable.addStructuredOutput

def SessionsTable.columnExists (t : SessionsTable) : Column → Bool
  | .workKey => t.schema.workKeyColumn ≠ .absent
  | .devinSessionId => true
  | .structuredOutputJson => t.schema.structuredOutputColumn

def SessionsTable.columnIsNotNull (t : SessionsTable) : Column → Bool
  | .workKey => t.schema.workKeyColumn = .notNull
  | .devinSessionId => t.schema.idsNotNull
  | .structuredOutputJson => false

/-- A query for rows of `sessions` by their keys. -/
def Db.select {α : Type} (d : Db) (f : SessionsTable → List α) : Except Error (List α) :=
  match d.sessions with
  | none => .error .operationalError
  | some t => if t.schema.workKeyColumn = .absent then .error .operationalError else .ok (f t)

def exec : (op : Op) → Db → Ans op × Db
  | .execute s, d => s.exec d
  -- `PRAGMA table_info` has no rows for a table that is not there
  | .columnExists c, d => (d.sessions.any (·.columnExists c), d)
  | .columnIsNotNull c, d => (d.sessions.any (·.columnIsNotNull c), d)
  | .selectMissing, d => (d.select SessionsTable.missing, d)
  | .selectWorkKeys, d => (d.select SessionsTable.workKeys, d)

/-! ## The programs -/

/-- A program that talks to the database, and may raise. -/
abbrev M : Type → Type := ExceptT Error (Prog Op Ans)

def execute (s : Stmt) : M Unit := .mk (.call (.execute s) .ret)

/-- `_column_exists(c, "sessions", column)` -/
def columnExists (c : Column) : M Bool := .mk (.call (.columnExists c) fun b => .ret (.ok b))

/-- `_column_is_not_null(c, "sessions", column)` -/
def columnIsNotNull (c : Column) : M Bool := .mk (.call (.columnIsNotNull c) fun b => .ret (.ok b))

def selectMissing : M (List SessionRow) := .mk (.call .selectMissing .ret)

def selectWorkKeys : M (List String) := .mk (.call .selectWorkKeys .ret)

/-- The default of `sys.set_int_max_str_digits`. -/
def intMaxStrDigits : ℕ := 4300

/-- `int(m.group(2))` raises a ValueError, if it comes to that. -/
def numberTooLong (r : SessionRow) : Bool :=
  match search issueUrlPattern r.triggerRef.toList with
  | some [_, number] => r.issueNumber.isNone && intMaxStrDigits < number.length
  | _ => false

/-- The loop of `_backfill_missing_work_keys`. -/
def assignWorkKeys : (existing : List String) → List SessionRow → M Unit
  | _, [] => pure ()
  | existing, r :: rs => do
    if numberTooLong r then throw .valueError
    else
      execute (.updateWorkKey r.id (backfilledKey existing r))
      assignWorkKeys (backfilledKey existing r :: existing) rs

def backfillMissingWorkKeys : M Unit := do
  let rows ← selectMissing
  if rows.isEmpty then pure ()
  else
    let existing ← selectWorkKeys
    assignWorkKeys existing rows

def rebuildSessionsTable : M Unit := do
  execute .createSessionsNew
  execute .copySessions
  execute .dropSessions
  execute .renameSessionsNew

/-- The fresh-install schema. -/
def schemaScript : M Unit := do
  execute .createWebhookEvents
  execute .createSessions
  execute (.createIndex .status)
  execute (.createIndex .triggerRef)
  execute (.createIndex .parent)
  execute (.createIndex .started)
  execute (.createIndex .devinId)

/-- M1 -/
def addWorkKeyColumn : M Unit := do
  if ← columnExists .workKey then pure () else execute .addWorkKey

/-- M2 -/
def relaxNotNull : M Unit := do
  if ← columnIsNotNull .devinSessionId then rebuildSessionsTable else pure ()

/-- M4 -/
def addStructuredOutputColumn : M Unit := do
  if ← columnExists .structuredOutputJson then pure () else execute .addStructuredOutput

def initDb : M Unit := do
  schemaScript
  addWorkKeyColumn
  backfillMissingWorkKeys
  relaxNotNull
  execute .createUniqueIndex
  addStructuredOutputColumn

end Migration

end Remediation
