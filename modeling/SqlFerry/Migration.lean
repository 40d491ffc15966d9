import SqlFerry.Convert.Script
import SqlFerry.Failure.Report
import SqlFerry.Restore.Options
import SqlFerry.Progress
import SqlFerry.Transfer
import SqlFerry.Value.Whole

/-!
# Migrations

The schema and the rows of one database are copied into another, whose dialect may differ. All that
is written is written in one transaction; then the rows of both sides are counted.
-/

namespace SqlFerry

open Value

structure MigrationOptions where
  /-- The tables to copy, if not all. -/
  tables : Option (List String) := none
  excludeTables : List String := []
  includeData : Bool := true
  /-- Whether tables of the target are dropped before. -/
  dropExisting : Bool := false
  /-- How many rows come into one statement. -/
  batchSize : Nat := 500
  /-- Whether a feature that the target lacks is a failure. -/
  strict : Bool := false
  verify : Bool := true
  deriving Repr

namespace MigrationOptions

private def fieldNames : List String :=
  ["tables", "exclude_tables", "include_data", "drop_existing", "batch_size", "strict",
   "verify_row_counts", "progress_callback"]

def ofValue (v : Value) : Checked MigrationOptions :=
  let read := MigrationOptions.mk <$> v.optional "tables" (readList readText) <*>
    v.withDefault "exclude_tables" [] (readList readText) <*>
    v.withDefault "include_data" true readBool <*>
    v.withDefault "drop_existing" false readBool <*>
    v.withDefault "batch_size" 500 (readAtLeast 1) <*> v.withDefault "strict" false readBool <*>
    v.withDefault "verify_row_counts" true readBool
  v.onlyFields fieldNames (v.withoutCallback read)

end MigrationOptions

namespace Migration

structure TableCount where
  table : String
  source : Int
  target : Int
  deriving DecidableEq, Repr

namespace TableCount

def agrees (c : TableCount) : Bool :=
  c.source == c.target

def toValue (c : TableCount) : Value :=
  .record [("table", c.table), ("source_rows", .int c.source), ("target_rows", .int c.target)]

end TableCount

structure Result where
  success : Bool := false
  source : Dialect
  target : Dialect
  tables : List String := []
  rows : Nat := 0
  counts : List TableCount := []
  warnings : List String := []
  failure : Option Failure := none
  deriving Repr

namespace Result

variable (r : Result)

def mismatches : List TableCount :=
  r.counts.filter (!·.agrees)

def verified : Bool :=
  r.success && r.mismatches.isEmpty

def toValue : Value :=
  .record [("success", r.success), ("source_dialect", r.source.name),
    ("target_dialect", r.target.name), ("tables", .texts r.tables), ("rows_copied", .int r.rows),
    ("counts", .list (r.counts.map TableCount.toValue)), ("warnings", .texts r.warnings),
    ("error", .ofOption (·.report.toValue) r.failure)]

end Result

structure Job where
  source : Database
  target : Database
  options : MigrationOptions

structure Run where
  sourceLog : Log := []
  targetLog : Log := []
  reports : List Progress := []
  result : Result

abbrev Migrating := Work Job Run

variable {α : Type}

def onSource (t : Talk α) : Migrating α :=
  Work.within Job.source Run.sourceLog (fun log run => { run with sourceLog := log }) t

def onTarget (t : Talk α) : Migrating α :=
  Work.within Job.target Run.targetLog (fun log run => { run with targetLog := log }) t

def note (f : Result → Result) : Migrating Unit :=
  modify fun run => { run with result := f run.result }

def write (statements : List String) : Migrating Unit :=
  statements.forM fun sql => onTarget (Talk.send (.exec sql))

/-! ## Copying -/

def copyGroup (into : Table) (group : List Row) : Migrating Unit := do
  let job ← read
  let sql ←
    Work.ofOutcome (job.target.dialect.renderInsert into.name into.columnNames group)
  write [sql]

def copyRows (t into : Table) : Migrating Nat := do
  let job ← read
  let groups ←
    onSource (Talk.stream job.options.batchSize (job.source.dialect.rowsQuery t))
  groups.forM (copyGroup into)
  return groups.flatten.length

/-- Copies the rows of the tables that come after the first `done` of all `total`; `rows` were
copied before. -/
def copyTables (target : Schema) (total : Nat) : (done rows : Nat) → List Table → Migrating Nat
  | _, rows, [] => return rows
  | done, rows, t :: rest => do
    let more ← match target.table? t.name with
      | some into => copyRows t into
      | none => pure 0
    let rows := rows + more
    let done := done + 1
    modify fun run => { run with reports := run.reports ++
      [.copying (Progress.share done total) t.name done rows] }
    copyTables target total done rows rest

def fill (target : Schema) (order : List Table) : Migrating Nat := do
  let job ← read
  let d := job.target.dialect
  write d.preamble
  -- SQLite cannot add a foreign key to a table that is there.
  let parts : Ddl.Parts :=
    { drops := job.options.dropExisting, indexes := false, foreignKeys := d == .sqlite }
  write (← Work.ofOutcome (Ddl.write d target parts))
  let rows ←
    if job.options.includeData then
      Work.connected (onSource ∘ Talk.send) (copyTables target order.length 0 0 order)
    else pure 0
  let created := target.createOrder
  write (Ddl.indexStatements d created)
  if d != .sqlite then write (Ddl.foreignKeyStatements d created)
  if job.options.includeData && d == .postgresql then write (Convert.sequenceResets d target)
  write d.epilogue
  return rows

/-! ## Counting -/

def countRows (d : Dialect) (tables : List Table) : Talk (List Int) :=
  Talk.connected <| tables.mapM fun t => do
    let rows ← Talk.query ("SELECT COUNT(*) FROM " ++ d.quote t.name)
    Value.wholeOrZero (Talk.scalar? rows)

def countBoth (tables : List Table) : Migrating (List TableCount) := do
  let job ← read
  let source ← onSource (countRows job.source.dialect tables)
  let target ← onTarget (countRows job.target.dialect tables)
  return (tables.zip (source.zip target)).map fun (t, a, b) => ⟨t.name, a, b⟩

/-! ## The whole migration -/

def steps : Migrating Unit := do
  let job ← read
  let o := job.options
  let source := job.source.dialect
  let s := (← onSource (Introspection.schema source o.tables)).without o.excludeTables
  let (target, warnings) ← Work.ofOutcome
    (Convert.schema s job.target.dialect (some source) o.strict)
  let order := s.createOrder
  note fun r => { r with warnings := warnings.map (·.display), tables := order.map (·.name) }
  let rows ← Work.transacted (onTarget ∘ Talk.send) (fill target order)
  note fun r => { r with rows }
  if o.verify && o.includeData then
    let counts ← countBoth order
    note fun r => { r with counts }

private def mismatchWarning (c : TableCount) : Except Fault String := do
  return s!"Row count mismatch for {c.table} (source: {← Value.wholeText c.source}, " ++
    s!"target: {← Value.wholeText c.target})"

/-- Migrates one database into the other. A failure is a result as well. -/
def migrate : Migrating Result := do
  let target := (← read).target.dialect
  match ← steps.outcome with
  | .ok _ =>
    let r := (← get).result
    let mismatches ← Work.ofOutcome (r.mismatches.mapM mismatchWarning)
    return { r with success := true, warnings := r.warnings ++ mismatches }
  | .error e =>
    let failure ← Work.ofOutcome <| e.asFailure fun text =>
      .restoreFailed none s!"migration to {target.label} failed: {text}"
        [("dialect", target.name)]
    return { (← get).result with failure := some failure }

/-- What comes of a job, and all that was asked and reported on the way. -/
def Job.perform (job : Job) : Except Fault Result × Run :=
  migrate.result job
    { result := { source := job.source.dialect, target := job.target.dialect } }

end Migration

end SqlFerry
