import SqlFerry.Act
import SqlFerry.Backup.Options
import SqlFerry.Backup.Result
import SqlFerry.Bytes.Gzip
import SqlFerry.Ddl.Printer
import SqlFerry.Restore.Header
import SqlFerry.Sql.Literal
import SqlFerry.Transfer
import SqlFerry.Value.Whole

/-!
# Backups as scripts

The script of a backup is made from the schema and the rows of a live database: tables, then rows,
then indexes and foreign keys, then the positions of sequences. A script is a list of statements
with notes between them.
-/

namespace SqlFerry.Backup

open Text

def version : String :=
  "0.1.0"

inductive Piece where
  | note (text : String)
  | statement (sql : String)
  deriving DecidableEq, Repr

namespace Piece

def text : Piece → String
  | note text => text
  | statement sql => sql ++ ";\n"

def sql? : Piece → Option String
  | note _ => none
  | statement sql => some sql

end Piece

structure Script where
  pieces : List Piece := []
  rows : Nat := 0
  deriving Repr

namespace Script

def text (s : Script) : String :=
  String.join (s.pieces.map Piece.text)

def statements (s : Script) : List String :=
  s.pieces.filterMap Piece.sql?

def append (a b : Script) : Script :=
  { pieces := a.pieces ++ b.pieces, rows := a.rows + b.rows }

instance : Append Script := ⟨append⟩

def part (note : String) (statements : List String) : Script :=
  { pieces := .note note :: statements.map .statement }

def ofStatements (statements : List String) : Script :=
  { pieces := statements.map .statement }

@[simp]
theorem statements_append (a b : Script) : (a ++ b).statements = a.statements ++ b.statements := by
  change (Script.append a b).statements = _
  simp only [Script.append, statements, List.filterMap_append]

@[simp]
theorem statements_ofStatements (xs : List String) : (ofStatements xs).statements = xs := by
  simp [ofStatements, statements, Piece.sql?, List.filterMap_map, Function.comp_def]

end Script

/-! ## Schema and rows -/

def schemaScript (d : Dialect) (order : List Table) (drops : Bool) : Except Fault Script := do
  let tables ← order.mapM (Ddl.createTable d · (d == .sqlite))
  let dropped := if drops then order.reverse.map fun t => Ddl.dropTable d t.name else []
  return .part "\n-- Schema\n" (dropped ++ tables)

def insertions (d : Dialect) (t : Table) (groups : List (List Row)) :
    Except Fault (List String) :=
  groups.mapM (d.renderInsert t.name t.columnNames)

/-- The rows of the tables that come after the first `done` of all `total`; `rows` were written
before. -/
def rowsScript (db : Database) (d : Dialect) (batchSize total : Nat) :
    (done rows : Nat) → List Table → Act Script
  | _, _, [] => return {}
  | done, rows, t :: rest => do
    let groups ← Act.on db (Talk.stream batchSize (d.rowsQuery t))
    let inserts ← Work.ofOutcome (insertions d t groups)
    let found := groups.flatten.length
    let rows := rows + found
    let done := done + 1
    Act.report (.exporting (Progress.share done total) t.name done rows)
    let own : Script := .part s!"\n-- Data for {t.name}\n" inserts
    return { own with rows := found } ++ (← rowsScript db d batchSize total done rows rest)

def constraintsScript (d : Dialect) (order : List Table) : Script :=
  .part "\n-- Indexes and constraints\n"
    (Ddl.indexStatements d order ++ if d == .sqlite then [] else Ddl.foreignKeyStatements d order)

/-! ## Sequences -/

/-- The statement that sets a sequence of PostgreSQL to the largest value of its column. -/
def sequenceStatement (t : Table) (c : Column) : String :=
  let d := Dialect.postgresql
  let largest := "(SELECT MAX(" ++ d.quote c.name ++ ") FROM " ++ d.quote t.name ++ ")"
  "SELECT setval(pg_get_serial_sequence(" ++ d.textLiteral (d.quote t.name) ++ ", " ++
    d.textLiteral c.name ++ "), COALESCE(" ++ largest ++ ", 1), " ++ largest ++ " IS NOT NULL)"

def numbered (s : Schema) : List (Table × Column) :=
  s.tables.flatMap fun t => (t.columns.filter (·.autoIncrement)).map fun c => (t, c)

def mysqlSequence (db : Database) (t : Table) (c : Column) : Act (Option String) := do
  let d := Dialect.mysql
  let rows ← Act.on db (Talk.query
    ("SELECT MAX(" ++ d.quote c.name ++ ") FROM " ++ d.quote t.name))
  match Talk.scalar? rows with
  | none | some .null => return none
  | some v =>
    let last ← Work.ofOutcome v.whole
    let next ← Work.ofOutcome (Value.wholeText (last + 1))
    return some ("ALTER TABLE " ++ d.quote t.name ++ " AUTO_INCREMENT=" ++ next)

def isTable (s : Schema) : Value → Except Fault Bool
  | .text name => .ok (s.table? name).isSome
  | .bytes _ => .ok false
  | .list _ | .record _ => .error (.mistyped "a name is a text")
  | _ => .error (.partless "only a text has a lower case")

def sqliteSequence (s : Schema) (row : Row) : Except Fault (Option String) := do
  match row with
  | [name, position] =>
    if !(← isTable s name) then return none
    let n ← Value.wholeText (← position.whole)
    return some (s!"UPDATE sqlite_sequence SET seq = {n} WHERE name = " ++
      (← Dialect.sqlite.render name))
  | _ => throw (.refused (.other (
      if row.length < 2 then s!"not enough values to unpack (expected 2, got {row.length})"
      else "too many values to unpack (expected 2)")))

def sequences (db : Database) (d : Dialect) (s : Schema) : Act (List String) := do
  match d with
  | .postgresql => return (numbered s).map fun (t, c) => sequenceStatement t c
  | .mysql => return (← (numbered s).mapM fun (t, c) => mysqlSequence db t c).filterMap id
  | .sqlite =>
    let there ← Act.on db (Talk.query
      "SELECT name FROM sqlite_master WHERE type = 'table' AND name = 'sqlite_sequence'")
    if there.isEmpty then return []
    let rows ← Act.on db (Talk.query "SELECT name, seq FROM sqlite_sequence")
    return (← Work.ofOutcome (rows.mapM (sqliteSequence s))).filterMap id

/-! ## The whole script -/

def contentScript (db : Database) (d : Dialect) (o : BackupOptions) (s : Schema) :
    Act Script := do
  let order := s.createOrder
  let rows ←
    if o.includeData then rowsScript db d o.batchSize order.length 0 0 order else pure {}
  let constraints := if o.includeSchema then constraintsScript d order else {}
  let positions ← if o.includeData then sequences db d s else pure []
  let positions := if positions.isEmpty then {} else .part "\n-- Sequences\n" positions
  return rows ++ constraints ++ positions

/-- The script of a backup of the schema `s` and its rows, to be converted to `target` if one is
named. -/
def wholeScript (db : Database) (strategy : String) (d : Dialect) (o : BackupOptions)
    (target : Option Dialect) (s : Schema) : Act Script := do
  let header := Restore.Header.write d strategy version (← read).now target ++ "\n"
  let tables ← Work.ofOutcome
    (if o.includeSchema then schemaScript d s.createOrder o.dropExisting else .ok {})
  let content ← Work.connected (Act.on db ∘ Talk.send) (contentScript db d o s)
  return .part header d.preamble ++ tables ++ content ++ .ofStatements d.epilogue

def writeScript (db : Database) (strategy : String) (d : Dialect) (o : BackupOptions) (p : Path) :
    Act Details := do
  let target ← Work.ofOutcome o.target
  let s := (← Act.on db (Introspection.schema d o.tables)).without o.excludeTables
  Act.change (·.write p [])
  let script ← wholeScript db strategy d o target s
  let bytes := Bytes.encode script.text
  Act.change (·.write p (if o.compress then Bytes.Gzip.compress bytes else bytes))
  let facts : List (String × Value) :=
    [("dialect", d.name), ("statements", (script.statements.length : Value))]
  return {
    compressed := o.compress, format := some (d.name ++ "_sql")
    tables := s.createOrder.map (·.name), rows := script.rows
    facts := facts ++ target.toList.map fun t => ("target_dialect", (t.name : Value)) }

end SqlFerry.Backup
