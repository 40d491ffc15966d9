import SqlFerry.Database
import SqlFerry.Ddl.Column
import SqlFerry.Sql.Literal
import SqlFerry.Schema

/-!
# Schemas of databases

Reading the schema of a database from its catalogue. Tables of bookkeeping are left out, and so is a
table that vanishes while it is read.
-/

namespace SqlFerry.Introspection

open Text Catalog

def bookkeeping : List String :=
  ["schema_migrations", "pg_stat_statements", "spatial_ref_sys", "sqlite_sequence",
   "sqlite_stat1"]

def isBookkeeping (name : String) : Bool :=
  bookkeeping.contains name || startsWith "sqlite_".toList name.toList

def userTables (c : Catalog) : List Entry :=
  c.tables.filter (!isBookkeeping ·.name)

def tableNames : Talk (List String) :=
  Talk.connected do
    Talk.send .inspect
    return (userTables (← read).catalog).map (·.name)

/-! ## Columns -/

/-- A default, cut where it says what an update puts into the column. -/
private def splitDefault (text : String) : String × Option String :=
  if contains (lower text) " on update " then
    let cut (sep : String) : Option (Chars × Chars) :=
      match cut? sep.toList text.toList with
      | some (a, b) => if b.isEmpty then none else some (a, b)
      | none => none
    match cut " ON UPDATE " with
    | some (a, b) => (String.ofList a, some (String.ofList (trim b)))
    | none => match cut? " on update ".toList text.toList with
      | some (a, b) => (String.ofList a, some (String.ofList (trim b)))
      | none => (text, some "")
  else (text, none)

def readColumn (d : Dialect) (info : Catalog.Column) : Except Fault SqlFerry.Column := do
  let item := Dialect.quote .postgresql info.name ++ " " ++ info.type.getD "text"
  let c ← match ← Ddl.readColumn item.toList with
    | some (c, _) => pure c
    | none => pure { name := info.name, typeName := "text" }
  let c := { c with nullable := info.nullable }
  let c := match info.default with
    | none => c
    | some text =>
      let (text, onUpdate) := splitDefault text
      { c with default := some (strip text), onUpdate := onUpdate <|> c.onUpdate }
  let c := { c with
    autoIncrement := c.autoIncrement || (info.autoIncrement && d == .mysql) || info.isIdentity
    comment := if given info.comment then info.comment else c.comment }
  return Ddl.normalizeSerial c

/-! ## Keys and constraints -/

private def refused {α : Type} : Except Refusal α → Except Fault α :=
  Except.mapError .refused

/-- The columns and the primary key of a table. A single key column of SQLite's own integer type
numbers its rows by itself. -/
def readColumns (d : Dialect) (e : Entry) : Except Fault Table := do
  let t ← e.columns.foldlM (fun (t : Table) info => do refused (t.addColumn (← readColumn d info)))
    { name := e.name }
  let key := e.primaryKey.filter t.hasColumn
  let t ← if key.isEmpty then pure t else refused (t.setPrimaryKey key)
  match d, key with
  | .sqlite, [name] =>
    let number (c : SqlFerry.Column) : SqlFerry.Column :=
      if sameName c.name name && c.typeName == "integer" then { c with autoIncrement := true }
      else c
    return { t with columns := t.columns.map number }
  | _, _ => return t

private def action (text : Option String) : Option String :=
  match text with
  | some s => if s.isEmpty then none else some (oneLine (upper s))
  | none => none

private def explicitAction (text : Option String) : Option String :=
  (action text).filter (· != "NO ACTION")

structure KeyActions where
  columns : List String
  table : String
  onDelete : Option String
  onUpdate : Option String

private def groupRows (rows : List ForeignKeyRow) : List (List ForeignKeyRow) :=
  let ids := rows.foldl (fun acc r => if acc.contains r.id then acc else acc ++ [r.id]) []
  ids.map fun id =>
    (rows.filter (·.id == id)).mergeSort fun a b => a.position ≤ b.position

def keyActions (rows : List ForeignKeyRow) : List KeyActions :=
  (groupRows rows).filterMap fun group => match group with
    | [] => none
    | first :: _ => some
      { columns := group.map (·.column), table := lower first.table
        onDelete := explicitAction first.onDelete, onUpdate := explicitAction first.onUpdate }

private def orElse (a b : Option String) : Option String :=
  if given a then a else b

private def readForeignKey (actions : List KeyActions) (fk : Catalog.ForeignKey) :
    Except Fault (Option Constraint) := do
  match fk.referredTable with
  | none => return none
  | some table =>
    if table.isEmpty then return none
    let known := actions.reverse.find? fun a => a.columns == fk.columns && a.table == lower table
    let c : Constraint :=
      { name := fk.name, kind := .foreignKey, columns := fk.columns, referencedTable := some table
        referencedColumns := fk.referredColumns
        onDelete := action (orElse fk.onDelete (known.bind (·.onDelete)))
        onUpdate := action (orElse fk.onUpdate (known.bind (·.onUpdate))) }
    return some (← c.checked)

private def readCheck (c : Catalog.Check) : Except Fault (Option Constraint) := do
  if !given c.condition then return none
  let c : Constraint := { name := c.name, kind := .check, expression := c.condition }
  return some (← c.checked)

private def constraintsOf (e : Entry) (actions : List KeyActions) :
    List (Except Fault (Option Constraint)) :=
  e.foreignKeys.map (readForeignKey actions) ++
    e.uniques.map (fun u => .ok (some { name := u.name, kind := .unique, columns := u.columns })) ++
    e.checks.map readCheck

private def addConstraint (t : Table) (read : Except Fault (Option Constraint)) :
    Except Fault Table := do
  match ← read with
  | some c => refused (t.addConstraint c)
  | none => return t

/-! ## Indexes -/

private def indexColumn (info : Catalog.Index) (name : String) : Except Fault IndexColumn := do
  match info.length, info.lengths.lookup name with
  | some n, _ => return { name, length := some n }
  | none, none | none, some .null => return { name }
  | none, some v => return { name, length := some (← ((Value.readInt v).under "length").toExcept) }

/-- An index from its catalogue entry; none if it lacks both columns and an expression. -/
def readIndex (d : Dialect) (info : Catalog.Index) : Except Fault (Option SqlFerry.Index) := do
  let byExpression := info.columns.any (·.isNone)
  let joined := ", ".intercalate info.expressions
  if byExpression && joined.isEmpty then return none
  else
    let expression := if byExpression then some joined else none
    let columns ← if byExpression then pure [] else
      (info.columns.filterMap id).mapM (indexColumn info)
    let method := info.method.filter (!·.isEmpty) |>.map lower
    let searchesText :=
      method == some "gin" && (expression.map (contains · "to_tsvector")).getD false
    let kind : SqlFerry.Index.Kind := match upper info.special with
      | "FULLTEXT" => .fulltext
      | "SPATIAL" => if searchesText then .fulltext else .spatial
      | _ => if searchesText then .fulltext else if info.unique then .unique else .plain
    match info.name with
    | none => throw (.invalid [⟨["name"], .expected .text⟩])
    | some name => return some {
        name, kind, columns, expression, condition := info.condition
        method := method.filter (· != "btree"), origin := some d }

private def addIndex (d : Dialect) (known : List (Option String)) (t : Table)
    (info : Catalog.Index) : Except Fault Table := do
  if info.duplicatesConstraint || known.contains info.name then return t
  match ← readIndex d info with
  | some i => refused (t.addIndex i)
  | none => return t

/-! ## Tables -/

private def mysqlOptions (raw : List (String × String)) : List (String × String) :=
  [("mysql_engine", "engine"), ("mysql_default charset", "charset"), ("mysql_collate", "collate"),
   ("mysql_comment", "comment")].filterMap fun (key, option) =>
    match raw.lookup key with
    | some value => if value.isEmpty then none else some (option, value)
    | none => none

def complete (d : Dialect) (e : Entry) (actions : List KeyActions) (t : Table) :
    Except Fault Table := do
  let t ← (constraintsOf e actions).foldlM addConstraint t
  let uniques := (t.constraints.filter (·.kind == .unique)).map (·.name)
  let t ← e.indexes.foldlM (addIndex d uniques) t
  return { t with options := if d == .mysql then mysqlOptions e.options else [] }

def foreignKeyPragma (table : String) : String :=
  "PRAGMA foreign_key_list('" ++ replaceIn table "'" "''" ++ "')"

private def readEntry (d : Dialect) (e : Entry) : Talk Table := do
  let t ← readColumns d e
  let actions ←
    if d == .sqlite then
      Talk.send (.pragma (foreignKeyPragma e.name))
      pure (keyActions e.foreignKeyRows)
    else pure []
  complete d e actions t

private def readSchema (d : Dialect) (wanted : Option (List String)) : Talk Schema := do
  Talk.send .inspect
  let entries := (userTables (← read).catalog).filter fun e =>
    !e.vanished && match wanted with
      | some names => names.contains (lower e.name)
      | none => true
  entries.foldlM (fun (s : Schema) e => do refused (s.addTable (← readEntry d e)))
    { dialect := some d }

def schema (d : Dialect) (wanted : Option (List String) := none) : Talk Schema :=
  Talk.connected (readSchema d (wanted.map (·.map lower)))

end SqlFerry.Introspection
