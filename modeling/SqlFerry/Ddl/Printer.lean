import SqlFerry.Sql.Literal
import SqlFerry.Schema

/-!
# Writing definitions

The statements that create a schema in a dialect: tables in an order in which they can be created,
then indexes, then the foreign keys. SQLite cannot add foreign keys later and has them inline.
-/

namespace SqlFerry.Ddl

open Text

/-- The name of a type and what it takes in parentheses; a type of several words takes it after the
first. -/
def typeWithArguments (c : Column) : Except Fault String := do
  let base := c.typeName
  let length := c.length.getD 0
  let precision := c.precision.getD 0
  if TypeName.takesLength base && length != 0 then return s!"{base}({length})"
  if TypeName.takesPrecision base && precision != 0 then
    match c.scale with
    | some scale => return s!"{base}({precision},{scale})"
    | none => return s!"{base}({precision})"
  match words base.toList with
  | [] => throw .nothingFirst
  | first :: _ =>
    match TypeName.takesTimePrecision (String.ofList first), c.precision with
    | true, some p =>
      let tail := String.ofList ((base.toList.dropWhile (· != ' ')).drop 1)
      let head := String.ofList (base.toList.takeWhile (· != ' '))
      return s!"{head}({p})" ++ if tail.isEmpty then "" else " " ++ tail
    | _, _ => return base

/-- A column's type in the dialect. Automatic values make it a serial type on PostgreSQL and an
integer on SQLite. -/
def columnType (d : Dialect) (c : Column) : Except Fault String := do
  if c.autoIncrement && d == .postgresql then
    return (TypeName.serialOf? c.family).getD "serial"
  if c.autoIncrement && d == .sqlite then return "INTEGER"
  if (c.typeName == "enum" || c.typeName == "set") && d == .mysql then
    let values := c.enumValues.map fun v => d.textLiteral v
    return c.typeName ++ "(" ++ ", ".intercalate values ++ ")"
  let written ← typeWithArguments c
  return written ++ (if c.unsigned && d == .mysql then " unsigned" else "") ++
    if c.isArray && d == .postgresql then "[]" else ""

def isWholeKey (t : Option Table) (c : Column) : Bool :=
  match t with
  | some t => t.primaryKey.map lower == [lower c.name]
  | none => false

def column (d : Dialect) (c : Column) (t : Option Table := none) : Except Fault String := do
  let type ← columnType d c
  let key :=
    if d == .sqlite && c.autoIncrement && isWholeKey t c then ["PRIMARY KEY AUTOINCREMENT"]
    else if c.nullable then [] else ["NOT NULL"]
  let default := match c.default with
    | some v => if c.autoIncrement && d != .mysql then [] else ["DEFAULT " ++ v]
    | none => []
  let own :=
    if d == .mysql then
      (if c.autoIncrement then ["AUTO_INCREMENT"] else []) ++
      (if given c.onUpdate then ["ON UPDATE " ++ c.onUpdate.getD ""] else []) ++
      (if given c.comment then ["COMMENT " ++ d.textLiteral (c.comment.getD "")] else [])
    else []
  return " ".intercalate ([d.quote c.name, type] ++ key ++ default ++ own)

def constraint (d : Dialect) (c : Constraint) : String :=
  let head := if given c.name then "CONSTRAINT " ++ d.quote (c.name.getD "") ++ " " else ""
  match c.kind with
  | .check => head ++ "CHECK (" ++ c.expression.getD "None" ++ ")"
  | .unique => head ++ "UNIQUE (" ++ d.quoteAll c.columns ++ ")"
  | .foreignKey =>
    head ++ "FOREIGN KEY (" ++ d.quoteAll c.columns ++ ") REFERENCES " ++
      d.quote (c.referencedTable.getD "") ++
      (if c.referencedColumns.isEmpty then "" else " (" ++ d.quoteAll c.referencedColumns ++ ")") ++
      (if given c.onDelete then " ON DELETE " ++ c.onDelete.getD "" else "") ++
      (if given c.onUpdate then " ON UPDATE " ++ c.onUpdate.getD "" else "")

def mysqlOptions (options : List (String × String)) : String :=
  let option (k label : String) : List String :=
    match options.lookup k with
    | some v => if v.isEmpty then [] else [label ++ "=" ++ v]
    | none => []
  let comment := match options.lookup "comment" with
    | some v => if v.isEmpty then [] else ["COMMENT=" ++ Dialect.mysql.textLiteral v]
    | none => []
  let all := option "engine" "ENGINE" ++ option "charset" "DEFAULT CHARSET" ++
    option "collate" "COLLATE" ++ comment
  if all.isEmpty then "" else " " ++ " ".intercalate all

def keyIsInline (d : Dialect) (t : Table) : Bool :=
  match d, t.primaryKey with
  | .sqlite, [name] => ((t.column? name).map (·.autoIncrement)).getD false
  | _, _ => false

def createTable (d : Dialect) (t : Table) (inlineForeignKeys : Bool)
    (ifNotExists : Bool := false) : Except Fault String := do
  let columns ← t.columns.mapM (column d · (some t))
  let key :=
    if t.primaryKey.isEmpty || keyIsInline d t then []
    else ["PRIMARY KEY (" ++ d.quoteAll t.primaryKey ++ ")"]
  let kept := t.constraints.filter fun c => c.kind != .foreignKey || inlineForeignKeys
  let lines := columns ++ key ++ kept.map (constraint d)
  let head := if ifNotExists then "CREATE TABLE IF NOT EXISTS " else "CREATE TABLE "
  return head ++ d.quote t.name ++ " (\n  " ++ ",\n  ".intercalate lines ++ "\n)" ++
    if d == .mysql then mysqlOptions t.options else ""

def addForeignKey (d : Dialect) (table : String) (c : Constraint) : String :=
  "ALTER TABLE " ++ d.quote table ++ " ADD " ++ constraint d c

def indexTarget (d : Dialect) (i : Index) : String :=
  if given i.expression && i.columns.isEmpty then
    let e := i.expression.getD ""
    if d == .mysql then "((" ++ e ++ "))" else "(" ++ e ++ ")"
  else
    let part (c : IndexColumn) : String :=
      d.quote c.name ++
      (match c.length with
        | some n => if n != 0 && d == .mysql then s!"({n})" else ""
        | none => "") ++
      (match c.direction with
        | some dir => " " ++ dir.name
        | none => "")
    "(" ++ ", ".intercalate (i.columns.map part) ++ ")"

def createIndex (d : Dialect) (table : String) (i : Index) : Option String :=
  if i.kind == .primary then none
  else
    let keyword := match i.kind with
      | .unique => "UNIQUE INDEX"
      | .fulltext => if d == .mysql then "FULLTEXT INDEX" else "INDEX"
      | .spatial => if d == .mysql then "SPATIAL INDEX" else "INDEX"
      | _ => "INDEX"
    let method := if given i.method then i.method.getD "" else ""
    some <| "CREATE " ++ keyword ++ " " ++ d.quote i.name ++ " ON " ++ d.quote table ++
      (if !method.isEmpty && d == .postgresql then " USING " ++ method else "") ++
      " " ++ indexTarget d i ++
      (if !method.isEmpty && d == .mysql then " USING " ++ upper method else "") ++
      (if given i.condition && d != .mysql then " WHERE " ++ i.condition.getD "" else "")

def dropTable (d : Dialect) (table : String) : String :=
  "DROP TABLE IF EXISTS " ++ d.quote table ++ if d == .postgresql then " CASCADE" else ""

/-- What to write of a schema. -/
structure Parts where
  drops : Bool := false
  indexes : Bool := true
  foreignKeys : Bool := true

def indexStatements (d : Dialect) (tables : List Table) : List String :=
  tables.flatMap fun t => t.indexes.filterMap (createIndex d t.name)

def foreignKeyStatements (d : Dialect) (tables : List Table) : List String :=
  tables.flatMap fun t => t.foreignKeys.map (addForeignKey d t.name)

def write (d : Dialect) (s : Schema) (parts : Parts := {}) : Except Fault (List String) := do
  let order := s.createOrder
  let tables ← order.mapM (createTable d · (d == .sqlite && parts.foreignKeys))
  return (if parts.drops then order.reverse.map fun t => dropTable d t.name else []) ++ tables ++
    (if parts.indexes then indexStatements d order else []) ++
    if parts.foreignKeys && d != .sqlite then foreignKeyStatements d order else []

end SqlFerry.Ddl
