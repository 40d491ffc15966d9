import SqlFerry.Convert.Warning
import SqlFerry.Ddl.Printer
import SqlFerry.Sql.Requote

/-!
# Converting schemas

A schema of one dialect for another. Types get the names of the target; what the target lacks is
emulated if it can be, such as enumerations by a check, else dropped, and each loss is a warning.
Names, keys and the order of tables and columns stay.
-/

namespace SqlFerry.Convert

open Text Sql

/-- Where a conversion comes from, where it goes, and whether it may drop anything. -/
structure Route where
  source : Dialect
  target : Dialect
  strict : Bool := false
  deriving DecidableEq, Repr

namespace Route

variable (r : Route)

def note (severity : Severity) (entityType entity : String) (table : Option String)
    (message : String) : Converting Unit :=
  warn r.strict { severity, entityType, entity, table, message }

def onColumn (t : Table) (c : Column) (severity : Severity) (message : String) :
    Converting Unit :=
  r.note severity "column" c.name (some t.name) message

def onIndex (t : Table) (i : Index) (severity : Severity) (message : String) :
    Converting Unit :=
  r.note severity "index" i.name (some t.name) message

/-! ## Constraints -/

def convertAction (t : Table) (c : Constraint) (action : Option String) :
    Converting (Option String) := do
  if action == some "SET DEFAULT" then
    r.note .lossy "constraint" (if given c.name then c.name.getD "" else "foreign_key")
      (some t.name) "SET DEFAULT referential action replaced by NO ACTION on MySQL"
    return some "NO ACTION"
  return action

/-- MySQL has no `SET DEFAULT`; the expression of a check is quoted anew. -/
def convertConstraint (t : Table) (c : Constraint) : Converting Constraint := do
  match c.kind with
  | .foreignKey =>
    if r.target == .mysql then
      let onDelete ← r.convertAction t c c.onDelete
      let onUpdate ← r.convertAction t c c.onUpdate
      return { c with onDelete, onUpdate }
    return c
  | .check =>
    return { c with expression := c.expression.map fun e =>
      if e.isEmpty then e else requote e r.source r.target }
  | .unique => return c

/-! ## Columns -/

private def currentTimestamps : List String :=
  ["now()", "current_timestamp", "current_timestamp()", "localtimestamp", "localtimestamp()",
   "datetime('now')", "(datetime('now'))", "transaction_timestamp()"]

private def truth? (text : String) : Option Bool :=
  if ["true", "'t'", "1", "'1'", "b'1'"].contains text then some true
  else if ["false", "'f'", "0", "'0'", "b'0'"].contains text then some false
  else none

private def truthText (target : Dialect) (b : Bool) : String :=
  if target == .postgresql then (if b then "TRUE" else "FALSE") else (if b then "1" else "0")

def convertDefault (t : Table) (c : Column) : Converting Column := do
  match c.default with
  | none => return c
  | some text =>
    let value := requote (strip text) r.source r.target
    let lowered := lower value
    if TypeName.isUuidDefault lowered then
      match Feature.uuidDefault.expression? r.target with
      | some e => return { c with default := some e }
      | none =>
        r.onColumn t c .dropped
          s!"UUID default {value} is not supported by {r.target.label}"
        return { c with default := none }
    if currentTimestamps.contains lowered then
      return { c with default := some "CURRENT_TIMESTAMP" }
    if c.family == .boolean || lowered == "true" || lowered == "false" then
      match truth? lowered with
      | some b => return { c with default := some (truthText r.target b) }
      | none => return { c with default := some value }
    return { c with default := some value }

private def enumCheck (t : Table) (c : Column) : Constraint :=
  let values := c.enumValues.map r.target.textLiteral
  { name := some (t.name ++ "_" ++ c.name ++ "_check"), kind := .check
    expression := some
      (r.target.quote c.name ++ " IN (" ++ ", ".intercalate values ++ ")") }

/-- An enumeration becomes a text with a check, a set or an empty enumeration just a text. -/
def emulateEnum (t : Table) (c : Column) : Converting (Column × List Constraint) := do
  let plain := { c with typeName := "text", enumValues := [] }
  if c.typeName == "set" || c.enumValues.isEmpty then
    r.onColumn t c .lossy
      s!"SET column stored as TEXT on {r.target.label}; allowed values are not enforced"
    return (plain, [])
  r.onColumn t c .lossy
    s!"ENUM converted to TEXT with a CHECK constraint on {r.target.label}"
  return (plain, [r.enumCheck t c])

def convertType (t : Table) (c : Column) : Converting (Column × List Constraint) := do
  match c.isArray, TypeName.forArray? r.target with
  | true, some type =>
    r.onColumn t c .lossy s!"Array column stored as {upper type} on {r.target.label}"
    return ({ c with typeName := type, isArray := false }, [])
  | _, _ =>
    if (c.typeName == "enum" || c.typeName == "set") && r.target != .mysql then
      r.emulateEnum t c
    else
      let length := (TypeName.forcedLength? c.typeName r.source r.target).or c.length
      return ({ c with typeName := TypeName.convert c.typeName r.source r.target, length }, [])

/-- The length of a column that has its new type. MySQL wants one for characters. -/
def fitLength (c : Column) : Option Int :=
  let length := if TypeName.takesLength c.typeName then c.length else none
  length.or (if r.target == .mysql then [("varchar", 255), ("char", 1)].lookup c.typeName else none)

def takesDigits (type : String) : Except Fault Bool :=
  if TypeName.takesPrecision type then .ok true
  else match words type.toList with
    | [] => .error .nothingFirst
    | w :: _ => .ok (TypeName.takesTimePrecision (String.ofList w))

def fitArguments (c : Column) : Except Fault Column := do
  let digits ← takesDigits c.typeName
  return { c with
    length := r.fitLength c
    precision := if digits then c.precision else none
    scale := if digits then c.scale else none }

def dropAttributes (t : Table) (c : Column) : Converting Column := do
  if r.target == .mysql then return c
  if c.unsigned then
    r.onColumn t c .lossy s!"UNSIGNED attribute is not supported by {r.target.label}"
  if given c.onUpdate then
    r.onColumn t c .dropped s!"ON UPDATE clause is not supported by {r.target.label}"
  return { c with
    unsigned := false, onUpdate := if given c.onUpdate then none else c.onUpdate, comment := none }

def convertAutoIncrement (t : Table) (c : Column) : Converting Column := do
  if !c.autoIncrement then return c
  match r.target with
  | .postgresql =>
    if (TypeName.serialOf? c.family).isSome then return c
    r.onColumn t c .dropped
      s!"Auto-increment on {c.typeName} columns is not supported by PostgreSQL"
    return { c with autoIncrement := false }
  | .sqlite => return { c with typeName := "integer" }
  | .mysql => return c

def convertColumn (t : Table) (c : Column) : Converting (Column × List Constraint) := do
  let (c, checks) ← r.convertType t c
  let c ← r.fitArguments c
  let c ← r.dropAttributes t c
  let c ← r.convertDefault t c
  return (← r.convertAutoIncrement t c, checks)

/-- Automatic values need a key of that column alone on SQLite. -/
def requireRowKey (t : Table) (c : Column) : Converting Column := do
  if r.target == .sqlite && c.autoIncrement && t.primaryKey.map lower != [lower c.name] then
    r.onColumn t c .dropped
      "AUTOINCREMENT requires a single-column INTEGER PRIMARY KEY on SQLite"
    return { c with autoIncrement := false }
  return c

/-! ## Indexes -/

def addPrefixLength (t : Table) (i : Index) (ic : IndexColumn) :
    Converting IndexColumn := do
  match t.column? ic.name with
  | none => return ic
  | some c =>
    if ic.length.isNone && (c.family == .text || c.family == .binary) &&
        !TypeName.takesLength c.typeName then
      r.onIndex t i .lossy
        s!"Prefix length 255 added for {upper c.typeName} column '{c.name}' on MySQL"
      return { ic with length := some 255 }
    return ic

def convertMethod (t : Table) (i : Index) : Converting (Option String) := do
  match i.method with
  | some m =>
    if m.isEmpty || (Index.methods r.target).contains (lower m) then return some m
    r.onIndex t i .dropped s!"Index method '{m}' is not supported by {r.target.label}"
    return none
  | none => return none

def dropPrefixLengths (t : Table) (i : Index) : Converting (List IndexColumn) := do
  if !Index.allowsPrefixLength r.target && i.hasPrefixLength then
    r.onIndex t i .lossy s!"Index prefix lengths are not supported by {r.target.label}"
    return i.columns.map fun c => { c with length := none }
  return i.columns

def convertIndexColumns (t : Table) (i : Index) : Converting (List IndexColumn) := do
  let columns ← r.dropPrefixLengths t i
  if r.target == .mysql then columns.mapM (r.addPrefixLength t i) else return columns

/-- An index for the target, or none if the target cannot express what it is about; `t` has its
new columns already. -/
def convertIndex (t : Table) (i : Index) : Converting (Option Index) := do
  if i.kind == .primary then return some i
  let complaints := i.complaints r.target
  let fatal := !i.isSupportedBy r.target ||
    complaints.any fun p => contains p "WHERE" || contains p "Expression"
  if fatal then
    r.onIndex t i .dropped ("Index dropped: " ++ "; ".intercalate complaints)
    return none
  let method ← r.convertMethod t i
  let columns ← r.convertIndexColumns t i
  let anew (text : Option String) : Option String :=
    text.map fun e => if e.isEmpty then e else requote e r.source r.target
  return some { i with
    method, columns, condition := anew i.condition, expression := anew i.expression }

/-! ## Tables and schemas -/

def convertColumns (t : Table) : List Column → Converting (List Column × List Constraint)
  | [] => return ([], [])
  | c :: cs => do
    let (c, checks) ← r.convertColumn t c
    let (cs, more) ← convertColumns t cs
    return (c :: cs, checks ++ more)

def convertTable (t : Table) : Converting Table := do
  let constraints ← t.constraints.mapM (r.convertConstraint t)
  let (columns, checks) ← r.convertColumns t t.columns
  let columns ← columns.mapM (r.requireRowKey t)
  let t := { t with columns, constraints := constraints ++ checks }
  let indexes ← t.indexes.filterMapM (r.convertIndex t)
  return { t with
    indexes, options := if r.target == .mysql then t.options else [], definition := none }

def convertSchema (s : Schema) : Converting Schema := do
  if r.source == r.target then return { s with dialect := some r.target }
  let tables ← s.tables.mapM r.convertTable
  return { dialect := some r.target, tables }

end Route

def schema (s : Schema) (target : Dialect) (source : Option Dialect) (strict : Bool) :
    Except Fault (Schema × List Warning) :=
  let route : Route := { source := source.getD (s.dialect.getD target), target, strict }
  (route.convertSchema s).run []

end SqlFerry.Convert
