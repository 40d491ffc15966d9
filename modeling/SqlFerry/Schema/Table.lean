import SqlFerry.Schema.Index

/-!
# Tables

Columns, constraints and tables. A table has no two columns of one name in either case, and every
column that a key, an index or a constraint names is one of its own; adding to a table keeps both.
-/

namespace SqlFerry

open Text

inductive Constraint.Kind where
  | foreignKey
  | check
  | unique
  deriving DecidableEq, Repr

def Constraint.Kind.name : Constraint.Kind → String
  | foreignKey => "foreign_key"
  | check => "check"
  | unique => "unique"

def Constraint.Kind.all : List Constraint.Kind :=
  [foreignKey, check, unique]

structure Constraint where
  name : Option String := none
  kind : Constraint.Kind
  columns : List String := []
  referencedTable : Option String := none
  referencedColumns : List String := []
  onDelete : Option String := none
  onUpdate : Option String := none
  expression : Option String := none
  deriving DecidableEq, Repr

/-- What a constraint of its kind lacks: a foreign key needs a table and a check an expression. -/
def Constraint.lack? (c : Constraint) : Option Refusal :=
  match c.kind with
  | .foreignKey => if given c.referencedTable then none else some .noReferencedTable
  | .check => if given c.expression then none else some .noExpression
  | .unique => none

def Constraint.checked (c : Constraint) : Except Fault Constraint :=
  match c.lack? with
  | some why => .error (.broken why)
  | none => .ok c

/-- `typeName` is the type as its dialect writes it, in lower case and without arguments. -/
structure Column where
  name : String
  typeName : String
  length : Option Int := none
  precision : Option Int := none
  scale : Option Int := none
  unsigned : Bool := false
  nullable : Bool := true
  default : Option String := none
  autoIncrement : Bool := false
  enumValues : List String := []
  isArray : Bool := false
  onUpdate : Option String := none
  comment : Option String := none
  deriving DecidableEq, Repr

def Column.family (c : Column) : TypeFamily :=
  if c.isArray then .array else TypeName.family c.typeName

def sameName (a b : String) : Bool :=
  lower a == lower b

structure Table where
  name : String
  columns : List Column := []
  primaryKey : List String := []
  indexes : List Index := []
  constraints : List Constraint := []
  options : List (String × String) := []
  /-- The statement it was read from. -/
  definition : Option String := none
  deriving DecidableEq, Repr

namespace Table

variable (t : Table)

def columnNames : List String :=
  t.columns.map (·.name)

def column? (name : String) : Option Column :=
  t.columns.find? (sameName ·.name name)

def hasColumn (name : String) : Bool :=
  t.columns.any (sameName ·.name name)

def requireColumns (owner : String) (names : List String) : Except Refusal Unit :=
  match names.find? (!t.hasColumn ·) with
  | some name => .error (.missingColumn name owner t.name)
  | none => .ok ()

def checkIndex (i : Index) : Except Refusal Unit :=
  if given i.expression && i.columns.isEmpty then .ok ()
  else t.requireColumns ("index " ++ i.name) i.columnNames

def checkConstraint (c : Constraint) : Except Refusal Unit :=
  t.requireColumns ("constraint " ++ c.name.getD "") c.columns

def addColumn (c : Column) : Except Refusal Table :=
  if t.hasColumn c.name then .error (.duplicateColumn c.name t.name)
  else .ok { t with columns := t.columns ++ [c] }

def addIndex (i : Index) : Except Refusal Table := do
  t.checkIndex i
  return { t with indexes := t.indexes ++ [i] }

def addConstraint (c : Constraint) : Except Refusal Table := do
  t.checkConstraint c
  return { t with constraints := t.constraints ++ [c] }

def setPrimaryKey (names : List String) : Except Refusal Table := do
  t.requireColumns "primary key" names
  return { t with primaryKey := names }

def checkDistinct : (seen : List String) → List Column → Except Refusal Unit
  | _, [] => .ok ()
  | seen, c :: cs =>
    if seen.contains (lower c.name) then .error (.duplicateColumn c.name t.name)
    else checkDistinct (lower c.name :: seen) cs

def check : Except Refusal Unit := do
  t.checkDistinct [] t.columns
  t.requireColumns "primary key" t.primaryKey
  t.indexes.forM t.checkIndex
  t.constraints.forM t.checkConstraint

def foreignKeys : List Constraint :=
  t.constraints.filter (·.kind == .foreignKey)

def insertName (s : String) : List String → List String
  | [] => [s]
  | x :: xs => if s < x then s :: x :: xs else if s == x then x :: xs else x :: insertName s xs

def dependencies : List String :=
  t.foreignKeys.foldl (fun acc fk => match fk.referencedTable with
    | some r => if r.isEmpty || r == t.name then acc else insertName r acc
    | none => acc) []

end Table

end SqlFerry
