import SqlFerry.Value.Reading

/-!
# Catalogues

What a database reports of its tables, as its own catalogue has it: types are still text, and keys
may name what is not there.
-/

namespace SqlFerry

abbrev Row := List Value

namespace Catalog

structure Column where
  name : String
  type : Option String := none
  nullable : Bool := true
  default : Option String := none
  autoIncrement : Bool := false
  isIdentity : Bool := false
  comment : Option String := none
  deriving Repr

structure ForeignKey where
  name : Option String := none
  columns : List String := []
  referredTable : Option String := none
  referredColumns : List String := []
  onDelete : Option String := none
  onUpdate : Option String := none
  deriving Repr

structure Unique where
  name : Option String := none
  columns : List String := []
  deriving Repr

structure Check where
  name : Option String := none
  condition : Option String := none
  deriving Repr

/-- A column of an index is none where the index has an expression instead. -/
structure Index where
  name : Option String := none
  columns : List (Option String) := []
  unique : Bool := false
  expressions : List String := []
  duplicatesConstraint : Bool := false
  /-- How many leading characters count, by column. -/
  lengths : List (String × Value) := []
  /-- The same for all columns. -/
  length : Option Int := none
  special : String := ""
  method : Option String := none
  condition : Option String := none
  deriving Repr

structure ForeignKeyRow where
  id : Int
  position : Int
  table : String
  column : String
  onUpdate : Option String
  onDelete : Option String
  deriving Repr

/-- `vanished` tables are listed, but gone when they are read. -/
structure Entry where
  name : String
  columns : List Column := []
  primaryKey : List String := []
  foreignKeys : List ForeignKey := []
  foreignKeyRows : List ForeignKeyRow := []
  uniques : List Unique := []
  checks : List Check := []
  indexes : List Index := []
  options : List (String × String) := []
  vanished : Bool := false
  deriving Repr

end Catalog

structure Catalog where
  tables : List Catalog.Entry := []
  deriving Repr

/-! ## Reading a catalogue from a record -/

namespace Catalog

open Value

private def textOf (v : Value) (k : String) : Option String :=
  (v.field? k).bind text?

private def textsOf (v : Value) (k : String) : List String :=
  ((v.field? k).map items |>.getD []).map fun x => x.text?.getD ""

private def partsOf (v : Value) (k : String) : List Value :=
  (v.field? k).map items |>.getD []

private def holds (v : Value) (k : String) : Bool :=
  ((v.field? k).map isFull).getD false

private def lengthOf? : Value → Option Int
  | .int n => some n
  | .bool b => some (if b then 1 else 0)
  | _ => none

private def columnOf (v : Value) : Column :=
  { name := (textOf v "name").getD ""
    type := textOf v "type"
    nullable := if v.hasField "nullable" then holds v "nullable" else true
    default := (v.field? "default").map scalarText
    autoIncrement := ((v.field? "autoincrement").bind bool?).getD false
    isIdentity := holds v "identity"
    comment := textOf v "comment" }

private def foreignKeyOf (v : Value) : ForeignKey :=
  let options := (v.field? "options").getD .null
  { name := textOf v "name"
    columns := textsOf v "constrained_columns"
    referredTable := textOf v "referred_table"
    referredColumns := textsOf v "referred_columns"
    onDelete := textOf options "ondelete"
    onUpdate := textOf options "onupdate" }

private def indexOf (v : Value) : Index :=
  let options := (v.field? "dialect_options").getD .null
  let lengths := options.field? "mysql_length"
  { name := textOf v "name"
    columns := (partsOf v "column_names").map text?
    unique := holds v "unique"
    expressions := textsOf v "expressions"
    duplicatesConstraint := holds v "duplicates_constraint"
    lengths := (lengths.map fields).getD []
    length := (lengths.bind lengthOf?).filter (· != 0)
    special := (textOf options "mysql_prefix").getD ""
    method := match textOf options "postgresql_using" with
      | some m => if m.isEmpty then textOf options "mysql_using" else some m
      | none => textOf options "mysql_using"
    condition := match textOf options "postgresql_where" with
      | some w => if w.isEmpty then textOf options "sqlite_where" else some w
      | none => textOf options "sqlite_where" }

private def foreignKeyRowOf (v : Value) : ForeignKeyRow :=
  let at? (n : Nat) : Option Value := v.items[n]?
  let text (n : Nat) : Option String := (at? n).bind text?
  { id := ((at? 0).bind int?).getD 0
    position := ((at? 1).bind int?).getD 0
    table := (text 2).getD ""
    column := (text 3).getD ""
    onUpdate := text 5
    onDelete := text 6 }

private def optionsOf (v : Value) : List (String × String) :=
  (v.fields.filter (·.2.isFull)).map fun (k, x) => (k, x.scalarText)

private def entryOf (uniques checks : Bool) (v : Value) : Entry :=
  { name := (textOf v "name").getD ""
    columns := (partsOf v "columns").map columnOf
    primaryKey := textsOf v "primary_key"
    foreignKeys := (partsOf v "foreign_keys").map foreignKeyOf
    foreignKeyRows := (partsOf v "pragma_fks").map foreignKeyRowOf
    uniques := if uniques then (partsOf v "uniques").map fun u =>
      { name := textOf u "name", columns := textsOf u "column_names" } else []
    checks := if checks then (partsOf v "checks").map fun c =>
      { name := textOf c "name", condition := textOf c "sqltext" } else []
    indexes := (partsOf v "indexes").map indexOf
    options := optionsOf ((v.field? "table_options").getD .null)
    vanished := holds v "vanished" }

/-- A catalogue that does not list some kind of constraint has none of it. -/
def ofValue (v : Value) : Catalog :=
  let unlisted := textsOf v "unsupported"
  { tables := (partsOf v "tables").map
      (entryOf (!unlisted.contains "unique") (!unlisted.contains "check")) }

end Catalog

end SqlFerry
