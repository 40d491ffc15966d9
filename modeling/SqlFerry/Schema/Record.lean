import SqlFerry.Schema
import SqlFerry.Value.Reading

/-!
# Schemas as records

The record that shows each part of a schema, and reading a part from its record. A part is read
only if it keeps the rules of its type.
-/

namespace SqlFerry

open Value

def textOrNull : Option String → Value :=
  .ofOption .text

private def intOrNull : Option Int → Value :=
  .ofOption .int

def readDialect : Value → Checked Dialect :=
  readName Dialect.all Dialect.name

namespace IndexColumn

def toValue (c : IndexColumn) : Value :=
  .record [("name", c.name), ("length", intOrNull c.length),
    ("direction", textOrNull (c.direction.map Direction.name))]

private def readDirection (v : Value) : Checked Direction :=
  (readText v).andThen Direction.ofText

def ofValue : Value → Checked IndexColumn :=
  readRecord "IndexColumn" fun v => IndexColumn.mk <$> v.required "name" readText <*>
    v.optional "length" readInt <*> v.optional "direction" readDirection

end IndexColumn

namespace Index

def toValue (i : Index) : Value :=
  .record [("name", i.name), ("type", i.kind.name),
    ("columns", .list (i.columns.map IndexColumn.toValue)),
    ("expression", textOrNull i.expression), ("where", textOrNull i.condition),
    ("method", textOrNull i.method), ("comment", textOrNull i.comment),
    ("origin", textOrNull (i.origin.map Dialect.name))]

def ofValue : Value → Checked Index :=
  readRecord "Index" fun v => Index.mk <$> v.required "name" readText <*>
    v.withDefault "type" .plain (readName Kind.all Kind.name) <*>
    v.withDefault "columns" [] (readList IndexColumn.ofValue) <*>
    v.optional "expression" readText <*> v.optional "where" readText <*>
    v.optional "method" readText <*> v.optional "comment" readText <*>
    v.optional "origin" readDialect

end Index

namespace Constraint

def toValue (c : Constraint) : Value :=
  .record [("name", textOrNull c.name), ("type", c.kind.name), ("columns", .texts c.columns),
    ("referenced_table", textOrNull c.referencedTable),
    ("referenced_columns", .texts c.referencedColumns), ("on_delete", textOrNull c.onDelete),
    ("on_update", textOrNull c.onUpdate), ("expression", textOrNull c.expression)]

def ofValue : Value → Checked Constraint := readRecord "Constraint" fun v =>
  let read := Constraint.mk <$> v.optional "name" readText <*>
    v.required "type" (readName Kind.all Kind.name) <*>
    v.withDefault "columns" [] (readList readText) <*> v.optional "referenced_table" readText <*>
    v.withDefault "referenced_columns" [] (readList readText) <*>
    v.optional "on_delete" readText <*> v.optional "on_update" readText <*>
    v.optional "expression" readText
  read.andThen fun c => match c.lack? with
    | some why => .error why
    | none => .ok c

end Constraint

namespace Column

/-- The record of a column without what follows from its other fields. -/
def ownFields (c : Column) : List (String × Value) :=
  [("name", c.name), ("data_type", c.typeName), ("length", intOrNull c.length),
    ("precision", intOrNull c.precision), ("scale", intOrNull c.scale), ("unsigned", c.unsigned),
    ("nullable", c.nullable), ("default", textOrNull c.default),
    ("auto_increment", c.autoIncrement), ("enum_values", .texts c.enumValues),
    ("is_array", c.isArray), ("on_update", textOrNull c.onUpdate),
    ("comment", textOrNull c.comment)]

def toValue (c : Column) : Value :=
  .record (c.ownFields ++ [("logical_type", .text c.family.name)])

def ofValue : Value → Checked Column :=
  readRecord "Column" fun v => Column.mk <$> v.required "name" readText <*>
    v.required "data_type" (fun t => TypeName.normal <$> readText t) <*>
    v.optional "length" readInt <*> v.optional "precision" readInt <*>
    v.optional "scale" readInt <*> v.withDefault "unsigned" false readBool <*>
    v.withDefault "nullable" true readBool <*> v.optional "default" readText <*>
    v.withDefault "auto_increment" false readBool <*>
    v.withDefault "enum_values" [] (readList readText) <*>
    v.withDefault "is_array" false readBool <*> v.optional "on_update" readText <*>
    v.optional "comment" readText

end Column

namespace Table

private def ownFields (t : Table) : List (String × Value) :=
  [("name", t.name), ("columns", .list (t.columns.map Column.toValue)),
    ("primary_key", .texts t.primaryKey), ("indexes", .list (t.indexes.map Index.toValue)),
    ("constraints", .list (t.constraints.map Constraint.toValue)),
    ("options", .record (t.options.map fun (k, x) => (k, .text x))),
    ("dependencies", .texts t.dependencies)]

def toValue (t : Table) (definition : Bool) : Value :=
  .record (t.ownFields ++ if definition then [("original_sql", textOrNull t.definition)] else [])

def ofValue : Value → Checked Table := readRecord "Table" fun v =>
  let read := Table.mk <$> v.required "name" readText <*>
    v.withDefault "columns" [] (readList Column.ofValue) <*>
    v.withDefault "primary_key" [] (readList readText) <*>
    v.withDefault "indexes" [] (readList Index.ofValue) <*>
    v.withDefault "constraints" [] (readList Constraint.ofValue) <*>
    v.withDefault "options" [] readTexts <*> v.optional "original_sql" readText
  read.andThen fun t => t.check.map fun _ => t

end Table

namespace Schema

def toValue (s : Schema) (definitions : Bool := false) : Value :=
  .record [("dialect", textOrNull (s.dialect.map Dialect.name)),
    ("tables", .list (s.tables.map (·.toValue definitions))),
    ("create_order", .texts (s.createOrder.map (·.name)))]

def ofValue (v : Value) : Except Fault Schema := do
  let dialect ← (v.field? "dialect").mapM fun d => match d with
    | .text name => Dialect.named name
    | _ => .error (.partless "a dialect is named by a text")
  let add (s : Schema) (table : Value) : Except Fault Schema := do
    let t ← (Table.ofValue table).toExcept
    (s.addTable t).mapError .refused
  ((v.field? "tables").map Value.items |>.getD []).foldlM add { dialect }

end Schema

end SqlFerry
