import SqlFerry.Ddl.Table
import SqlFerry.Splitter

/-!
# Reading definitions

A schema from the statements that define it. Statements that define nothing are passed over, as are
definitions of tables that are there already and indexes of tables that are not.
-/

namespace SqlFerry.Ddl

open Text Pattern Sql

def altered : Pattern :=
  alterTable ++ blanks1

/-- Lets one statement take effect. What it did before a fault stays. -/
def apply (origin : Dialect) (s : Schema) (sql : Chars) : Schema × Except Fault Unit :=
  let sql := trim sql
  if (createTable.match? sql).isSome then
    match readTable origin sql with
    | .error e => (s, .error e)
    | .ok none => (s, .ok ())
    | .ok (some t) =>
      if (s.table? t.name).isSome then (s, .ok ())
      else match s.addTable t with
        | .ok s => (s, .ok ())
        | .error why => (s, .error (.refused why))
  else
    let build (name : String) (steps : Building Unit) : Schema × Except Fault Unit :=
      match s.table? name with
      | none => (s, .ok ())
      | some t =>
        let (r, t) := steps.run t
        (s.replace t, r)
    match readIndex origin sql with
    | .error e => (s, .error e)
    | .ok (some (name, i)) => build name (Building.change (·.addIndex i))
    | .ok none =>
      match altered.match? sql with
      | none => (s, .ok ())
      | some m => build (unquote (m.group 1)) ((items m.rest).forM (Building.alter origin))

def ofStatements (origin : Dialect) (statements : List String) : Except Fault Schema :=
  statements.foldlM (fun s sql =>
    match apply origin s sql.toList with
    | (s, .ok ()) => .ok s
    | (_, .error e) => .error e) { dialect := some origin }

def ofSplitting {α : Type} : Except Splitter.Fault α → Except Fault α
  | .ok a => .ok a
  | .error e => .error (.fail (.malformed e.reason e.offset e.line))

def read (origin : Dialect) (script : String) : Except Fault Schema := do
  let found ← ofSplitting (Splitter.statements (some origin) script)
  ofStatements origin (found.map (·.text))

end SqlFerry.Ddl
