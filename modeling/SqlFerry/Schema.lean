import SqlFerry.Schema.Table

/-!
# Schemas

The tables of one database in the order of their declaration, with names that differ, and an order
in which they can be created.
-/

namespace SqlFerry

open Text

structure Schema where
  dialect : Option Dialect := none
  tables : List Table := []
  deriving DecidableEq, Repr

namespace Schema

variable (s : Schema)

def names : List String :=
  s.tables.map (·.name)

def named? (name : String) : Option Table :=
  s.tables.find? (·.name == name)

/-- The table of this name, else the first whose name differs only in case. -/
def table? (name : String) : Option Table :=
  match s.named? name with
  | some t => some t
  | none => s.tables.find? (sameName ·.name name)

def addTable (t : Table) : Except Refusal Schema :=
  if (s.named? t.name).isSome then .error (.duplicateTable t.name)
  else .ok { s with tables := s.tables ++ [t] }

def replace (t : Table) : Schema :=
  { s with tables := s.tables.map fun u => if u.name == t.name then t else u }

/-- A visit of the tables in depth-first order: the names done, and those under way. -/
structure Visit where
  done : List String := []
  underWay : List String := []

/-- Visits the tables that `name` depends on, then `name` itself. A table under way is not entered
again, which breaks a cycle where it closes. -/
def visit : (fuel : Nat) → Visit → String → Visit
  | 0, v, _ => v
  | n + 1, v, name =>
    if v.done.contains name || v.underWay.contains name then v
    else
      let deps := ((s.named? name).map Table.dependencies).getD []
      let v := (deps.filter (s.named? · |>.isSome)).foldl (visit n)
        { v with underWay := name :: v.underWay }
      { done := v.done ++ [name], underWay := v.underWay.erase name }

def createOrder : List Table :=
  let v := s.names.foldl (s.visit (s.tables.length + 1)) {}
  v.done.filterMap s.named?

end Schema

end SqlFerry
