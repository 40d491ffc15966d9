import SqlFerry.Schema.Introspection

/-!
# Moving rows

How rows are read from a table, and what a script of a dialect begins and ends with.
-/

namespace SqlFerry

def Dialect.preamble : Dialect → List String
  | .mysql => ["SET NAMES utf8mb4", "SET FOREIGN_KEY_CHECKS=0"]
  | .postgresql => ["SET client_encoding = 'UTF8'", "SET standard_conforming_strings = on"]
  | .sqlite => ["PRAGMA foreign_keys=OFF"]

def Dialect.epilogue : Dialect → List String
  | .mysql => ["SET FOREIGN_KEY_CHECKS=1"]
  | .postgresql | .sqlite => []

def Dialect.rowsQuery (d : Dialect) (t : Table) : String :=
  "SELECT " ++ d.quoteAll t.columnNames ++ " FROM " ++ d.quote t.name

/-- The schema without the tables of these names, in either case. -/
def Schema.without (s : Schema) (names : List String) : Schema :=
  let names := names.map Text.lower
  { s with tables := s.tables.filter fun t => !names.contains (Text.lower t.name) }

end SqlFerry
