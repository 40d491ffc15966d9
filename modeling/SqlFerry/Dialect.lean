import SqlFerry.Text.Quoted

/-!
# SQL dialects

The three database families, their names and the aliases by which a name or a URL scheme refers to
one of them.
-/

namespace SqlFerry

inductive Dialect where
  | mysql
  | sqlite
  | postgresql
  deriving DecidableEq, Repr, Inhabited

namespace Dialect

def name : Dialect → String
  | mysql => "mysql"
  | sqlite => "sqlite"
  | postgresql => "postgresql"

def label : Dialect → String
  | mysql => "MySQL"
  | sqlite => "SQLite"
  | postgresql => "PostgreSQL"

def all : List Dialect :=
  [mysql, sqlite, postgresql]

private def ofAlias? : String → Option Dialect
  | "mysql" | "mariadb" => some mysql
  | "sqlite" | "sqlite3" => some sqlite
  | "postgres" | "postgresql" | "pgsql" => some postgresql
  | _ => none

/-- A dialect's name or alias in either case. What follows a plus sign or a colon, such as the
driver in a URL scheme, does not count. -/
def ofName? (text : String) : Option Dialect :=
  let cs := (Text.lower (Text.strip text)).toList
  ofAlias? (String.ofList ((cs.takeWhile (· != '+')).takeWhile (· != ':')))

def unknownMessage (text : String) : String :=
  "Unsupported dialect: " ++ Text.shown text

end Dialect

end SqlFerry
