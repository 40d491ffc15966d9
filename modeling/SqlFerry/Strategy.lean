import SqlFerry.Backup.Format
import SqlFerry.Tool.Dump
import SqlFerry.Value.Whole

/-!
# Strategies

The ways to back up and restore a database: with the tools of its server, as a script that is made
here, or as an image of an SQLite file. Of the ways that work for a database the one with the
lowest rank is taken.
-/

namespace SqlFerry

inductive ImageCopy where
  | native
  | vacuum
  | file
  deriving DecidableEq, Repr

inductive Strategy where
  | tools (t : Toolset)
  | script (d : Dialect)
  | image (way : ImageCopy)
  deriving DecidableEq, Repr

namespace Strategy

open Backup

def dialects : List Dialect :=
  [.mysql, .postgresql, .sqlite]

/-- The strategies for a dialect; of two with one rank the first is taken. -/
def all : Dialect → List Strategy
  | .mysql => [tools .mysql, script .mysql]
  | .postgresql => [tools .postgresql, script .postgresql]
  | .sqlite => [image .native, image .vacuum, script .sqlite, image .file]

def name : Strategy → String
  | tools .mysql => "mysql_shell"
  | tools .postgresql => "postgresql_shell"
  | script d => d.name ++ "_sql"
  | image .native => "sqlite_native"
  | image .vacuum => "sqlite_vacuum"
  | image .file => "sqlite_file_copy"

def dialect : Strategy → Dialect
  | tools t => t.dialect
  | script d => d
  | image _ => .sqlite

def description : Strategy → String
  | tools .mysql => "MySQL Shell Backup (mysqldump via secure subprocess)"
  | tools .postgresql => "PostgreSQL Shell Backup (pg_dump via secure subprocess)"
  | script .sqlite => "SQLite SQL Dump (in-process generation)"
  | script d => d.label ++ " SQL Backup (in-process generation)"
  | image .native => "SQLite Native Backup (online backup API)"
  | image .vacuum => "SQLite VACUUM INTO Backup (compacted copy)"
  | image .file => "SQLite File Copy Backup (checkpoint and copy)"

def rank : Strategy → Nat
  | tools _ | image .native => 1
  | script .sqlite => 3
  | script _ | image .vacuum => 2
  | image .file => 4

def compresses : Strategy → Bool
  | tools _ | script _ => true
  | image _ => false

def restoresTables : Strategy → Bool
  | script _ => true
  | tools _ | image _ => false

def formats : Strategy → List FormatKind
  | tools .mysql => [.sql .mysql, .genericSql]
  | tools .postgresql => [.sql .postgresql, .genericSql, .pgCustom, .pgTar]
  | script _ => .genericSql :: Dialect.all.map .sql
  | image _ => [.sqliteImage]

def writesSql (s : Strategy) : Bool :=
  s.formats.any (·.isSql)

private def megabyte : Nat :=
  1024 * 1024

def bytesPerSecond : Strategy → Nat
  | tools .mysql => 5 * megabyte
  | tools .postgresql => 8 * megabyte
  | script .sqlite => megabyte
  | script _ => 2 * megabyte
  | image .native => 10 * megabyte
  | image .vacuum => 8 * megabyte
  | image .file => 20 * megabyte

def minimumSeconds : Strategy → Nat
  | tools _ | script .sqlite => 30
  | script _ => 60
  | image .native => 10
  | image .vacuum => 15
  | image .file => 5

def secondsFor (s : Strategy) (size : Int) : Nat :=
  max s.minimumSeconds (Value.quotientCut size.toNat s.bytesPerSecond)

def requirements : Strategy → List String
  | tools .mysql => ["shell_access", "mysqldump_command", "mysql_command"]
  | tools .postgresql => ["shell_access", "pg_dump_command", "psql_command"]
  | script _ => ["database_connection"]
  | image .native => ["sqlite3_module", "database_file"]
  | image .vacuum => ["sqlite_3.27.0+", "database_file"]
  | image .file => ["database_file", "database_readable"]

def advantages : Strategy → List String
  | tools .mysql => ["Complete schema and data export",
      "Routines, triggers and MySQL-specific features",
      "Consistent snapshot with --single-transaction"]
  | tools .postgresql => ["Complete schema and data export",
      "PostgreSQL-specific features support", "Restores pg_dump custom and tar archives"]
  | script _ => ["No external tools required",
      "Portable output with optional cross-dialect conversion", "Partial restore by table"]
  | image .native => ["Atomic, consistent snapshot", "Safe with concurrent writers and WAL mode"]
  | image .vacuum => ["Compacted, defragmented output", "Single statement operation"]
  | image .file => ["Works everywhere", "Fastest for small databases"]

def limitations : Strategy → List String
  | tools .mysql => ["Requires mysqldump and mysql on PATH", "Whole dump is buffered in memory"]
  | tools .postgresql =>
    ["Requires pg_dump, psql and pg_restore on PATH", "Whole dump is buffered in memory"]
  | script _ => ["Slower than native tools on large databases",
      "Views, routines and triggers are not exported"]
  | image .file => ["Not safe against concurrent writers", "Whole database only"]
  | image _ => ["Whole database only", "No compression or cross-dialect conversion"]

variable (s : Strategy)

def descriptor : Value :=
  .record [("strategy_type", s.name), ("dialect", s.dialect.name),
    ("description", s.description), ("compression", s.compresses),
    ("criteria", .record [("priority", s.rank), ("requirements", .texts s.requirements),
      ("advantages", .texts s.advantages), ("limitations", .texts s.limitations)])]

def context : Context :=
  [("strategy", s.name), ("dialect", s.dialect.name)]

def unavailable (reason : String) : Fault :=
  .fail (.strategyUnavailable s.name s.dialect.name reason)

end Strategy

end SqlFerry
