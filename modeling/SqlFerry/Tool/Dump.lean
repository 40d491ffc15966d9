import SqlFerry.Backup.Options
import SqlFerry.Connection
import SqlFerry.Tool.Command

/-!
# Dump tools

The programs of the servers that write and read whole databases, and their command lines. The
password is not among the arguments: it has a variable of its own.
-/

namespace SqlFerry

inductive Toolset where
  | mysql
  | postgresql
  deriving DecidableEq, Repr

namespace Toolset

def dialect : Toolset → Dialect
  | mysql => .mysql
  | postgresql => .postgresql

def dumpProgram : Toolset → String
  | mysql => "mysqldump"
  | postgresql => "pg_dump"

def loadProgram : Toolset → String
  | mysql => "mysql"
  | postgresql => "psql"

def archiveProgram : String :=
  "pg_restore"

def programs : Toolset → List String
  | mysql => [dumpProgram mysql, loadProgram mysql]
  | postgresql => [dumpProgram postgresql, loadProgram postgresql, archiveProgram]

def passwordVariable : Toolset → String
  | mysql => "MYSQL_PWD"
  | postgresql => "PGPASSWORD"

def credentials (t : Toolset) (c : Connection) : Option Tool.Credentials :=
  (c.password.filter (!·.isEmpty)).map fun password =>
    { password, variableName := some t.passwordVariable }

private def option (name : String) : Option String → List String
  | some value => if value.isEmpty then [] else ["--" ++ name ++ "=" ++ value]
  | none => []

private def flag (name : String) (b : Bool) : List String :=
  if b then [name] else []

def address (t : Toolset) (c : Connection) : List String :=
  let port := c.port.filter (· != 0) |>.map toString
  option "host" c.host ++ option "port" port ++ match t with
    | mysql => option "user" c.username
    | postgresql => option "username" c.username ++ ["--no-password"]

def dumpArguments (t : Toolset) (c : Connection) (database : String) (o : BackupOptions) :
    List String :=
  let tables := o.tables.getD []
  t.dumpProgram :: t.address c ++ match t with
    | mysql =>
      ["--single-transaction", "--skip-lock-tables", "--routines", "--triggers",
        "--default-character-set=utf8mb4", "--hex-blob", "--complete-insert",
        if o.dropExisting then "--add-drop-table" else "--skip-add-drop-table"] ++
      flag "--no-create-info" (!o.includeSchema) ++ flag "--no-data" (!o.includeData) ++
      (o.excludeTables.map fun name => "--ignore-table=" ++ database ++ "." ++ name) ++
      database :: tables
    | postgresql =>
      ["--format=plain", "--encoding=UTF8", "--no-owner", "--no-privileges"] ++
      (if o.dropExisting then ["--clean", "--if-exists"] else []) ++
      flag "--data-only" (!o.includeSchema) ++ flag "--schema-only" (!o.includeData) ++
      tables.map ("--table=" ++ ·) ++ o.excludeTables.map ("--exclude-table=" ++ ·) ++
      ["--dbname=" ++ database]

def loadArguments (t : Toolset) (c : Connection) (database : String) (o : RestoreOptions) :
    List String :=
  t.loadProgram :: t.address c ++ match t with
    | mysql => "--default-character-set=utf8mb4" :: flag "--force" (!o.stopOnError) ++ [database]
    | postgresql => ["--dbname=" ++ database, "--no-psqlrc", "--quiet"] ++
      flag "--set=ON_ERROR_STOP=1" o.stopOnError ++ flag "--single-transaction" o.inTransaction

def archiveArguments (c : Connection) (database path : String) (o : RestoreOptions) :
    List String :=
  archiveProgram :: postgresql.address c ++
    ["--dbname=" ++ database, "--no-owner", "--no-privileges"] ++
    flag "--single-transaction" o.inTransaction ++ flag "--exit-on-error" o.stopOnError ++ [path]

end Toolset

end SqlFerry
