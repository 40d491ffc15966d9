import SqlFerry.Value

/-!
# Failures of backups and restores

What can go wrong structurally, as causes. Each cause has a kind, a technical message, a context of
named details, and by its kind a message for the person who ran the operation.
-/

namespace SqlFerry

abbrev Context := List (String × Value)

namespace Context

/-- The details of `a` with those of `b`, which replace equal names. -/
def merge (a b : Context) : Context :=
  b.foldl (fun acc f => Value.insertField f.1 f.2 acc) a

def text? (c : Context) (k : String) : Option String :=
  (Value.record c).field? k |>.bind Value.text?

end Context

namespace Failure

inductive Kind where
  | fileNotFound
  | fileEmpty
  | fileCorrupt
  | permissionDenied
  | diskSpace
  | strategyUnavailable
  | databaseConnection
  | validationFailed
  | restoreFailed
  | backupFailed
  | timeout
  | parseError
  | general
  deriving DecidableEq, Repr

namespace Kind

def name : Kind → String
  | fileNotFound => "file_not_found"
  | fileEmpty => "file_empty"
  | fileCorrupt => "file_corrupt"
  | permissionDenied => "permission_denied"
  | diskSpace => "disk_space"
  | strategyUnavailable => "strategy_unavailable"
  | databaseConnection => "database_connection"
  | validationFailed => "validation_failed"
  | restoreFailed => "restore_failed"
  | backupFailed => "backup_failed"
  | timeout => "timeout"
  | parseError => "parse_error"
  | general => "general"

def all : List Kind :=
  [fileNotFound, fileEmpty, fileCorrupt, permissionDenied, diskSpace, strategyUnavailable,
   databaseConnection, validationFailed, restoreFailed, backupFailed, timeout, parseError, general]

def ofName? (s : String) : Option Kind :=
  all.find? (·.name == s)

def isFileRelated (k : Kind) : Bool :=
  [fileNotFound, fileEmpty, fileCorrupt, permissionDenied].contains k

def isResourceRelated (k : Kind) : Bool :=
  [diskSpace, timeout].contains k

/-- What the person who ran the operation is told; `message` is the technical text. -/
def userMessage (message : String) : Kind → String
  | fileNotFound =>
    "The backup file could not be found. Please check the file path and try again."
  | fileEmpty =>
    "The backup file is empty or corrupted. Please create a new backup and try again."
  | fileCorrupt => "The backup file appears to be corrupted and cannot be restored."
  | permissionDenied => "Permission denied. Please check file permissions and try again."
  | diskSpace =>
    "Insufficient disk space to complete the operation. Please free up space and try again."
  | strategyUnavailable =>
    "The required backup method is not available. Please check your system configuration."
  | databaseConnection =>
    "Unable to connect to the database. Please check your connection settings."
  | validationFailed => "The backup file failed validation checks and may be corrupted."
  | restoreFailed =>
    "The database restore operation failed. Please check the backup file and try again."
  | backupFailed => "The database backup operation failed. Please try again."
  | timeout => "The operation timed out. Please try again or increase the timeout limit."
  | parseError => "The backup file contains malformed SQL and could not be parsed."
  | general => "A backup/restore error occurred: " ++ message

end Kind

inductive Cause where
  | fileNotFound (path operation : String)
  | fileEmpty (path : String)
  | fileCorrupt (path reason : String)
  | permissionDenied (path operation : String)
  /-- `required` and `available` are numbers. -/
  | diskSpace (path : String) (required available : Value)
  | strategyUnavailable (strategy : String) (dialect : Option String) (reason : String)
  | databaseConnection (dialect : Option String) (details : String)
  | validationFailed (path : String) (errors : List String)
  | restoreFailed (path : Option String) (reason : String) (more : Context)
  | backupFailed (path : Option String) (reason : String) (more : Context)
  /-- `seconds` is a number, or what else has a short form. -/
  | timeout (operation : String) (seconds : Value) (more : Context)
  /-- A script that cannot be split, with the place of the trouble in numbers. -/
  | malformed (reason : String) (offset line : Value)
  /-- A schema feature that the target dialect cannot express. -/
  | inexpressible (message : String) (context : Context)
  | other (message : String) (kind : Kind) (context : Context)
  deriving Repr

namespace Cause

def kind : Cause → Kind
  | fileNotFound .. => .fileNotFound
  | fileEmpty .. => .fileEmpty
  | fileCorrupt .. => .fileCorrupt
  | permissionDenied .. => .permissionDenied
  | diskSpace .. => .diskSpace
  | strategyUnavailable .. => .strategyUnavailable
  | databaseConnection .. => .databaseConnection
  | validationFailed .. => .validationFailed
  | restoreFailed .. => .restoreFailed
  | backupFailed .. => .backupFailed
  | timeout .. => .timeout
  | malformed .. => .parseError
  | inexpressible .. => .validationFailed
  | other _ kind _ => kind

def message : Cause → String
  | fileNotFound path _ => "Backup file not found: " ++ path
  | fileEmpty path => "Backup file is empty: " ++ path
  | fileCorrupt path reason => "Backup file is corrupted: " ++ path ++
    if reason.isEmpty then "" else s!" ({reason})"
  | permissionDenied path operation => s!"Permission denied for {operation}: {path}"
  | diskSpace path required available =>
    s!"Insufficient disk space at {path}: required {required.scalarText} bytes, " ++
      s!"available {available.scalarText} bytes"
  | strategyUnavailable strategy dialect reason =>
    s!"Backup strategy '{strategy}' is not available" ++
      (match dialect with
        | some d => if d.isEmpty then "" else " for " ++ d
        | none => "") ++
      if reason.isEmpty then "" else ": " ++ reason
  | databaseConnection _ details => "Database connection failed: " ++ details
  | validationFailed _ errors => "Backup validation failed: " ++ "; ".intercalate errors
  | restoreFailed _ reason _ => "Restore failed: " ++ reason
  | backupFailed _ reason _ => "Backup failed: " ++ reason
  | timeout operation seconds _ =>
    "Command timeout after " ++ seconds.shortText?.getD seconds.scalarText ++ " seconds: " ++
      operation
  | malformed reason offset line =>
    s!"{reason} at offset {offset.scalarText} (line {line.scalarText})"
  | inexpressible message _ => message
  | other message _ _ => message

private def pathValue : Option String → Value
  | some p => if p.isEmpty then .null else p
  | none => .null

def context : Cause → Context
  | fileNotFound path operation | permissionDenied path operation =>
    [("path", path), ("operation", operation)]
  | fileEmpty path => [("path", path)]
  | fileCorrupt path reason => [("path", path), ("reason", reason)]
  | diskSpace path required available =>
    [("path", path), ("required_bytes", required), ("available_bytes", available)]
  | strategyUnavailable strategy dialect reason =>
    [("strategy", strategy), ("dialect", .ofOption .text dialect), ("reason", reason)]
  | databaseConnection dialect details =>
    [("dialect", .ofOption .text dialect), ("details", details)]
  | validationFailed path errors => [("path", path), ("errors", .texts errors)]
  | restoreFailed path _ more | backupFailed path _ more =>
    Context.merge [("path", pathValue path)] more
  | timeout operation seconds more =>
    Context.merge [("operation", operation), ("timeout_seconds", seconds)] more
  | malformed _ offset line => [("offset", offset), ("line", line)]
  | inexpressible _ context => context
  | other _ _ context => context

end Cause

end Failure

structure Failure where
  cause : Failure.Cause
  because : Option (String × String) := none
  deriving Repr

namespace Failure

def kind (f : Failure) : Kind := f.cause.kind
def message (f : Failure) : String := f.cause.message
def context (f : Failure) : Context := f.cause.context
def userMessage (f : Failure) : String := f.kind.userMessage f.message

def className (f : Failure) : String :=
  match f.cause with
  | .malformed .. => "ParseError"
  | .inexpressible .. => "UnsupportedFeatureError"
  | _ => "BackupError"

def becauseText (f : Failure) : Option String :=
  f.because.map fun (name, text) => name ++ ": " ++ text

end Failure

end SqlFerry
