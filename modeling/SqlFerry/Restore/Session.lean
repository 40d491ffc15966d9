import SqlFerry.Restore.Options
import SqlFerry.Statement

/-!
# The session of a restore

The statements that prepare a session for a restore and put it back afterwards, and the statements
of a script that set sequences, which are run once more at its end.
-/

namespace SqlFerry.Restore

open Text Pattern

structure Session where
  setup : List String := []
  teardown : List String := []
  deriving DecidableEq, Repr

namespace Session

def mysqlForeignKeys : Session :=
  { setup := ["SET @DBPORTER_OLD_FK_CHECKS=@@FOREIGN_KEY_CHECKS, FOREIGN_KEY_CHECKS=0"]
    teardown := ["SET FOREIGN_KEY_CHECKS=@DBPORTER_OLD_FK_CHECKS"] }

def mysqlUniqueChecks : Session :=
  { setup := ["SET @DBPORTER_OLD_UNIQUE_CHECKS=@@UNIQUE_CHECKS, UNIQUE_CHECKS=0"]
    teardown := ["SET UNIQUE_CHECKS=@DBPORTER_OLD_UNIQUE_CHECKS"] }

def mysqlModes : Session :=
  { setup := ["SET @DBPORTER_OLD_SQL_MODE=@@SQL_MODE, SQL_MODE='NO_AUTO_VALUE_ON_ZERO'",
      "SET @DBPORTER_OLD_TIME_ZONE=@@TIME_ZONE, TIME_ZONE='+00:00'"]
    teardown := ["SET SQL_MODE=@DBPORTER_OLD_SQL_MODE", "SET TIME_ZONE=@DBPORTER_OLD_TIME_ZONE"] }

def postgresqlTriggers : Session :=
  { setup := ["SET session_replication_role = replica"]
    teardown := ["SET session_replication_role = DEFAULT"] }

def sqliteDeferral : Session :=
  { setup := ["PRAGMA defer_foreign_keys = ON"] }

def sqliteForeignKeys : Session :=
  { setup := ["PRAGMA foreign_keys = OFF"], teardown := ["PRAGMA foreign_keys = ON"] }

def join (a b : Session) : Session :=
  { setup := a.setup ++ b.setup, teardown := a.teardown ++ b.teardown }

def only (b : Bool) (s : Session) : Session :=
  if b then s else {}

/-- MySQL keeps each setting that it changes. PostgreSQL turns triggers off, and foreign keys with
them. SQLite puts the check of foreign keys off to the end of a transaction, or turns it off. -/
def plan (d : Dialect) (o : RestoreOptions) : Session :=
  match d with
  | .mysql => ((only o.foreignKeysDisabled mysqlForeignKeys).join
      (only o.uniqueChecksDisabled mysqlUniqueChecks)).join mysqlModes
  | .postgresql => only o.foreignKeysDisabled postgresqlTriggers
  | .sqlite => only o.foreignKeysDisabled
      (if o.inTransaction then sqliteDeferral else sqliteForeignKeys)

end Session

/-! ## Sequences -/

private def sequencePatterns : Dialect → List Pattern
  | .postgresql => [
      blanks ++ word "SELECT" ++ blanks1 ++ opt (word "pg_catalog" ++ char '.') ++
        word "setval" ++ blanks ++ char '(',
      blanks ++ phrase ["ALTER", "SEQUENCE"] ++ blanks1 ++ star any ++ edge ++ word "RESTART" ++
        edge]
  | .mysql => [
      blanks ++ phrase ["ALTER", "TABLE"] ++ blanks1 ++ plus (one (!isBlank ·)) ++ blanks1 ++
        word "AUTO_INCREMENT" ++ blanks ++ opt (char '=') ++ blanks ++ plus digit ++ blanks ++
        finish]
  | .sqlite => [
      blanks ++ word "UPDATE" ++ blanks1 ++ opt (oneOf "\"\x60[") ++ word "sqlite_sequence" ++
        edge]

def setsSequence (d : Dialect) (text : String) : Bool :=
  (sequencePatterns d).any fun p => (p.match? text.toList).isSome

def sequenceStatements (d : Dialect) (statements : List Statement) : List Statement :=
  statements.filter fun s => setsSequence d s.text

end SqlFerry.Restore
