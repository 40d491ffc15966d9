import SqlFerry.Value.Reading

/-!
# Options of a restore

How a script is restored, and reading the options from a record.
-/

namespace SqlFerry

open Value

namespace Value

def readSeconds (v : Value) : Checked Float :=
  (readFloat v).satisfying fun x => if x ≤ 0 then .error (.notAbove 0) else .ok x

/-- The field for a function that is told of progress, which no record can fill. -/
def withoutCallback {α : Type} (v : Value) (x : Checked α) : Checked α :=
  (fun a _ => a) <$> x <*> v.optional "progress_callback" readFunction

def timeoutValue (timeout : Option Float) : Value :=
  match timeout with
  | some x => float x
  | none => int 1800

end Value

structure RestoreOptions where
  forceStrategy : Option String := none
  inTransaction : Bool := true
  disableConstraints : Bool := true
  disableForeignKeys : Bool := true
  disableUniqueChecks : Bool := true
  resetSequences : Bool := true
  stopOnError : Bool := false
  screen : Bool := true
  /-- The way to split the script, `scanner` or `line`. -/
  parser : String := "scanner"
  /-- Whether to convert a script that names another dialect as its target. -/
  convert : Bool := true
  maxFailureRecords : Nat := 100
  /-- How many statements come between two reports. -/
  progressInterval : Nat := 10
  /-- How many seconds a tool may run, if not as long as usual. -/
  timeout : Option Float := none
  deriving Repr

namespace RestoreOptions

def foreignKeysDisabled (o : RestoreOptions) : Bool :=
  o.disableConstraints && o.disableForeignKeys

def uniqueChecksDisabled (o : RestoreOptions) : Bool :=
  o.disableConstraints && o.disableUniqueChecks

private def fieldNames : List String :=
  ["force_strategy", "execute_in_transaction", "disable_constraints", "disable_foreign_keys",
   "disable_unique_checks", "reset_sequences", "stop_on_error", "validate_statements", "parser",
   "translate", "max_failure_records", "progress_interval", "timeout", "progress_callback"]

def ofValue (v : Value) : Checked RestoreOptions :=
  let read := RestoreOptions.mk <$> v.optional "force_strategy" readText <*>
    v.withDefault "execute_in_transaction" true readBool <*>
    v.withDefault "disable_constraints" true readBool <*>
    v.withDefault "disable_foreign_keys" true readBool <*>
    v.withDefault "disable_unique_checks" true readBool <*>
    v.withDefault "reset_sequences" true readBool <*>
    v.withDefault "stop_on_error" false readBool <*>
    v.withDefault "validate_statements" true readBool <*>
    v.withDefault "parser" "scanner" readText <*> v.withDefault "translate" true readBool <*>
    v.withDefault "max_failure_records" 100 (readAtLeast 0) <*>
    v.withDefault "progress_interval" 10 (readAtLeast 1) <*>
    v.withUnset "timeout" readSeconds
  v.onlyFields fieldNames (v.withoutCallback read)

end RestoreOptions

end SqlFerry
