import SqlFerry.Value.Reading

/-!
# The tally of a restore

How many statements ran, failed and were skipped, and the first of the failures.
-/

namespace SqlFerry.Restore

structure FailedStatement where
  index : Int
  preview : String
  message : String
  deriving DecidableEq, Repr

open Value

def FailedStatement.ofValue : Value → Checked FailedStatement :=
  readRecord "FailureRecord" fun v =>
    FailedStatement.mk <$> v.required "index" readInt <*> v.required "preview" readText <*>
      v.required "message" readText

/-- `failures` holds the first `limit` failures, and `unrecorded` counts the others. -/
structure Tally where
  total : Int := 0
  executed : Int := 0
  failed : Int := 0
  skipped : Int := 0
  sequencesReset : Int := 0
  sequenceFailures : Int := 0
  failures : List FailedStatement := []
  unrecorded : Int := 0
  limit : Int := 100
  deriving DecidableEq, Repr

namespace Tally

def accounted (t : Tally) : Int :=
  t.executed + t.failed + t.skipped

def expecting (t : Tally) (total limit : Nat) : Tally :=
  { t with total, limit }

def recordFailure (t : Tally) (f : FailedStatement) : Tally :=
  if t.failures.length < t.limit then
    { t with failed := t.failed + 1, failures := t.failures ++ [f] }
  else { t with failed := t.failed + 1, unrecorded := t.unrecorded + 1 }

def increase (t : Tally) (counter : String) (n : Int) : Except Fault Tally :=
  match counter with
  | "total" => .ok { t with total := t.total + n }
  | "executed" => .ok { t with executed := t.executed + n }
  | "failed" => .ok { t with failed := t.failed + n }
  | "skipped" => .ok { t with skipped := t.skipped + n }
  | "sequences_reset" => .ok { t with sequencesReset := t.sequencesReset + n }
  | "sequence_failures" => .ok { t with sequenceFailures := t.sequenceFailures + n }
  | "failures_truncated" => .ok { t with unrecorded := t.unrecorded + n }
  | "max_failure_records" => .ok { t with limit := t.limit + n }
  | "failures" => .error (.mistyped "the failures are no counter")
  | other => .error (.partless ("there is no counter named " ++ other))

/-- The tally with the statements that were not reached as skipped. -/
def settle (t : Tally) : Tally :=
  { t with skipped := t.skipped + (t.total - t.accounted).toNat }

def toValue (t : Tally) : Value :=
  .record [("total", t.total), ("executed", t.executed), ("failed", t.failed),
    ("skipped", t.skipped), ("sequences_reset", t.sequencesReset),
    ("sequence_failures", t.sequenceFailures),
    ("failures", .list (t.failures.map fun f =>
      .record [("index", f.index), ("preview", f.preview), ("message", f.message)])),
    ("failures_truncated", t.unrecorded), ("max_failure_records", t.limit)]

def ofValue (v : Value) : Checked Tally :=
  Tally.mk <$> v.withDefault "total" 0 readInt <*> v.withDefault "executed" 0 readInt <*>
    v.withDefault "failed" 0 readInt <*> v.withDefault "skipped" 0 readInt <*>
    v.withDefault "sequences_reset" 0 readInt <*> v.withDefault "sequence_failures" 0 readInt <*>
    v.withDefault "failures" [] (readList FailedStatement.ofValue) <*>
    v.withDefault "failures_truncated" 0 readInt <*>
    v.withDefault "max_failure_records" 100 readInt

end Tally

end SqlFerry.Restore
