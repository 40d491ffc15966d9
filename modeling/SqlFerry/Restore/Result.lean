import SqlFerry.Failure.Report
import SqlFerry.Restore.Tally

/-!
# Results of restores
-/

namespace SqlFerry.Restore

structure Result where
  success : Bool
  strategy : Option String := none
  inputPath : Option String := none
  tally : Tally := {}
  sourceDialect : Option Dialect := none
  /-- Whether the script was converted from another dialect. -/
  converted : Bool := false
  warnings : List String := []
  rolledBack : Bool := false
  failure : Option Failure := none
  deriving Repr

namespace Result

def failed (f : Failure) : Result :=
  { success := false, failure := some f }

def toValue (r : Result) : Value :=
  .record [("success", r.success), ("strategy", .ofOption .text r.strategy),
    ("input_path", .ofOption .text r.inputPath), ("statistics", r.tally.toValue),
    ("source_dialect", .ofOption .text (r.sourceDialect.map Dialect.name)),
    ("translated", r.converted), ("warnings", .texts r.warnings), ("rolled_back", r.rolledBack),
    ("error", .ofOption (·.report.toValue) r.failure)]

end Result

end SqlFerry.Restore
