import SqlFerry.Failure.Report

/-!
# Results of backups
-/

namespace SqlFerry.Backup

structure Details where
  compressed : Bool := false
  format : Option String := none
  tables : List String := []
  rows : Nat := 0
  facts : List (String × Value) := []
  warnings : List String := []
  deriving Repr

structure Result extends Details where
  success : Bool
  strategy : Option String := none
  outputPath : Option String := none
  size : Nat := 0
  failure : Option Failure := none
  deriving Repr

namespace Result

def failed (f : Failure) (strategy : Option String) (outputPath : String) : Result :=
  { success := false, strategy, outputPath := some outputPath, failure := some f }

def toValue (r : Result) : Value :=
  .record [("success", r.success), ("strategy", .ofOption .text r.strategy),
    ("output_path", .ofOption .text r.outputPath), ("size_bytes", r.size),
    ("compressed", r.compressed), ("format_id", .ofOption .text r.format),
    ("tables", .texts r.tables), ("rows", r.rows), ("metadata", .record r.facts),
    ("warnings", .texts r.warnings), ("error", .ofOption (·.report.toValue) r.failure)]

end Result

end SqlFerry.Backup
