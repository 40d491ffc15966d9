import SqlFerry.Backup.Reading
import SqlFerry.Splitter.Kind
import SqlFerry.Strategy

/-!
# Checking backups

Whether a file is a backup that a strategy can restore. Scripts are split to their end, so that a
malformed one is found out before a restore.
-/

namespace SqlFerry.Backup

structure CheckReport where
  path : String
  format : Option Format := none
  size : Nat := 0
  statements : Nat := 0
  errors : List String := []
  warnings : List String := []
  deriving Repr

namespace CheckReport

variable (r : CheckReport)

def valid : Bool :=
  r.errors.isEmpty

def formatName : Option String :=
  r.format.map (·.kind.name)

def dialectName : Option String :=
  (r.format.bind (·.kind.dialect)).map Dialect.name

def compressed : Bool :=
  (r.format.map (·.compressed)).getD false

def isSql : Bool :=
  (r.format.map (·.kind.isSql)).getD false

def toValue : Value :=
  .record [("valid", r.valid), ("path", r.path), ("format_id", .ofOption .text r.formatName),
    ("dialect", .ofOption .text r.dialectName), ("compressed", r.compressed),
    ("size_bytes", r.size), ("statement_count", r.statements), ("errors", .texts r.errors),
    ("warnings", .texts r.warnings)]

end CheckReport

end SqlFerry.Backup

namespace SqlFerry.Strategy

open Backup

variable (s : Strategy)

def readScript (files : Files) (p : Path) (format : Format) : Except Fault (Nat × List String) := do
  let text ← Backup.text files p
  let d := format.kind.dialect.getD s.dialect
  let found ← Splitter.Kind.scanner.statements (some d) text
  let empty := if found.isEmpty then ["Backup contains no statements"] else []
  let origin := match Restore.Header.ofText? text with
    | none => ["No dbporter header; dialect was inferred from content"]
    | some h => match h.needsConversion, h.dialect, h.targetDialect with
      | true, some a, some b => [s!"Backup requests conversion from {a.label} to {b.label}"]
      | _, _, _ => []
  return (found.length, empty ++ origin)

/-- Checks a file; `imageTrouble` tells what is wrong with an image. -/
def check (files : Files) (imageTrouble : Bytes.Octets → Option String) (raw : String) :
    Except Fault CheckReport := do
  let p := Path.ofText raw
  let report : CheckReport := { path := raw }
  match Backup.contents files p with
  | .error (.failure f) => return { report with errors := [f.message] }
  | .error e => throw e
  | .ok bs =>
    let format := Format.ofBytes bs
    let report := { report with format := some format, size := bs.length }
    if !s.formats.contains format.kind then
      return { report with errors :=
          [s!"Format {format.kind.name} cannot be restored by {s.name}"] }
    else if format.kind.isSql then
      match s.readScript files p format with
      | .ok (statements, warnings) => return { report with statements, warnings }
      | .error e => return { report with errors := [e.message] }
    else match s, imageTrouble bs with
      | image _, some trouble =>
        return { report with errors := ["Integrity check failed: " ++ trouble] }
      | _, _ => return report

def restoreOptions (files : Files) (imageTrouble : Bytes.Octets → Option String) (raw : String) :
    Except Fault (List (String × Value)) := do
  let r ← s.check files imageTrouble raw
  return [("full_restore", r.valid), ("format", .ofOption .text r.formatName),
    ("dialect", .ofOption .text r.dialectName), ("compressed", r.compressed),
    ("execute_in_transaction", r.isSql), ("validate_statements", r.isSql),
    ("partial_restore", s.restoresTables), ("statement_count", (r.statements : Value)),
    ("estimated_duration_seconds", (s.secondsFor r.size : Value))]

end SqlFerry.Strategy
