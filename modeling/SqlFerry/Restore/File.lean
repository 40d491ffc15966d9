import SqlFerry.Backup.Reading
import SqlFerry.Convert.Script
import SqlFerry.Restore.Run
import SqlFerry.Splitter.Kind

/-!
# Restoring files

A backup file is read, split into statements, and converted if its header names another dialect as
its target. Then its statements are run.
-/

namespace SqlFerry.Restore

open Restoring

structure Prepared where
  statements : List Statement
  source : Dialect
  converted : Bool := false
  warnings : List String := []

namespace Job

variable (job : Job)

def convert (header : Option Header) (source : Dialect) (found : List Statement) :
    Except Fault Prepared := do
  let own := job.database.dialect
  match header.filter (fun h => h.needsConversion && job.options.convert) with
  | some h =>
    let misdirected := match h.targetDialect with
      | some t => if t == own then [] else
          [s!"Backup was converted for {t.label} but is restored into {own.label}"]
      | none => []
    let script ← Convert.statements { source, target := own } found
    return { statements := script.statements, source, converted := true
             warnings := misdirected ++ script.warnings.map (·.display) }
  | none =>
    let foreign := if source == own then [] else
      [s!"Backup was written for {source.label}; statements are executed unchanged against " ++
        own.label]
    return { statements := found, source, warnings := foreign }

def parse (text : Text.Chars) : Except Fault Prepared := do
  let header := Header.ofText? text
  let source := (header.bind (·.dialect)).getD job.database.dialect
  let kind ← Splitter.Kind.named job.options.parser
  job.convert header source (← kind.statements (some source) text)

end Job

def prepare (files : Files) (p : Path) : Restoring Prepared := do
  let job ← read
  report 5 "Reading backup file"
  let text ← Work.ofOutcome (Backup.text files p)
  report 10 "Parsing statements"
  Work.ofOutcome (job.parse text)

/-- Restores the script in a file. A failure is a result as well. -/
def run (files : Files) (p : Path) : Restoring Result := do
  let limit := (← read).options.maxFailureRecords
  count fun t => { t with limit }
  let inputPath := some p.toText
  match ← (prepare files p).outcome with
  | .error (.failure f) => return { Result.failed f with inputPath, tally := (← get).tally }
  | .error e => throw e
  | .ok script =>
    let result ← runAll script.statements
    return { result with
      inputPath
      sourceDialect := some script.source
      converted := script.converted
      warnings := script.warnings ++ result.warnings }

end SqlFerry.Restore
