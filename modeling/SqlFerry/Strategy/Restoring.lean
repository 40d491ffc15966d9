import SqlFerry.Restore.File
import SqlFerry.Strategy.Writing

/-!
# Restoring backups

Each strategy restores the formats it reads. Scripts that a tool loads are screened before: the tool
runs them unseen.
-/

namespace SqlFerry.Strategy

open Backup

variable (s : Strategy)

/-! ## Scripts that are run here -/

def runScript (raw : String) (o : RestoreOptions) (tables : Option (List String)) :
    Act Restore.Result := do
  let database ← s.requireDatabase
  let p := Path.ofText raw
  let job : Restore.Job :=
    { database, options := o, wanted := tables.map (·.map Text.lower), path := some p.toText }
  Work.within (fun _ => job) (fun w => { log := w.log, reports := w.reports })
    (fun run w => { w with log := run.log, reports := run.reports })
    (Restore.run (← get).files p)

/-! ## Tools -/

def maxRefusals : Nat :=
  10

def refusals (found : List Statement) : List String :=
  found.filterMap fun x =>
    (Restore.denied? x.text).map fun reason => s!"statement {x.index}: {reason}"

def load (t : Toolset) (p : Path) (o : RestoreOptions) (program : String)
    (argv : List String) (input : Option String) : Act Tool.Outcome := do
  let outcome ← Act.call
    { argv, credentials := t.credentials (← read).connection, input
      timeout := Value.timeoutValue o.timeout }
  Work.ofOutcome (s.checkOutcome program (.restoreFailed p.toText) outcome)
  return outcome

def loadScript (t : Toolset) (p : Path) (o : RestoreOptions) : Act Restore.Result := do
  let text ← Act.look (Backup.text · p)
  match (Restore.Header.ofText? text).filter (·.needsConversion) with
  | some header =>
    let label := header.dialect.elim "" Dialect.label
    throw (.fail (.restoreFailed p.toText
      s!"{s.name} cannot convert a {label} backup; restore it with an SQL strategy" s.context))
  | none =>
    let kind ← Work.ofOutcome (Splitter.Kind.named o.parser)
    let found ← Work.ofOutcome (kind.statements (some s.dialect) text)
    let refused := if o.screen then refusals found else []
    if !refused.isEmpty then
      throw (.fail (.validationFailed p.toText (refused.take maxRefusals)))
    let database ← Work.ofOutcome (s.databaseName (← read).connection)
    let argv := t.loadArguments (← read).connection database o
    let outcome ← s.load t p o t.loadProgram argv (String.ofList text)
    let words := lastWords outcome
    return {
      success := true, sourceDialect := s.dialect
      tally := { total := found.length, executed := found.length, limit := o.maxFailureRecords }
      warnings := if words.isEmpty then [] else [words] }

def loadArchive (t : Toolset) (p : Path) (o : RestoreOptions) : Act Restore.Result := do
  let database ← Work.ofOutcome (s.databaseName (← read).connection)
  let argv := Toolset.archiveArguments (← read).connection database p.toText o
  let _ ← s.load t p o Toolset.archiveProgram argv none
  return { success := true, sourceDialect := s.dialect }

def loadFile (t : Toolset) (p : Path) (o : RestoreOptions) : Act Restore.Result := do
  match t with
  | .mysql => s.loadScript t p o
  | .postgresql =>
    let format ← Act.look (Backup.formatOf · p)
    if format.kind != .pgCustom && format.kind != .pgTar then s.loadScript t p o
    else if format.compressed then
      throw (.fail (.fileCorrupt p.toText "gzip-wrapped pg_dump archives are not supported"))
    else s.loadArchive t p o

/-! ## Images -/

def replaceDatabase (p : Path) : Act Restore.Result := do
  let bs ← Act.look (Backup.contents · p)
  let format ← Act.look (Backup.formatOf · p)
  if format.kind != .sqliteImage || format.compressed then
    throw (.fail (.fileCorrupt p.toText
      s!"expected an uncompressed SQLite database image, found {format.kind.name}"))
  match (← read).imageTrouble bs with
  | some trouble => throw (.fail (.fileCorrupt p.toText s!"integrity check failed: {trouble}"))
  | none =>
    let target ← Work.ofOutcome (s.databaseFile (← read).connection)
    if let some db := (← read).database then Act.on db (Talk.send .dispose)
    Act.change (·.write target bs)
    return { success := true, sourceDialect := s.dialect }

/-! ## Restoring -/

def guarded (raw : String) (restoring : Act Restore.Result) : Act Restore.Result := do
  let mark (r : Restore.Result) : Restore.Result :=
    { r with strategy := some s.name, inputPath := some raw }
  match ← restoring.outcome with
  | .ok r => return mark r
  | .error e =>
    let failure ← Work.ofOutcome (e.asFailure fun text => .restoreFailed raw text s.context)
    return mark (.failed failure)

/-- Restores a file, or of a script only the statements for some tables. -/
def restoreWith (raw : String) (o : RestoreOptions) (tables : Option (List String)) :
    Act Restore.Result :=
  s.guarded raw <| match s with
    | tools t => s.loadFile t (Path.ofText raw) o
    | script _ => s.runScript raw o tables
    | image _ => s.replaceDatabase (Path.ofText raw)

def restore (raw : String) (o : RestoreOptions) : Act Restore.Result :=
  s.restoreWith raw o none

def restoreTables (raw : String) (tables : List String) (o : RestoreOptions) :
    Act Restore.Result :=
  if s.restoresTables then s.restoreWith raw o (some tables)
  else
    let cause : Failure.Cause :=
      .strategyUnavailable s.name s.dialect.name "partial restore is not supported"
    return { Restore.Result.failed { cause } with
      strategy := some s.name, inputPath := some raw }

end SqlFerry.Strategy
