import SqlFerry.CommandLine.Console
import SqlFerry.CommandLine.Usage
import SqlFerry.Config
import SqlFerry.Migration
import SqlFerry.Operations

/-!
# Running commands

Each command works on the files and on the database that the options or the configuration name,
shows what came of it, and ends with an exit code: 0 if all went well.
-/

namespace SqlFerry.CommandLine

open Text

/-- What commands find around them. -/
structure Place where
  environment : List (String × String) := []
  /-- What is around the work on a database. -/
  around : Connection → Surroundings
  /-- The database that a migration writes. -/
  target : Connection → Database
  /-- The path of the working directory. -/
  folder : String
  /-- The text of the present time, in headers and in names of files. -/
  now : String
  stamp : String
  /-- The text of how long the work took. -/
  elapsed : String

/-- What commands leave behind: files, what they showed, and what they wrote as output. -/
structure Session where
  world : World := {}
  items : List Item := []
  output : String := ""

abbrev Cli := Work Place Session

namespace Cli

variable {α : Type}

def display (i : Item) : Cli Unit :=
  modify fun s => { s with items := s.items ++ [i] }

def say (markup : String) : Cli Unit :=
  display (.line markup)

def warn (texts : List String) : Cli Unit :=
  texts.forM fun text => say ("[yellow]! " ++ escape text ++ "[/yellow]")

private def cross : String :=
  "[bold red]x[/bold red] "

private def tick : String :=
  "[bold green]v[/bold green] "

private def bold (text : String) : String :=
  "[bold cyan]" ++ text ++ "[/bold cyan]"

private def percentText (p : Nat) : String :=
  let cs := (toString p).toList
  String.ofList (List.replicate (3 - cs.length) ' ' ++ cs)

def showReports (reports : List Progress) : Cli Unit :=
  reports.forM fun p => say s!"[dim]{percentText p.percent}% {p.operation}[/dim]"

def workOn (c : Connection) (verbose : Bool) (work : Act α) : Cli α := do
  let closing : Act Unit := do
    if let some db := (← read).database then Act.on db (Talk.send .dispose)
  modify fun s => { s with world := { s.world with reports := [] } }
  let a ← Work.within (·.around c) Session.world (fun w s => { s with world := w })
    (work.andFinally closing)
  if verbose then showReports (← get).world.reports
  return a

def sayFailure (f : Failure) : Cli Unit := do
  say (cross ++ escape f.userMessage)
  say ("  [dim]" ++ f.kind.name ++ ": " ++ escape f.message ++ "[/dim]")

/-! ## What to work on -/

def configuration (g : Given) : Cli (Option Config) := do
  let files := (← get).world.files
  match g.filled? "--config" with
  | some path =>
    let p := Path.ofText path
    some <$> Work.ofOutcome (Config.load files p p.toText)
  | none =>
    let usual := Path.ofText Config.defaultFile
    if ← Work.ofOutcome (files.has usual) then
      some <$> Work.ofOutcome (Config.load files usual ((← read).folder ++ "/" ++ usual.toText))
    else return none

def database (g : Given) (config : Option Config) : Cli Connection := do
  match g.text? "--url" with
  | some url => Work.ofOutcome (Connection.ofUrl url)
  | none =>
    let usual := Path.ofText Config.defaultFile
    let config ← match config with
      | some c => pure c
      | none => Work.ofOutcome (Config.load (← get).world.files usual
          ((← read).folder ++ "/" ++ usual.toText))
    let (_, p) ← Work.ofOutcome (config.profile (g.text? "--profile") (← read).environment
      ((g.text? "--env-prefix").getD ""))
    Work.ofOutcome (Connection.ofUrl p.resolvedUrl)

def begun (first : Cli α) (rest : α → Cli Nat) : Cli Nat := do
  match ← first.outcome with
  | .ok a => rest a
  | .error e => match e with
    | .missingFile _ | .noProfile _ | .refused _ | .invalid _ =>
      say ("[red]Error: " ++ escape e.message ++ "[/red]")
      return 1
    | _ => throw e

private def timeout (given : Given) (settings : Settings) : Except Fault Float :=
  let x := ((given.text? "--timeout").bind Value.floatOf?).getD 0
  let x := if x == 0 then settings.timeout else x
  ((Value.readSeconds (.float x)).under "timeout").toExcept

/-! ## Backups and restores -/

private def usualOutput (c : Connection) (settings : Settings) (compress : Bool) (stamp : String) :
    Path :=
  let name := match c.database.filter (!·.isEmpty) with
    | some d => (Path.ofText d).stem
    | none => c.dialect.name
  let ending := if compress then ".sql.gz" else ".sql"
  (Path.ofText settings.outputFolder).below (Path.ofText (name ++ "-" ++ stamp ++ ending))

private def yesNo (b : Bool) : String :=
  if b then "yes" else "no"

private def textOf (value : Option String) : String :=
  value.getD "None"

private def verbose (l : Line) : Bool :=
  l.globals.has "--verbose"

def backup (l : Line) : Cli Nat :=
  let first : Cli (Connection × Settings) := do
    let config ← configuration l.globals
    return (← database l.globals config, (config.map (·.settings)).getD {})
  begun first fun (c, settings) => do
    let g := l.given
    let compress := g.has "--compress" || settings.compress
    let stamp := (← read).stamp
    let destination := match g.filled? "--output" with
      | some path => Path.ofText path
      | none => usualOutput c settings compress stamp
    let o : BackupOptions :=
      { forceStrategy := g.text? "--strategy", compress
        includeSchema := !g.has "--data-only", includeData := !g.has "--schema-only"
        tables := commaList (g.text? "--tables")
        excludeTables := (commaList (g.text? "--exclude-tables")).getD []
        targetDialect := g.text? "--target-dialect"
        timeout := some (← Work.ofOutcome (timeout g settings)) }
    say s!"Backing up [bold]{c.displayUrl}[/bold]..."
    let r ← workOn c (verbose l) (Operations.backup destination o)
    match r.failure with
    | some f =>
      sayFailure f
      return 1
    | none =>
      let tables := if r.tables.isEmpty then [] else [("Tables", toString r.tables.length)]
      let size ← Work.ofOutcome (sizeText r.size)
      display (.facts "Backup Complete" ([("Strategy", bold (textOf r.strategy)),
        ("Output", textOf r.outputPath), ("Size", size),
        ("Compressed", yesNo r.compressed), ("Duration", (← read).elapsed)] ++ tables))
      warn r.warnings
      return 0

def maxFailures : Nat :=
  10

private def showRestore (r : Restore.Result) : Cli Unit := do
  let t := r.tally
  match r.failure with
  | some f =>
    sayFailure f
    if r.rolledBack then say "  [yellow]Transaction rolled back; no changes kept.[/yellow]"
  | none => say (tick ++ "Restored with " ++ bold (textOf r.strategy))
  let sequences := if t.sequencesReset = 0 && t.sequenceFailures = 0 then [] else
    [("Sequences reset", toString t.sequencesReset)]
  let converted := if r.converted then
    [("Translated from", textOf (r.sourceDialect.map Dialect.name))] else []
  display (.facts "Restore Statistics" ([("Statements", toString t.total),
    ("Executed", s!"[green]{t.executed}[/green]"),
    ("Failed", if t.failed = 0 then "0" else s!"[red]{t.failed}[/red]"),
    ("Skipped", toString t.skipped)] ++ sequences ++ converted ++
    [("Duration", (← read).elapsed)]))
  if !t.failures.isEmpty then
    display (.table "Failed Statements" ["#", "Statement", "Error"]
      ((t.failures.take maxFailures).map fun f =>
        [toString f.index, escape f.preview, escape f.message]))
    let hidden := t.failed - min t.failures.length maxFailures
    if 0 < hidden then say s!"[dim]... and {hidden} more[/dim]"
  warn r.warnings

def restore (l : Line) : Cli Nat :=
  let first : Cli (Connection × Settings) := do
    let config ← configuration l.globals
    return (← database l.globals config, (config.map (·.settings)).getD {})
  begun first fun (c, settings) => do
    let g := l.given
    let o : RestoreOptions :=
      { forceStrategy := g.text? "--strategy", inTransaction := !g.has "--no-transaction"
        stopOnError := g.has "--stop-on-error" || settings.stopOnError
        screen := settings.screen && !g.has "--no-validate"
        resetSequences := !g.has "--no-sequences", convert := !g.has "--no-translate"
        parser := (g.text? "--parser").getD "scanner"
        timeout := some (← Work.ofOutcome (timeout g settings)) }
    let input := (g.text? "--input").getD ""
    say s!"Restoring [bold]{input}[/bold]..."
    let r ← workOn c (verbose l) (Operations.restore input (commaList (g.text? "--tables")) o)
    showRestore r
    return if r.success && r.tally.failed = 0 then 0 else 1

/-! ## Looking at backups and databases -/

private def anyDatabase (l : Line) : Cli Connection := do
  database l.globals (← configuration l.globals)

private def optionText? (options : Value) (key : String) : Option String :=
  (options.field? key).bind Value.text?

def validate (l : Line) : Cli Nat :=
  begun (anyDatabase l) fun c => do
    let input := (l.given.text? "--input").getD ""
    let (r, options) ← workOn c false do
      let r ← Operations.check input
      return (r, ← if r.valid then Operations.restoreOptions input else pure (.record []))
    let statements := if r.statements = 0 then [] else [("Statements", toString r.statements)]
    let restoring := match optionText? options "strategy" with
      | some name => [("Restore strategy", name), ("Partial restore",
          yesNo (((options.field? "partial_restore").bind Value.bool?).getD false))]
      | none => []
    let size ← Work.ofOutcome (sizeText r.size)
    display (.facts ("Backup: " ++ input) ([("Format", textOf r.formatName),
      ("Dialect", r.dialectName.getD "unknown"), ("Compressed", yesNo r.compressed),
      ("Size", size)] ++ statements ++ restoring))
    warn r.warnings
    if r.valid then
      say (tick ++ "Backup is valid")
      return 0
    r.errors.forM fun e => say (cross ++ escape e)
    return 1

private def coloured (name : String) (ok : Bool) : String :=
  if ok then "[green]" ++ name ++ "[/green]" else "[red]" ++ name ++ "[/red]"

private def probeRow (r : Strategy.Probe) : List String :=
  let details := "; ".intercalate (r.details.map fun (k, text) => k ++ ": " ++ text)
  [r.strategy.name, coloured (yesNo r.available) r.available,
    ", ".intercalate (r.checks.map fun (k, ok) => coloured k ok),
    (r.error.filter (!·.isEmpty)).getD details]

def test (l : Line) : Cli Nat :=
  begun (anyDatabase l) fun c => do
    say s!"Probing [bold]{c.displayUrl}[/bold]..."
    let probes ← workOn c false Operations.probes
    display (.table "Strategy Capabilities" ["Strategy", "Available", "Checks", "Details"]
      (probes.map probeRow))
    return if probes.any (·.available) then 0 else 1

def estimate (l : Line) : Cli Nat :=
  begun (anyDatabase l) fun c => do
    let e ← workOn c false (Operations.estimate (l.given.text? "--strategy"))
    match e.failure with
    | some f =>
      sayFailure f
      return 1
    | none =>
      let size ← Work.ofOutcome (sizeText (.int e.size))
      say (bold (textOf e.strategy) ++ s!": about {size}, {e.seconds}s")
      return 0

private def strategyRow (s : Strategy) : List String :=
  [s.dialect.label, "[cyan]" ++ s.name ++ "[/cyan]", toString s.rank, yesNo s.compresses,
    s.description]

def strategies (l : Line) : Cli Nat :=
  let dialects : Cli (List Dialect) := match l.given.filled? "--dialect" with
    | some name => return [← Work.ofOutcome (Dialect.named name)]
    | none => return Strategy.dialects
  begun dialects fun ds => do
    display (.table "Backup Strategies"
      ["Dialect", "Strategy", "Priority", "Compression", "Description"]
      (ds.flatMap fun d => (Strategy.all d).map strategyRow))
    return 0

/-! ## Converting and migrating -/

private def conversion (l : Line) : Cli (Dialect × Dialect × Convert.Script) := do
  let value (key : String) : String := (l.given.text? key).getD ""
  let source ← Work.ofOutcome (Dialect.named (value "--from"))
  let target ← Work.ofOutcome (Dialect.named (value "--to"))
  let text ← Work.ofOutcome (Backup.text (← get).world.files (Path.ofText (value "--input")))
  let route : Convert.Route := { source, target, strict := l.given.has "--strict" }
  return (source, target, ← Work.ofOutcome (Convert.script route (String.ofList text)))

private def deliver (path : Option String) (text : String) : Cli Unit := do
  match path with
  | some p =>
    let files ← Work.ofOutcome ((← get).world.files.write (Path.ofText p) (Bytes.encode text))
    modify fun s => { s with world := { s.world with files } }
  | none => modify fun s => { s with output := s.output ++ text }

def convert (l : Line) : Cli Nat := do
  match ← (conversion l).outcome with
  | .error (.failure f) => match f.cause with
    | .inexpressible message _ =>
      say (cross ++ "Strict mode: " ++ escape message)
      return 1
    | _ =>
      say (cross ++ f.userMessage)
      say ("  [dim]" ++ escape f.message ++ "[/dim]")
      return 1
  | .error e => begun (throw e : Cli Nat) pure
  | .ok (source, target, script) =>
    let header :=
      Restore.Header.write target "translate" Backup.version (← read).now none
    let path := l.given.filled? "--output"
    deliver path (header ++ String.join (script.statements.map fun s => s.text ++ ";\n"))
    if let some p := path then
      say (tick ++ s!"Wrote {script.statements.length} statements " ++
        s!"({source.label} -> {target.label}) to {p}")
    if 0 < script.dropped then
      say s!"[yellow]! {script.dropped} statement(s) dropped[/yellow]"
    warn (script.warnings.map (·.display))
    return 0

private def migrationOptions (g : Given) : Except Fault MigrationOptions := do
  let rows := ((g.text? "--batch-size").bind fun s => (Value.readWhole s).toOption).getD 500
  let batchSize ← ((Value.readAtLeast 1 (.int rows)).under "batch_size").toExcept
  return {
    tables := commaList (g.text? "--tables")
    excludeTables := (commaList (g.text? "--exclude-tables")).getD []
    includeData := !g.has "--schema-only", dropExisting := g.has "--drop-existing", batchSize
    strict := g.has "--strict" }

private def migrateInto (target : Database) (verbose : Bool) (c : Connection)
    (options : MigrationOptions) : Cli Migration.Result := do
  match ((← read).around c).database with
  | none => throw (.fail (.databaseConnection c.dialect.name "no database engine configured"))
  | some source =>
    let (r, run) := Migration.Job.perform { source, target, options }
    if verbose then showReports run.reports
    let r ← Work.ofOutcome r
    let _ ← Work.ofOutcome ((Talk.send .dispose).result source run.sourceLog).1
    let _ ← Work.ofOutcome ((Talk.send .dispose).result target run.targetLog).1
    return r

def migrate (l : Line) : Cli Nat :=
  let first : Cli (Connection × Connection) := do
    let c ← anyDatabase l
    return (c, ← Work.ofOutcome (Connection.ofUrl ((l.given.text? "--to").getD "")))
  begun first fun (c, into) => do
    let options ← Work.ofOutcome (migrationOptions l.given)
    say s!"Migrating [bold]{c.displayUrl}[/bold]..."
    let r ← migrateInto ((← read).target into) (verbose l) c options
    match r.failure with
    | some f =>
      sayFailure f
      return 1
    | none =>
      display (.table "Migration Complete" ["Table", "Source rows", "Target rows"]
        (r.counts.map fun n => [n.table, toString n.source, toString n.target]))
      warn r.warnings
      if !r.mismatches.isEmpty then
        say (cross ++ s!"{r.mismatches.length} table(s) failed row-count verification")
        return 1
      say (tick ++ s!"Copied {r.rows} rows across {r.tables.length} tables " ++
        "(" ++ (← read).elapsed ++ ")")
      return 0

end Cli

/-- Carries a command out, and returns the exit code. -/
def Line.run (l : Line) : Cli Nat :=
  match l.command with
  | .backup => Cli.backup l
  | .restore => Cli.restore l
  | .validate => Cli.validate l
  | .test => Cli.test l
  | .estimate => Cli.estimate l
  | .strategies => Cli.strategies l
  | .translate => Cli.convert l
  | .migrate => Cli.migrate l

def run (words : List String) : Cli Nat := do
  match Line.ofWords words with
  | .ok l => l.run
  | .error .usage => return 2
  | .error (.help text) =>
    modify fun s => { s with output := s.output ++ text }
    return 0
  | .error .version =>
    modify fun s => { s with output := s.output ++ "dbporter " ++ Backup.version ++ "\n" }
    return 0

end SqlFerry.CommandLine
