import SqlFerry.Backup.Script
import SqlFerry.Strategy

/-!
# Writing backups

A backup is written beside its destination and moved there once it is complete. After a failure
nothing of it is left: the file beside it is removed, and so is the destination unless it was there
before.
-/

namespace SqlFerry.Strategy

open Backup

variable (s : Strategy)

def requireDatabase : Act Database := do
  match (← read).database with
  | some db => return db
  | none => throw (s.unavailable "no database engine configured")

def databaseName (c : Connection) : Except Fault String :=
  match c.database.filter (!·.isEmpty) with
  | some name => .ok name
  | none => .error (s.unavailable "no database name in connection URL")

/-! ## Dumps of tools -/

def messageLength : Nat :=
  500

def lastWords (o : Tool.Outcome) : String :=
  Tool.Outcome.tail messageLength (Text.strip o.stderrText)

def checkOutcome (program : String) (cause : String → Context → Failure.Cause)
    (o : Tool.Outcome) : Except Fault Unit :=
  if o.success then .ok ()
  else
    let words := lastWords o
    let words := if words.isEmpty then "no output" else words
    let code := o.code.elim "None" toString
    .error (.fail (cause s!"{program} exited with code {code}: {words}"
      (Context.merge s.context [("return_code", .ofOption .int o.code)])))

private def isBlankByte (b : UInt8) : Bool :=
  b == 32 || (9 ≤ b && b ≤ 13)

def writeDump (t : Toolset) (o : BackupOptions) (p : Path) : Act Details := do
  let c := (← read).connection
  let database ← Work.ofOutcome (s.databaseName c)
  let outcome ← Act.call
    { argv := t.dumpArguments c database o, credentials := t.credentials c
      timeout := Value.timeoutValue o.timeout }
  let fail (reason : String) (more : Context) : Failure.Cause :=
    .backupFailed p.toText reason more
  Work.ofOutcome (s.checkOutcome t.dumpProgram fail outcome)
  if outcome.stdout.all isBlankByte then
    throw (.fail (fail (t.dumpProgram ++ " produced no output") s.context))
  let target ← Work.ofOutcome o.target
  let header := Restore.Header.write s.dialect s.name version (← read).now target
  let bytes := Bytes.encode (header ++ "\n") ++ outcome.stdout
  Act.change (·.write p (if o.compress then Bytes.Gzip.compress bytes else bytes))
  let facts : List (String × Value) := [("dialect", s.dialect.name), ("tool", t.dumpProgram)]
  return {
    compressed := o.compress, format := some (s.dialect.name ++ "_sql"), tables := o.tables.getD []
    facts := facts ++ target.toList.map fun t => ("target_dialect", (t.name : Value)) }

/-! ## Images -/

def databaseFile (c : Connection) : Except Fault Path :=
  match c.file? with
  | some p => .ok p
  | none => .error (s.unavailable "an on-disk SQLite database is required")

def unheeded (o : BackupOptions) : List String :=
  (if o.compress then [s.name ++ " does not compress; the image is uncompressed"] else []) ++
  (if (o.tables.getD []).isEmpty && o.excludeTables.isEmpty then [] else
    [s.name ++ " copies the whole database; table selection ignored"]) ++
  if (o.targetDialect.getD "").isEmpty then [] else
    [s.name ++ " cannot convert dialects; Target-Dialect ignored"]

def writeImage (o : BackupOptions) (p : Path) : Act Details := do
  let source ← Work.ofOutcome (s.databaseFile (← read).connection)
  let fail (reason : String) : Fault := .fail (.backupFailed p.toText reason s.context)
  match ← Act.look (·.find source) with
  | none => throw (fail s!"database file not found: {source}")
  | some bs =>
    Act.change (·.write p bs)
    match (← read).imageTrouble bs with
    | some trouble => throw (fail s!"backup image failed integrity check: {trouble}")
    | none => return {
        format := some FormatKind.sqliteImage.name, warnings := s.unheeded o
        facts := [("dialect", s.dialect.name), ("source_path", source.toText)] }

/-! ## Complete or not at all -/

def write (o : BackupOptions) (p : Path) : Act Details := do
  match s with
  | tools t => s.writeDump t o p
  | script d => writeScript (← s.requireDatabase) s.name d o p
  | image _ => s.writeImage o p

def partialPath (destination : Path) : Path :=
  destination.withName (destination.name ++ ".partial")

abbrev Moving :=
  Files → (source target : Path) → Except Fault Files

def writeAside (writing : Path → Act Details) (destination : Path)
    (moving : Moving := Files.move) : Act Details := do
  Act.change (·.makeFolder destination.parent)
  let details ← writing (partialPath destination)
  Act.change (moving · (partialPath destination) destination)
  return details

/-- Removes what a failed backup has left beside its destination, and the destination unless it was
there before. -/
def cleanUp (destination : Path) (existed : Bool) : Act Unit := do
  Act.change (·.remove (partialPath destination))
  if !existed then Act.change (·.remove destination)

/-- Writes a backup so that the destination holds all of it or what was there before. -/
def createBy (writing : Path → Act Details) (destination : Path)
    (moving : Moving := Files.move) : Act Result := do
  if destination.name.isEmpty then
    throw (.refused (.nameless destination.toText))
  let existed ← Act.look (·.has destination)
  match ← (writeAside writing destination moving).outcome with
  | .ok details =>
    let size := (((← get).files.read? destination).getD []).length
    return { toDetails := details, success := true, strategy := some s.name
             outputPath := some destination.toText, size }
  | .error e =>
    cleanUp destination existed
    let failure ← Work.ofOutcome
      (e.asFailure fun text => .backupFailed destination.toText text s.context)
    return .failed failure s.name destination.toText

def create (destination : Path) (o : BackupOptions) : Act Result :=
  s.createBy (s.write o) destination

end SqlFerry.Strategy
