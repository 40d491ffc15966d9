import SqlFerry.CommandLine.Run
import Std.Time.Format

/-!
# The program

Reads the files that a command line mentions, carries it out on them, writes the files that changed,
and shows what came of it. Databases and other programs are out of its reach: whatever is asked of
them is refused.
-/

namespace SqlFerry.CommandLine

/-- A database that refuses all requests, but the one to let go of it. -/
def closedDatabase (d : Dialect) : Database :=
  { dialect := d, catalog := {}, rows := fun _ _ => []
    refuses := fun _ r =>
      if r = .dispose then none else some (.engine ("no driver for " ++ d.label)) }

def noTools : Tools :=
  { access := .ok { available := false, why := some "programs cannot be run" }
    finds := fun _ => false
    run := fun _ => .error (.system .general "programs cannot be run") }

def plainSurroundings (folder now : String) (connection : Connection) : Surroundings :=
  { connection, database := some (closedDatabase connection.dialect), tools := noTools
    free := Int.ofNat (Nat.pow 2 62), now, folder, sqliteVersion := "3.0.0"
    imageTrouble := fun bs =>
      if Backup.Format.sqliteSignature.isPrefixOf bs then none
      else some "file is not a database" }

/-- The paths that a command line may mean: its words, and the values in them. -/
def mentioned (words : List String) : List Path :=
  (Config.defaultFile :: words.flatMap fun w =>
    let cs := w.toList
    let value := (cs.dropWhile (· != '=')).drop 1
    [w, String.ofList value, String.ofList (cs.drop 2)]).map Path.ofText

def databaseFiles (words : List String) (files : Files) : List Path :=
  let configured := (mentioned words).flatMap fun p =>
    match Config.load files p p.toText with
    | .ok c => c.profiles.map fun (_, profile) => profile.resolvedUrl
    | .error _ => []
  (words ++ configured).filterMap fun url => (Connection.ofUrl url).toOption.bind (·.file?)

def profileVariable (words : List String) : Option String :=
  match Line.ofWords words with
  | .ok l => some ((l.globals.text? "--env-prefix").getD "" ++ Config.profileVariable)
  | .error _ => none

end SqlFerry.CommandLine

open SqlFerry CommandLine

def main (words : List String) : IO UInt32 := do
  let here ← IO.currentDir
  let read (files : Files) (p : Path) : IO Files := do
    let own := here / p.toText
    let folders ← p.leading.filterM fun q => (here / q.toText).isDir
    let files := { files with folders := folders.map (·.settled) ++ files.folders }
    if p.parts.isEmpty then return files
    else if ← own.isDir then return { files with folders := p.settled :: files.folders }
    else match ← (IO.FS.readBinFile own).toBaseIO with
      | .ok bytes => return files.put p.settled bytes.toList
      | .error _ => return files
  let files ← (mentioned words).foldlM read {}
  let files ← (databaseFiles words files).foldlM read files
  let time := Std.Time.DateTime.ofTimestampWithZone (← Std.Time.Timestamp.now) Std.Time.TimeZone.UTC
  let now := time.format "uuuu-MM-dd'T'HH:mm:ssxxx"
  let environment ← (profileVariable words).toList.filterMapM fun k => do
    return (← IO.getEnv k).map fun v => (k, v)
  let place : Place :=
    { environment, around := plainSurroundings here.toString now
      target := fun c => closedDatabase c.dialect, folder := here.toString, now
      stamp := time.format "uuuuMMdd-HHmmss", elapsed := "0.00s" }
  let (r, s) := (CommandLine.run words).result place { world := { files } }
  for (p, bs) in s.world.files.contents do
    if files.at? p != some bs then
      IO.FS.createDirAll (here / p.parent.toText)
      IO.FS.writeBinFile (here / p.toText) ⟨bs.toArray⟩
  IO.print s.output
  for item in s.items do IO.println item.plain
  match r with
  | .ok code => return code.toUInt32
  | .error e =>
    IO.eprintln (e.className ++ ": " ++ e.message)
    return 1
