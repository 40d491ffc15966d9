import SqlFerry.Connection
import SqlFerry.Database
import SqlFerry.Progress
import SqlFerry.Tool.Runner

/-!
# Acts

Work on all that a backup or a restore has to do with: files, a database, and tools that are run.
-/

namespace SqlFerry

/-- The programs around: whether any can be run, which are found, and what comes of running one. -/
structure Tools where
  access : Except Fault Tool.Access
  finds : String → Bool
  run : Tool.Command → Except Fault Tool.Outcome

/-- The tools as they are run securely, when `start` tells what becomes of a started program. -/
def Tools.secure (start : Tool.Child → Tool.Ending) : Tools :=
  { access := .ok (Tool.access start), finds := Tool.isAvailable start
    run := fun c => (Tool.Run.perform { c with } start).2 }

structure Surroundings where
  /-- Where the database is that is worked on. -/
  connection : Connection
  /-- The database, if it can be worked on from here. -/
  database : Option Database
  tools : Tools
  /-- How many bytes of the disk are free. -/
  free : Int := 0
  /-- The text of the present time. -/
  now : String
  /-- The path of the working directory. -/
  folder : String
  /-- What is wrong with the image of an SQLite database, if something is. -/
  imageTrouble : Bytes.Octets → Option String
  sqliteVersion : String

structure World where
  files : Files := {}
  log : Log := []
  /-- The commands that were run, the oldest first. -/
  calls : List Tool.Command := []
  reports : List Progress := []

abbrev Act := Work Surroundings World

namespace Act

variable {α : Type}

def on (db : Database) (talk : Talk α) : Act α :=
  Work.within (fun _ => db) World.log (fun log w => { w with log }) talk

def report (p : Progress) : Act Unit :=
  modify fun w => { w with reports := w.reports ++ [p] }

def call (c : Tool.Command) : Act Tool.Outcome := do
  modify fun w => { w with calls := w.calls ++ [c] }
  Work.ofOutcome ((← read).tools.run c)

def change (f : Files → Except Fault Files) : Act Unit := do
  let files ← Work.ofOutcome (f (← get).files)
  modify fun w => { w with files }

def look (f : Files → Except Fault α) : Act α := do
  Work.ofOutcome (f (← get).files)

end Act

end SqlFerry
