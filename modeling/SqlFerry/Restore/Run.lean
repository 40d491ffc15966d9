import SqlFerry.Database
import SqlFerry.Progress
import SqlFerry.Restore.Result
import SqlFerry.Restore.Screen
import SqlFerry.Restore.Session
import SqlFerry.Sql.Target

/-!
# Running a restore

Statements are run in the order of the script on one connection. In a transaction each statement of
PostgreSQL has a savepoint of its own, so that a refusal does not end the transaction; without a
transaction each statement is committed by itself.
-/

namespace SqlFerry.Restore

open Text

/-- What a restore is to do: `wanted` are the tables to restore, in lower case. -/
structure Job where
  database : Database
  options : RestoreOptions
  wanted : Option (List String) := none
  path : Option String := none

structure Run where
  log : Log := []
  reports : List Progress := []
  tally : Tally := {}
  deriving Repr

abbrev Restoring := Work Job Run

namespace Restoring

variable {α : Type}

def talk (t : Talk α) : Restoring α :=
  Work.within Job.database Run.log (fun log run => { run with log }) t

def send (r : Request) : Restoring Unit :=
  talk (Talk.send r)

def count (f : Tally → Tally) : Restoring Unit :=
  modify fun run => { run with tally := f run.tally }

def report (percent : Nat) (operation : String) : Restoring Unit :=
  modify fun run => { run with reports := run.reports ++
    [.restoring percent operation run.tally.executed run.tally.failed] }

end Restoring

open Restoring

def messageLimit : Nat :=
  500

def clipped (message : String) : String :=
  String.ofList ((trim message.toList).take messageLimit)

/-! ## Single statements -/

def request (inTransaction : Bool) (sql : String) : Talk Unit := do
  if inTransaction then
    if (← read).dialect == .postgresql then Work.inSavepoint Talk.send (Talk.send (.exec sql))
    else Talk.send (.exec sql)
  else
    Talk.send (.exec sql)
    Talk.send .commit

def attempt (inTransaction : Bool) (sql : String) : Talk (Option String) := do
  match ← (request inTransaction sql).outcome with
  | .ok _ => return none
  | .error (.engine text) =>
    if !inTransaction then Talk.send .rollback
    return some (clipped text)
  | .error e => throw e

/-- Runs a statement; an empty message of the database does not count. -/
def refusal? (inTransaction : Bool) (sql : String) : Talk (Option String) := do
  return (← attempt inTransaction sql).filter (!·.isEmpty)

namespace Job

variable (job : Job)

def session : Session :=
  Session.plan job.database.dialect job.options

def concerns (s : Statement) : Bool :=
  match job.wanted with
  | none => true
  | some names => names.contains (lower ((Sql.targetTable? s.text).getD ""))

def denial? (s : Statement) : Option String :=
  if job.options.screen then denied? s.text else none

def replayed (statements : List Statement) : List Statement :=
  let isWanted (s : Statement) : Bool :=
    (job.wanted.map fun names => names.any (contains (lower s.text))).getD true
  (sequenceStatements job.database.dialect statements).filter isWanted

end Job

inductive Verdict where
  /-- It concerns no wanted table. -/
  | unwanted
  | done
  | failed (message : String)
  deriving DecidableEq, Repr

namespace Verdict

def isFailed : Verdict → Bool
  | failed _ => true
  | unwanted | done => false

def tally (v : Verdict) (s : Statement) (t : Tally) : Tally :=
  match v with
  | unwanted => { t with skipped := t.skipped + 1 }
  | done => { t with executed := t.executed + 1 }
  | failed message => t.recordFailure { index := s.index, preview := s.preview, message }

end Verdict

def judge (job : Job) (s : Statement) : Talk Verdict := do
  if !job.concerns s then return .unwanted
  match job.denial? s with
  | some reason => return .failed reason
  | none =>
    match ← attempt job.options.inTransaction s.text with
    | none => return .done
    | some message => return .failed message

/-! ## The script -/

def perform (s : Statement) : Restoring Bool := do
  let verdict ← talk (judge (← read) s)
  count (verdict.tally s)
  return verdict.isFailed

def executionPercent (done total : Nat) : Nat :=
  20 + 70 * done / total

/-- Runs the statements that come after the first `done` of all `total`. The statement at which the
restore stops, if it stops at a failure. -/
def pass (total : Nat) : (done : Nat) → List Statement → Restoring (Option Statement)
  | _, [] => return none
  | done, s :: rest => do
    let options := (← read).options
    if (← perform s) && options.stopOnError then
      count fun t => { t with skipped := t.skipped + rest.length }
      return some s
    let done := done + 1
    if done % options.progressInterval = 0 || done = total then
      report (executionPercent done total) s!"Executing statements ({done}/{total})"
    pass total done rest

def replay (s : Statement) : Restoring Unit := do
  let job ← read
  match ← talk (refusal? job.options.inTransaction s.text) with
  | none => count fun t => { t with sequencesReset := t.sequencesReset + 1 }
  | some _ => count fun t => { t with sequenceFailures := t.sequenceFailures + 1 }

def replaySequences (statements : List Statement) : Restoring Unit := do
  ((← read).replayed statements).forM replay

def restoreSetting (sql : String) : Restoring Unit := do
  let job ← read
  match ← talk (refusal? job.options.inTransaction sql) with
  | none => return
  | some message => throw (.fail (.restoreFailed job.path
      ("session teardown failed: " ++ message)
      [("dialect", job.database.dialect.name), ("statement", sql)]))

/-- Prepares the session; what the database refuses is passed over. -/
def prepareSession (job : Job) : Talk Unit :=
  job.session.setup.forM fun sql => do let _ ← attempt job.options.inTransaction sql

def finalize (statements : List Statement) : Restoring Unit := do
  let job ← read
  report 95 "Finalizing restore"
  if job.options.resetSequences then replaySequences statements
  job.session.teardown.forM restoreSetting

/-- All that is run on the connection: the session is prepared, the script is run, and if that comes
to its end, the restore is finalized. -/
def body (statements : List Statement) : Restoring (Option Statement) := do
  report 15 "Preparing database session"
  talk (prepareSession (← read))
  match ← pass statements.length 0 statements with
  | some s => return some s
  | none =>
    finalize statements
    return none

def sendOrFail (r : Request) (reason : String → String) : Restoring Unit := do
  match ← (send r).outcome with
  | .ok _ => return
  | .error (.engine text) =>
    throw (.failBecause (.restoreFailed (← read).path (reason text) []) (.engine text))
  | .error e => throw e

/-- Takes a failed transaction back, unless the database has given it up. -/
def retract (e : Fault) : Restoring (Option Statement) := do
  if (← read).database.isActive (← get).log then send .rollback
  throw e

/-- Runs `work` in a transaction, if the options ask for one. It is committed if the work comes to
its end, and taken back if it stops or fails. -/
def inTransaction (work : Restoring (Option Statement)) : Restoring (Option Statement) := do
  if !(← read).options.inTransaction then work
  else
    sendOrFail .start fun _ => "could not begin transaction"
    let steps : Restoring (Option Statement) := do
      let stopped ← work
      if stopped.isNone then sendOrFail .commit fun text => "commit failed: " ++ clipped text
      return stopped
    match ← steps.outcome with
    | .ok none => return none
    | .ok (some s) =>
      -- A rollback ends the transaction even where it is refused, so that none is left to retract.
      send .rollback
      return some s
    | .error e => retract e

def connect : Restoring Unit := do
  match ← (send .connect).outcome with
  | .ok _ => return
  | .error e => throw (.failBecause
      (.databaseConnection (← read).database.dialect.name e.message) e)

def execute (statements : List Statement) : Restoring (Option Statement) := do
  connect
  (inTransaction (body statements)).andFinally (send .close)

def stopped (job : Job) (s : Statement) : Failure :=
  { cause := .restoreFailed job.path s!"statement {s.index} failed and stop_on_error is set"
      [("dialect", job.database.dialect.name), ("statement", s.preview)] }

def runAll (statements : List Statement) : Restoring Result := do
  let job ← read
  count fun t => t.expecting statements.length job.options.maxFailureRecords
  let withTally (r : Result) : Restoring Result := do return { r with tally := (← get).tally }
  let rolledBack := job.options.inTransaction
  if statements.isEmpty then
    report 100 "Restore completed (no statements)"
    withTally { success := true }
  else match ← (execute statements).outcome with
    | .ok none =>
      report 100 "Restore completed"
      let failed := (← get).tally.failed
      withTally { success := true,
                  warnings := if failed = 0 then [] else [s!"{failed} statement(s) failed"] }
    | .ok (some s) => withTally { Result.failed (stopped job s) with rolledBack }
    | .error (.failure f) =>
      count (·.settle)
      withTally { Result.failed f with rolledBack }
    | .error e => throw e

def runStatements (statements : List Statement) : Restoring Result := do
  return { ← runAll statements with sourceDialect := some (← read).database.dialect }

end SqlFerry.Restore
