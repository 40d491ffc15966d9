import SqlFerry.Batches
import SqlFerry.Database.Catalog
import SqlFerry.Work

/-!
# Databases

A database is known by what it answers. Requests are sent to it one by one and logged, and each may
be refused, as the requests before it decide.
-/

namespace SqlFerry

inductive Request where
  | connect
  | close
  | start
  | commit
  | rollback
  | savepoint
  | release
  | rollbackTo
  | dispose
  /-- Opening the catalogue. -/
  | inspect
  | pragma (sql : String)
  | exec (sql : String)
  | query (sql : String)
  deriving DecidableEq, Repr

namespace Request

def name : Request → String
  | connect => "connect"
  | close => "close"
  | start => "begin"
  | commit => "commit"
  | rollback => "rollback"
  | savepoint => "savepoint"
  | release => "release"
  | rollbackTo => "rollback_to"
  | dispose => "dispose"
  | inspect => "inspect"
  | pragma _ => "pragma"
  | exec _ => "exec"
  | query _ => "query"

def sql? : Request → Option String
  | pragma sql | exec sql | query sql => some sql
  | _ => none

def toValue (r : Request) : Value :=
  .texts (r.name :: r.sql?.toList)

end Request

/-- Why a request was refused: by the database itself or on the way to it. -/
inductive Trouble where
  | engine (text : String)
  | system (text : String)
  deriving DecidableEq, Repr

namespace Trouble

def text : Trouble → String
  | engine text | system text => text

def fault : Trouble → Fault
  | engine text => .engine text
  | system text => .system .general text

end Trouble

/-- The requests made so far, the oldest first. -/
abbrev Log := List Request

structure Database where
  dialect : Dialect
  refuses : Log → Request → Option Trouble
  rows : Log → String → List Row
  /-- Whether a transaction still stands after something in it, or its commit, has failed. -/
  isActive : Log → Bool := fun _ => true
  /-- How what a query finds is handed over in groups. -/
  cutting : Log → String → Cutting Row := fun _ _ => .full
  catalog : Catalog

/-! ## Scopes

Work between two requests that belong together. `send` is how requests are sent. -/

namespace Work

variable {ρ σ α : Type} (send : Request → Work ρ σ Unit)

/-- Some work on a connection of its own, which is closed after it. A failure to close does not
hide a failure of the work. -/
def connected (work : Work ρ σ α) : Work ρ σ α := do
  send .connect
  match ← work.outcome, ← (send .close).outcome with
  | .ok a, .ok _ => return a
  | .ok _, .error e => throw e
  | .error e, _ => throw e

/-- Some work after a savepoint, to which the transaction returns if the work fails. -/
def inSavepoint (work : Work ρ σ α) : Work ρ σ α := do
  send .savepoint
  match ← work.outcome with
  | .ok a =>
    send .release
    return a
  | .error e =>
    let _ ← (send .rollbackTo).outcome
    throw e

/-- Some work in a transaction of its own: it is committed if the work succeeds, and taken back
otherwise. -/
def transacted (work : Work ρ σ α) : Work ρ σ α := do
  send .connect
  send .start
  match ← work.outcome with
  | .ok a =>
    send .commit
    send .close
    return a
  | .error e =>
    let _ ← (send .rollback).outcome
    let _ ← (send .close).outcome
    throw e

end Work

abbrev Talk (α : Type) : Type :=
  Work Database Log α

namespace Talk

variable {α : Type}

def send (r : Request) : Talk Unit := do
  let log ← get
  set (log ++ [r])
  match (← read).refuses log r with
  | some t => throw t.fault
  | none => return

theorem result_send (r : Request) (db : Database) (log : Log) :
    (send r).result db log = ((match db.refuses log r with
      | some t => .error t.fault
      | none => .ok ()), log ++ [r]) := by
  simp only [send, Work.result_bind, Work.result_get, Work.result_set, Work.result_read]
  cases db.refuses log r <;> rfl

def query (sql : String) : Talk (List Row) := do
  send (.query sql)
  return (← read).rows (← get) sql

def stream (size : Nat) (sql : String) : Talk (List (List Row)) := do
  send (.query sql)
  let log ← get
  let db ← read
  return (db.cutting log sql).groups size (db.rows log sql)

def connected (work : Talk α) : Talk α :=
  Work.connected send work

def scalar? (rows : List Row) : Option Value :=
  match rows with
  | (v :: _) :: _ => some v
  | _ => none

end Talk

end SqlFerry
