import SqlFerry.Strategy.Check
import SqlFerry.Strategy.Choice
import SqlFerry.Strategy.Restoring

/-!
# Operations on a database

Backing up and restoring with the strategy that fits best. What goes wrong on the way to a strategy
is a result as well.
-/

namespace SqlFerry.Operations

open Backup Strategy

private def fromRoot (folder : String) (p : Path) : String :=
  if p.rooted then p.toText
  else if p.parts.isEmpty then folder
  else folder ++ "/" ++ p.toText

private def chooseForBackup (destination : Path) (o : BackupOptions) : Act Strategy := do
  let nearest ← Act.look (·.nearest destination)
  let choice ← Choice.forBackup o.forceStrategy o.needsSql
  let required ← choice.strategy.size
  let available := (← read).free
  if available < required then
    throw (.fail (.diskSpace (fromRoot (← read).folder nearest) required available))
  return choice.strategy

def backup (destination : Path) (o : BackupOptions) : Act Backup.Result := do
  match ← (chooseForBackup destination o).outcome with
  | .ok s => s.create destination o
  | .error (.failure f) => return .failed f o.forceStrategy destination.toText
  | .error e => throw e

private def chooseForRestore (raw : String) (o : RestoreOptions) : Act Strategy := do
  let p := Path.ofText raw
  let _ ← Act.look (Backup.contents · p)
  return (← Choice.forRestore p o.forceStrategy).strategy

def restore (raw : String) (tables : Option (List String)) (o : RestoreOptions) :
    Act Restore.Result := do
  match ← (chooseForRestore raw o).outcome with
  | .ok s => match tables with
    | some names => s.restoreTables raw names o
    | none => s.restore raw o
  | .error (.failure f) => return { Restore.Result.failed f with
      strategy := o.forceStrategy, inputPath := some raw }
  | .error e => throw e

/-- The first strategy that reads a file. -/
def readerOf (d : Dialect) (files : Files) (raw : String) : Except Fault Strategy := do
  let _ ← Backup.contents files (Path.ofText raw)
  let format ← Backup.formatOf files (Path.ofText raw)
  match (Strategy.all d).find? (·.formats.contains format.kind) with
  | some s => return s
  | none => throw (.fail (.strategyUnavailable "auto" d.name
      s!"no {d.label} strategy reads {format.kind.name} backups"))

def check (raw : String) : Act CheckReport := do
  let files := (← get).files
  match readerOf (← read).connection.dialect files raw with
  | .ok s => Work.ofOutcome (s.check files (← read).imageTrouble raw)
  | .error (.failure f) => return { path := raw, errors := [f.message] }
  | .error e => throw e

def restoreOptions (raw : String) : Act Value := do
  let files := (← get).files
  match readerOf (← read).connection.dialect files raw with
  | .ok s =>
    let options ← Work.ofOutcome (s.restoreOptions files (← read).imageTrouble raw)
    return .record (options ++ [("strategy", .text s.name)])
  | .error (.failure f) =>
    return .record [("full_restore", false), ("error", f.report.toValue)]
  | .error e => throw e

def probes : Act (List Probe) := do
  (Strategy.all (← read).connection.dialect).mapM Strategy.probe

structure Estimate where
  strategy : Option String := none
  size : Int := 0
  seconds : Nat := 0
  failure : Option Failure := none

def Estimate.toValue (e : Estimate) : Value :=
  .record [("strategy", .ofOption .text e.strategy), ("size_bytes", .int e.size),
    ("time_seconds", .int e.seconds), ("error", .ofOption (·.report.toValue) e.failure)]

def estimate (forced : Option String) : Act Estimate := do
  match ← (Choice.forBackup forced).outcome with
  | .ok choice =>
    let s := choice.strategy
    return { strategy := some s.name, size := ← s.size, seconds := ← s.seconds }
  | .error (.failure f) => return { strategy := forced, failure := some f }
  | .error e => throw e

end SqlFerry.Operations
