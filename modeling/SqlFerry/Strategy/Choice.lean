import SqlFerry.Backup.Reading
import SqlFerry.Strategy.Probe

/-!
# Choosing a strategy

All strategies that could do a job are probed, and of those that are available the one with the
lowest rank is chosen. A strategy that is asked for by name has to be available too.
-/

namespace SqlFerry.Strategy

structure Choice where
  strategy : Strategy
  forced : Bool := false
  probes : List Probe := []

namespace Choice

def named (d : Dialect) (name : String) : Except Fault Strategy :=
  match (all d).find? (·.name == name) with
  | some s => .ok s
  | none =>
    let known := ", ".intercalate ((all d).map (·.name))
    .error (.fail (.strategyUnavailable name d.name s!"unknown strategy; choose from {known}"))

def forcedBy (d : Dialect) (name : String) : Act Choice := do
  let s ← Work.ofOutcome (named d name)
  let r ← s.probe
  if r.available then return { strategy := s, forced := true, probes := [r] }
  let failed := if r.failed.isEmpty then "none reported" else ", ".intercalate r.failed
  throw (s.unavailable ((r.error.filter (!·.isEmpty)).getD ("failed checks: " ++ failed)))

/-- The available strategy with the lowest rank; of two with one rank the first. -/
def best (probes : List Probe) : Option Strategy :=
  let available := (probes.filter (·.available)).map (·.strategy)
  available.foldl (fun found s => match found with
    | none => some s
    | some f => if s.rank < f.rank then some s else some f) none

def among (d : Dialect) (candidates : List Strategy) (purpose : String) : Act Choice := do
  let probes ← candidates.mapM probe
  match best probes with
  | some s => return { strategy := s, probes }
  | none =>
    let tried := ", ".intercalate (candidates.map (·.name))
    let tried := if tried.isEmpty then "none" else tried
    throw (.fail (.strategyUnavailable "auto" d.name
      s!"no strategy available for {purpose} (tried: {tried})"))

def forBackup (forced : Option String) (sql : Bool := false) : Act Choice := do
  let d := (← read).connection.dialect
  match forced.filter (!·.isEmpty) with
  | some name => forcedBy d name
  | none => among d ((all d).filter fun s => !sql || s.writesSql) "backup"

def forRestore (p : Path) (forced : Option String) : Act Choice := do
  let d := (← read).connection.dialect
  match forced.filter (!·.isEmpty) with
  | some name => forcedBy d name
  | none =>
    let format ← Act.look (Backup.formatOf · p)
    let readers := (all d).filter (·.formats.contains format.kind)
    among d readers s!"restore of {format.kind.name} backup"

end Choice

end SqlFerry.Strategy
