import SqlFerry.Strategy.Writing

/-!
# Probing strategies

Whether a strategy can be used here, check by check, and how much there would be to back up.
-/

namespace SqlFerry.Strategy

structure Probe where
  strategy : Strategy
  checks : List (String × Bool) := []
  details : List (String × String) := []
  error : Option String := none
  deriving Repr

namespace Probe

variable (r : Probe)

def available : Bool :=
  r.error.isNone && !r.checks.isEmpty && r.checks.all (·.2)

def failed : List String :=
  (r.checks.filter (!·.2)).map (·.1)

def toValue : Value :=
  .record [("strategy", r.strategy.name), ("dialect", r.strategy.dialect.name),
    ("available", r.available), ("capabilities", .record (r.checks.map fun (k, b) => (k, b))),
    ("details", .record (r.details.map fun (k, text) => (k, text))),
    ("error", .ofOption .text r.error)]

def add (name : String) (ok : Bool) (detail : String := "") : Probe :=
  { r with
    checks := r.checks ++ [(name, ok)]
    details := if ok then r.details else r.details ++ [(name, detail)] }

end Probe

variable (s : Strategy)

/-! ## Checks -/

private def probeConnection (r : Probe) : Act Probe := do
  match (← read).database with
  | none => return r.add "database_connection" false "no engine configured"
  | some db =>
    let question : Talk Unit := Talk.connected do let _ ← Talk.query "SELECT 1"
    match ← (Act.on db question).outcome with
    | .ok _ => return r.add "database_connection" true
    | .error e => return r.add "database_connection" false e.message

private def probeProgram (r : Probe) (program : String) : Act Probe := do
  let found := (← read).tools.finds program
  return r.add (program ++ "_available") found (program ++ " not found on PATH")

private def probeTools (t : Toolset) (r : Probe) : Act Probe := do
  let access ← Work.ofOutcome (← read).tools.access
  let r := r.add "shell_access" access.available (access.why.getD "shell test failed")
  if access.available then probeConnection (← t.programs.foldlM probeProgram r) else return r

private def probeScript (r : Probe) : Act Probe := do
  let r ← probeConnection r
  match (← read).database, r.available with
  | some db, true =>
    match ← (Act.on db Introspection.tableNames).outcome with
    | .ok names =>
      let r := r.add "schema_introspection" true
      return { r with details := r.details ++ [("tables", toString names.length)] }
    | .error e => return r.add "schema_introspection" false e.message
  | _, _ => return r

private def probeImage (way : ImageCopy) (r : Probe) : Act Probe := do
  let r := if way == .vacuum then r.add "vacuum_into" true else r
  let r := r.add "sqlite3_module" true
  let r := { r with details := r.details ++ [("sqlite_version", (← read).sqliteVersion)] }
  let file? := (← read).connection.file?
  match file?.elim (.ok none) (← get).files.find with
  | .error e => return { r with error := some e.message }
  | .ok none => return r.add "database_file" false "in-memory or missing database file"
  | .ok (some _) => return (r.add "database_file" true).add "database_readable" true

def probe : Act Probe := do
  let r : Probe := { strategy := s }
  let checking := match s with
    | tools t => probeTools t r
    | script _ => probeScript r
    | image way => probeImage way r
  match ← checking.outcome with
  | .ok r => return r
  | .error e =>
    let failure ← Work.ofOutcome (e.asFailure fun text => .other text .general [])
    return { r with error := some failure.message }

/-! ## Sizes -/

private def sizeQuery : Dialect → String
  | .postgresql => "SELECT pg_database_size(current_database())"
  | _ => "SELECT COALESCE(SUM(data_length + index_length), 0) " ++
    "FROM information_schema.tables WHERE table_schema = DATABASE()"

private def databaseSize : Act Int := do
  match s.dialect, (← read).database with
  | .sqlite, _ =>
    let file := (← read).connection.file?.bind (← get).files.read?
    return (file.map List.length).getD 0
  | _, none => return 0
  | d, some db => Act.on db <| Talk.connected do
    let rows ← Talk.query (sizeQuery d)
    Value.wholeOrZero (Talk.scalar? rows)

/-- How many bytes the database has, zero if that cannot be found out. -/
def size : Act Int := do
  match ← s.databaseSize.outcome with
  | .ok n => return n
  | .error (.engine _) | .error (.system ..) => return 0
  | .error e => throw e

def seconds : Act Nat := do
  let n ← s.size
  if Value.isBoundless n.natAbs s.bytesPerSecond then
    throw (.boundless "integer division result too large for a float")
  return s.secondsFor n

end SqlFerry.Strategy
