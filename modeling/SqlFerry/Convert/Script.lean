import SqlFerry.Convert.Schema
import SqlFerry.Ddl

/-!
# Converting scripts

A dump of one dialect for another. Definitions are read into one schema, converted, and written
where each table was created; foreign keys come after all data. Data statements are quoted anew.
What belongs to the session, sequences and routines is left out and counted.
-/

namespace SqlFerry.Convert

open Text Pattern

/-- A converted script; `dropped` counts the statements that have no counterpart. -/
structure Script where
  statements : List Statement
  warnings : List Warning := []
  dropped : Nat := 0

/-- Names with how often each was noted, in ascending order of the names. -/
abbrev Tally := List (String × Nat)

def Tally.add (k : String) : Tally → Tally
  | [] => [(k, 1)]
  | (x, n) :: t =>
    if k == x then (x, n + 1) :: t else if k < x then (k, 1) :: (x, n) :: t else (x, n) :: add k t

def Tally.total (t : Tally) : Nat :=
  t.foldl (fun n (_, k) => n + k) 0

def sessionVerbs : List String :=
  ["SET", "PRAGMA", "USE", "LOCK", "UNLOCK", "BEGIN", "COMMIT", "START", "ROLLBACK", "SAVEPOINT",
   "RELEASE", "ANALYZE", "VACUUM", "DELIMITER"]

private def sequencePattern : Pattern :=
  blanks ++ choice [
    word "SELECT" ++ blanks1 ++ opt (word "pg_catalog" ++ char '.') ++ word "setval" ++ edge,
    choice [word "CREATE", word "ALTER", word "DROP"] ++ blanks1 ++ word "SEQUENCE" ++ edge,
    choice [word "UPDATE", phrase ["INSERT", "INTO"], phrase ["DELETE", "FROM"]] ++ blanks1 ++
      opt (oneOf "\"\x60") ++ word "sqlite_sequence" ++ edge]

private def withoutExecutableOpening (cs : Chars) : Chars :=
  match (blanks ++ Statement.executableOpening ++ blanks).match? cs with
  | some m => m.rest
  | none => cs

def isSequenceStatement (text : Chars) : Bool :=
  (sequencePattern.match? (withoutExecutableOpening text)).isSome

/-! ## Data statements -/

private def opening (ws : List Pattern) : Pattern :=
  capture 1 blanks ++ ofList (ws.intersperse blanks1) ++ edge

private def insertIgnore : Pattern :=
  opening [word "INSERT", word "IGNORE", word "INTO"]

private def replaceInto : Pattern :=
  opening [word "REPLACE", word "INTO"]

private def insertOr : Pattern :=
  opening [word "INSERT", word "OR", capture 2 (choice [word "IGNORE", word "REPLACE"]),
    word "INTO"]

private def reopened (m : Match) (start : String) : Chars :=
  m.group 1 ++ start.toList ++ m.rest

private def plainInsert : String :=
  "INSERT INTO"

/-- A data statement that resolves conflicts, in the target's words: the text, what is added at its
end, and what got lost. -/
private def resolveConflicts (r : Route) (text : Chars) : Chars × String × Option String :=
  match r.source with
  | .mysql =>
    match insertIgnore.match? text, replaceInto.match? text with
    | some m, _ =>
      if r.target == .postgresql then (reopened m plainInsert, " ON CONFLICT DO NOTHING", none)
      else (reopened m "INSERT OR IGNORE INTO", "", none)
    | none, some m =>
      if r.target == .sqlite then (reopened m "INSERT OR REPLACE INTO", "", none)
      else (reopened m plainInsert, "", some "REPLACE INTO rewritten as plain INSERT")
    | none, none => (text, "", none)
  | .sqlite =>
    match insertOr.match? text with
    | some m =>
      let ignore := upper (String.ofList (m.group 2)) == "IGNORE"
      if r.target == .mysql then
        (reopened m (if ignore then "INSERT IGNORE INTO" else "REPLACE INTO"), "", none)
      else if ignore then (reopened m plainInsert, " ON CONFLICT DO NOTHING", none)
      else (reopened m plainInsert, "", some "INSERT OR REPLACE rewritten as plain INSERT")
    | none => (text, "", none)
  | .postgresql => (text, "", none)

def convertData (r : Route) (text : String) : String × Option String :=
  let (cs, ending, note) := resolveConflicts r text.toList
  (Sql.requote (String.ofList cs) r.source r.target ++ ending, note)

/-! ## Sequences -/

def sequenceReset (d : Dialect) (table column : String) : String :=
  "SELECT setval(pg_get_serial_sequence(" ++ d.textLiteral (d.quote table) ++ ", " ++
    d.textLiteral column ++ "), COALESCE((SELECT MAX(" ++ d.quote column ++ ") FROM " ++
    d.quote table ++ "), 0) + 1, false)"

def sequenceResets (d : Dialect) (s : Schema) : List String :=
  s.createOrder.flatMap fun t =>
    (t.columns.filter (·.autoIncrement)).map (sequenceReset d t.name ·.name)

/-! ## The script -/

/-- A converted script under way: the texts with the statements they come from, the foreign keys
put off, and what was left out or changed. -/
structure Progress where
  texts : List (String × Statement) := []
  deferred : List String := []
  dropped : Tally := []
  changes : Tally := []

def Progress.drop (p : Progress) (k : String) : Progress :=
  { p with dropped := p.dropped.add k }

def Progress.put (p : Progress) (texts : List String) (s : Statement) : Progress :=
  { p with texts := p.texts ++ texts.map (·, s) }

def convertDefinition (r : Route) (schema : Schema) (p : Progress) (s : Statement) :
    Converting Progress := do
  match schema.table? ((Sql.targetTable? s.text).getD "") with
  | none =>
    warn r.strict
      { severity := .dropped, entityType := "statement", entity := s.verb, table := none
        message := "Unrecognized table definition skipped: " ++ s.preview 60 }
    return p.drop "unparsed"
  | some t =>
    let create ← Ddl.createTable r.target t (r.target == .sqlite)
    let p := p.put (create :: Ddl.indexStatements r.target [t]) s
    if r.target == .sqlite then return p
    return { p with deferred := p.deferred ++ Ddl.foreignKeyStatements r.target [t] }

def convertDrop (r : Route) (schema : Schema) (p : Progress) (s : Statement) : Progress :=
  match Sql.targetTable? s.text with
  | some name =>
    match (schema.table? name).map (·.name) with
    | some known => p.put [Ddl.dropTable r.target known] s
    | none => if name.isEmpty then p.drop s.verb else p.put [Ddl.dropTable r.target name] s
  -- A name that is not understood counts as the empty one.
  | none =>
    match schema.table? "" with
    | some t => p.put [Ddl.dropTable r.target t.name] s
    | none => p.drop s.verb

def convertStatement (r : Route) (schema : Schema) (p : Progress) (s : Statement) :
    Converting Progress := do
  let verb := s.verb
  let head := String.ofList ((words verb.toList).headD [])
  if verb == "CREATE TABLE" then convertDefinition r schema p s
  -- What these say is part of the schema already, and is written with the table or at the end.
  else if verb == "CREATE INDEX" || verb == "ALTER TABLE" then return p.drop "folded"
  else if verb == "DROP TABLE" then return convertDrop r schema p s
  else if isSequenceStatement s.text.toList then return p.drop "sequence"
  else if sessionVerbs.contains head || ["CREATE", "DROP", "ALTER", ""].contains head then
    return p.drop (if verb.isEmpty then "empty" else verb)
  else if head == "SELECT" && contains s.text "pg_catalog." then return p.drop verb
  else if verb == "COPY" then return p.drop verb
  else
    let (text, note) := convertData r s.text
    let p := match note with
      | some n => { p with changes := p.changes.add n }
      | none => p
    return p.put [text] s

def summarize (r : Route) (p : Progress) : Converting Unit := do
  for (verb, count) in p.dropped do
    if ["folded", "empty", "unparsed"].contains verb then continue
    let message :=
      if verb == "sequence" then
        s!"{count} sequence statement(s) replaced by target-native resets"
      else s!"{count} {verb} statement(s) specific to {r.source.label} dropped"
    let head := String.ofList ((words verb.toList).headD [])
    let session := verb == "sequence" || sessionVerbs.contains head || verb == "SELECT"
    warn r.strict
      { severity := if session then .lossy else .dropped, entityType := "statement", entity := verb
        table := none, message }
  for (note, count) in p.changes do
    warn r.strict
      { severity := .lossy, entityType := "statement", entity := "DML", table := none
        message := s!"{note} ({count} statement(s))" }

def definitions (statements : List Statement) : List String :=
  (statements.filter fun s =>
    ["CREATE TABLE", "CREATE INDEX", "ALTER TABLE"].contains s.verb).map (·.text)

/-- The converted statements in the places of those they come from; those at the end have the place
of the last one. -/
def placed (last : Option Statement) (texts : List (String × Statement))
    (ending : List String) : List Statement :=
  let all := texts.map (fun (t, s) => (t, some s)) ++ ending.map (·, last)
  all.zipIdx.map fun ((text, place), index) =>
    { text, index, start := (place.map (·.start)).getD 0, stop := (place.map (·.stop)).getD 0
      line := (place.map (·.line)).getD 1, terminator := some ";", inRoutine := false }

def convertAll (r : Route) (statements : List Statement) :
    Converting (List Statement × Nat) := do
  let schema ← r.convertSchema (← Ddl.ofStatements r.source (definitions statements))
  let p ← statements.foldlM (convertStatement r schema) {}
  let resets := if r.target == .postgresql then sequenceResets r.target schema else []
  summarize r p
  return (placed statements.getLast? p.texts (p.deferred ++ resets), p.dropped.total)

def statements (r : Route) (found : List Statement) : Except Fault Script := do
  if r.source == r.target then return { statements := found }
  let ((statements, dropped), warnings) ← (convertAll r found).run []
  return { statements, warnings, dropped }

def script (r : Route) (text : String) : Except Fault Script := do
  statements r (← Ddl.ofSplitting (Splitter.statements (some r.source) text))

end SqlFerry.Convert
