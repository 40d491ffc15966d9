import SqlFerry.Ddl.Clause

/-!
# Column definitions

A column from its definition: the name, the type with its arguments, and the attributes. Keys,
references and checks written with the column come back beside it.
-/

namespace SqlFerry.Ddl

open Text Pattern Sql

inductive Extra where
  | primaryKey
  | constraint (c : Constraint)
  deriving DecidableEq, Repr

/-! ## The type -/

def severalWords : List String :=
  ["double precision", "character varying", "bit varying", "timestamp with time zone",
   "timestamp without time zone", "time with time zone", "time without time zone"]

/-- A type as written: its name in lower case, the text of its arguments, whether it is an array,
and what follows it. -/
structure WrittenType where
  name : String
  arguments : Option Chars
  isArray : Bool
  rest : Chars

def typeName? (cs : Chars) : Option (String × Chars) :=
  let lowered := (lower (ofChars cs)).toList
  let known := severalWords.find? fun name =>
    startsWith name.toList lowered &&
      !((cs.drop name.length).head?.map isLetterOrNumber).getD false
  match known with
  | some name => some (name, cs.drop name.length)
  | none => (ident.match? cs).map fun m => (lower (unquote m.text), m.rest)

def typeArguments (cs : Chars) : Option Chars × Chars :=
  let stripped := trimLeft cs
  if stripped.head? == some '(' then
    match closing? stripped with
    | some i => (some (slice stripped 1 i), stripped.drop (i + 1))
    | none => (some (inner stripped), stripped)
  else (none, cs)

def zonePattern : Pattern :=
  blanks1 ++ capture 1 (choice [word "with", word "without"]) ++ blanks1 ++
    phrase ["time", "zone"] ++ edge

def arrayPattern : Pattern :=
  blanks ++ plus (char '[' ++ blanks ++ star digit ++ blanks ++ char ']')

def WrittenType.ofChars (cs : Chars) : WrittenType :=
  match typeName? cs with
  | none => ⟨"text", none, false, cs⟩
  | some (name, rest) =>
    let (arguments, rest) := typeArguments rest
    let (name, rest) := match zonePattern.match? rest with
      | some m =>
        if name == "timestamp" || name == "time" then
          (name ++ " " ++ lower (Ddl.ofChars (m.group 1)) ++ " time zone", m.rest)
        else (name, rest)
      | none => (name, rest)
    match arrayPattern.match? rest with
    | some m => ⟨name, arguments, true, trim m.rest⟩
    | none => ⟨name, arguments, false, trim rest⟩

def integerTypes : List String :=
  ["tinyint", "smallint", "mediumint", "int", "integer", "bigint"]

def precisionTypes : List String :=
  ["decimal", "numeric", "float", "double", "real", "double precision"]

def timeTypes : List String :=
  ["time", "timestamp", "datetime", "timestamptz"]

def firstWord (typeName : String) : Except Fault String :=
  match words typeName.toList with
  | w :: _ => .ok (ofChars w)
  | [] => .error .nothingFirst

/-- Gives a column the arguments of its type: values, a precision and scale, or a length. Numbers
after an integer type are display widths and do not count. -/
def withArguments (c : Column) (arguments : Chars) : Except Fault Column := do
  if c.typeName == "enum" || c.typeName == "set" then
    return { c with enumValues := stringValues arguments }
  let numbers := (splitOn [','] arguments).map trim
  if !numbers.all fun n => !n.isEmpty && n.all isDigitForm then return c
  if integerTypes.contains c.typeName then return c
  let first := number (numbers.headD [])
  if precisionTypes.contains c.typeName then
    match numbers with
    | _ :: second :: _ =>
      return { c with precision := some (← first), scale := some (← number second) }
    | _ => return { c with precision := some (← first) }
  if timeTypes.contains (← firstWord c.typeName) then return { c with precision := some (← first) }
  return { c with length := some (← first) }

/-- A type with a sequence of its own becomes its base type with automatic values; a default taken
from a sequence means the same. -/
def normalizeSerial (c : Column) : Column :=
  let c := match TypeName.serialBase? c.typeName with
    | some base => { c with typeName := base, autoIncrement := true, nullable := false }
    | none => c
  match c.default with
  | some d =>
    if startsWith "nextval(".toList (lower d).toList then
      { c with autoIncrement := true, default := none }
    else c
  | none => c

/-! ## The attributes -/

/-- The words that begin an attribute, so that they end a default. -/
def stopWords : List String :=
  ["NOT", "NULL", "PRIMARY", "UNIQUE", "REFERENCES", "CHECK", "CONSTRAINT", "ON", "COMMENT",
   "AUTO_INCREMENT", "AUTOINCREMENT", "COLLATE", "GENERATED", "DEFAULT", "CHARACTER", "CHARSET",
   "UNSIGNED", "ZEROFILL"]

def isStop (t : Token) : Bool :=
  stopWords.contains t.word

def span (text : Chars) (ts : List Token) : Chars :=
  match ts.head?, ts.getLast? with
  | some a, some z => slice text a.start z.stop
  | _, _ => []

/-- Reads one attribute: the column and its extras with it, and how many of the tokens after the
first it takes; none if nothing after it counts. -/
def readAttribute (text : Chars) (t : Token) (rest : List Token) (c : Column)
    (extras : List Extra) : Except Fault (Column × List Extra × Option Nat) := do
  let next := (rest.head?.map Token.word).getD ""
  match t.word with
  | "UNSIGNED" => return ({ c with unsigned := true }, extras, some 0)
  | "NOT" =>
    if next == "NULL" then return ({ c with nullable := false }, extras, some 1)
    else return (c, extras, some 0)
  | "NULL" => return ({ c with nullable := true }, extras, some 0)
  | "DEFAULT" =>
    let value := rest.takeWhile (!isStop ·)
    let c := if value.isEmpty then c else
      { c with default := some (ofChars (trim (span text value))) }
    return (c, extras, some value.length)
  | "AUTO_INCREMENT" | "AUTOINCREMENT" => return ({ c with autoIncrement := true }, extras, some 0)
  | "PRIMARY" => return ({ c with nullable := false }, extras ++ [.primaryKey], some 1)
  | "UNIQUE" =>
    return (c, extras ++ [.constraint { kind := .unique, columns := [c.name] }],
      some (if next == "KEY" then 1 else 0))
  | "REFERENCES" =>
    let fk ← references none [c.name] (text.drop t.stop)
    -- All that follows is taken for part of the reference, so that nothing after it is read.
    return (c, extras ++ [.constraint fk], none)
  | "CHECK" =>
    match rest with
    | [] => return (c, extras, some 0)
    | u :: _ =>
      let expression := ofChars (trim (inner (trim u.text)))
      let check ← Constraint.checked { kind := .check, expression := some expression }
      return (c, extras ++ [.constraint check], some 1)
  | "COMMENT" =>
    match rest with
    | [] => return (c, extras, some 0)
    | u :: _ =>
      match stringValues u.text with
      | [] => throw .nothingFirst
      | value :: _ => return ({ c with comment := some value }, extras, some 1)
  | "ON" =>
    match next, rest with
    | "UPDATE", _ :: u :: more =>
      -- A call is two tokens: its name, and its arguments in parentheses.
      let value := match more with
        | v :: _ => if v.text.head? == some '(' then [u, v] else [u]
        | [] => [u]
      return ({ c with onUpdate := some (ofChars (span text value)) }, extras,
        some (value.length + 1))
    | _, _ => return (c, extras, some 0)
  | "GENERATED" =>
    let clause := rest.takeWhile fun u => !isStop u || u.word == "DEFAULT"
    let c := if clause.any (·.word == "IDENTITY") then { c with autoIncrement := true } else c
    return (c, extras, some clause.length)
  | "COLLATE" | "CONSTRAINT" | "CHARSET" => return (c, extras, some 1)
  | "CHARACTER" => return (c, extras, some (if next == "SET" then 2 else 0))
  | _ => return (c, extras, some 0)

def readAttributes (text : Chars) :
    (fuel : Nat) → List Token → Column → List Extra → Except Fault (Column × List Extra)
  | 0, _, c, extras | _, [], c, extras => .ok (c, extras)
  | n + 1, t :: rest, c, extras => do
    match ← readAttribute text t rest c extras with
    | (c, extras, some taken) => readAttributes text n (rest.drop taken) c extras
    | (c, extras, none) => return (c, extras)

/-- Reads a column definition; none if it has no name and something after it. -/
def readColumn (item : Chars) : Except Fault (Option (Column × List Extra)) := do
  match (capture 1 ident ++ blanks1).match? (trim item) with
  | none => return none
  | some m =>
    let written := WrittenType.ofChars (trim m.rest)
    let c : Column := { name := unquote (m.group 1), typeName := TypeName.normal written.name
                        isArray := written.isArray }
    let c ← match written.arguments with
      | some arguments => withArguments c arguments
      | none => pure c
    let ts := tokens written.rest
    let (c, extras) ← readAttributes written.rest ts.length ts c []
    return some (normalizeSerial c, extras)

end SqlFerry.Ddl
