import SqlFerry.Text.Pattern

/-!
# Statements

One executable unit of SQL text with its place in the script, and what its leading words say about
it: the verb and the kind.
-/

namespace SqlFerry

open Text

/-- `start` and `stop` are character offsets of the statement's body in the script, without the
delimiter that closed it; `terminator` is none for what stands at the end of the script. -/
structure Statement where
  text : String
  index : Nat
  start : Nat
  stop : Nat
  line : Nat
  terminator : Option String
  inRoutine : Bool
  deriving DecidableEq, Repr, Inhabited

namespace Statement

inductive Kind where
  | ddl
  | dml
  | setting
  | other
  deriving DecidableEq, Repr

def Kind.name : Kind → String
  | ddl => "ddl"
  | dml => "dml"
  | setting => "set"
  | other => "other"

def executableOpening : Pattern :=
  Pattern.text "/*!" ++ Pattern.star Pattern.digit

private def isLetterOrUnderscore (c : Char) : Bool :=
  isAsciiLetter c || c == '_'

/-- The first words of a statement in upper case, at most `limit` of them and from the first 400
characters only. -/
def leadingWords (text : String) (limit : Nat := 8) : List String :=
  let body := text.toList.dropWhile "( \t\r\n".toList.contains
  let body := match (executableOpening ++ Pattern.blanks).match? body with
    | some m => m.rest
    | none => body
  let found := (Pattern.plus (Pattern.one isLetterOrUnderscore)).findAll (body.take 400)
  (found.take limit).map fun m => upper (String.ofList m.text)

private def modifiers : List String :=
  ["OR", "REPLACE", "UNIQUE", "TEMP", "TEMPORARY", "GLOBAL", "LOCAL", "UNLOGGED", "MATERIALIZED",
   "VIRTUAL", "FULLTEXT", "SPATIAL", "ONLINE", "IGNORE", "AGGREGATE", "RECURSIVE", "CONSTRAINT",
   "DEFINER"]

/-- The leading verb; `CREATE`, `ALTER` and `DROP` take the object's keyword with them. -/
def verbOf (text : String) : String :=
  match leadingWords text with
  | [] => ""
  | first :: rest =>
    if ["CREATE", "ALTER", "DROP"].contains first then
      match rest.find? (!modifiers.contains ·) with
      | some word => first ++ " " ++ word
      | none => first
    else first

def kindOf (text : String) : Kind :=
  match leadingWords text 2 with
  | [] => .other
  | first :: _ =>
    if first == "WITH" then if contains (upper text) "INSERT" then .dml else .other
    else if ["CREATE", "ALTER", "DROP", "TRUNCATE", "RENAME", "COMMENT"].contains first then .ddl
    else if ["INSERT", "UPDATE", "DELETE", "REPLACE", "MERGE", "COPY", "UPSERT"].contains first then
      .dml
    else if ["SET", "PRAGMA", "USE"].contains first then .setting
    else .other

def verb (s : Statement) : String :=
  verbOf s.text

def kind (s : Statement) : Kind :=
  kindOf s.text

/-- The text on one line, cut after `limit` characters, or before the last ones if that is below
zero. -/
def previewOf (text : String) (limit : Int) : String :=
  let flat := (oneLine text).toList
  if flat.length ≤ limit then String.ofList flat else String.ofList (upTo limit flat) ++ "..."

def preview (s : Statement) (limit : Int := 100) : String :=
  previewOf s.text limit

end Statement

end SqlFerry
