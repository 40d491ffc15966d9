import SqlFerry.Sql.Nesting
import SqlFerry.Sql.Target
import SqlFerry.Schema

/-!
# Clauses of definitions

The parts that several definitions share: access methods and comments, the columns of an index,
references to another table, and the options of a table.
-/

namespace SqlFerry.Ddl

open Text Pattern Sql

def ofChars (cs : Chars) : String :=
  String.ofList cs

/-- The value of a run of digits; a character that is a digit only by its form has none. -/
def number (cs : Chars) : Except Fault Int :=
  (Value.readWhole (ofChars cs)).mapError fun t => .refused (.ofWhole (ofChars cs) t)

def method? (cs : Chars) : Option String :=
  ((edge ++ word "USING" ++ blanks1 ++ capture 1 (plus wordChar)).search? cs).map fun m =>
    ofChars (m.group 1)

def singleQuoted : Pattern :=
  star (alt (noneOf "'") (Pattern.text "''"))

/-- The text after `COMMENT`; a doubled quote stands for one. -/
def comment? (cs : Chars) : Option String :=
  ((edge ++ word "COMMENT" ++ blanks1 ++ char '\'' ++ capture 1 singleQuoted ++ char '\'').search?
    cs).map fun m => ofChars (replace ['\'', '\''] ['\''] (m.group 1))

def indexColumnPattern : Pattern :=
  capture 1 ident ++ blanks ++
    opt (char '(' ++ blanks ++ capture 2 (plus digit) ++ blanks ++ char ')') ++ blanks ++
    opt (capture 3 (choice [word "ASC", word "DESC"]) ++ edge) ++
    opt (blanks1 ++ word "NULLS" ++ blanks1 ++ choice [word "FIRST", word "LAST"]) ++ finish

def indexColumn? (part : Chars) : Option (Except Fault IndexColumn) :=
  (indexColumnPattern.match? part).map fun m => do
    let length ← (m.group? 2).mapM number
    let direction ← (m.group? 3).mapM fun d => (Direction.ofText (ofChars d)).mapError .broken
    return { name := unquote (m.group 1), length, direction }

/-- The columns of an index from its group in parentheses, or the whole group as an expression if
one of its parts is no column. -/
def indexColumns (group : Chars) : Except Fault (List IndexColumn × Option String) :=
  let body := inner (trim group)
  let rec read : List Chars → List IndexColumn → Except Fault (List IndexColumn × Option String)
    | [], done => .ok (done.reverse, none)
    | part :: parts, done =>
      match indexColumn? part with
      | none => .ok ([], some (ofChars (trim body)))
      | some r => do read parts ((← r) :: done)
  read (items body) []

def action : Pattern :=
  choice [word "CASCADE", word "RESTRICT", phrase ["SET", "NULL"], phrase ["SET", "DEFAULT"],
    phrase ["NO", "ACTION"]]

def actionOn? (event : String) (cs : Chars) : Option String :=
  ((phrase ["ON", event] ++ blanks1 ++ capture 1 action).search? cs).map fun m =>
    oneLine (upper (ofChars (m.group 1)))

/-- A foreign key of `columns`; `cs` follows the word `REFERENCES`. -/
def references (name : Option String) (columns : List String) (cs : Chars) :
    Except Fault Constraint :=
  let list := char '(' ++ star (noneOf ")") ++ char ')'
  let found := (blanks ++ capture 1 qname ++ blanks ++ opt (capture 2 list)).match? cs
  Constraint.checked
    { name, kind := .foreignKey, columns
      referencedTable := some ((found.map fun m => unquote (m.group 1)).getD "")
      referencedColumns := ((found.bind (·.group? 2)).map names).getD []
      onDelete := actionOn? "DELETE" cs
      onUpdate := actionOn? "UPDATE" cs }

def foreignKey (name : Option String) (cs : Chars) : Except Fault Constraint := do
  let cs := trim cs
  let inline := ((opt (capture 1 ident) ++ blanks ++ char '(').match? cs).bind (·.group? 1)
  let name := if given name then name else (inline.map unquote).or name
  match find? ['('] cs with
  | none => throw (.refused .noParenthesis)
  | some i =>
    let (list, rest) := match closing? (cs.drop i) with
      | some _ => group (cs.drop i)
      | none => ([], cs)
    let rest := match (blanks ++ word "REFERENCES" ++ edge).match? rest with
      | some m => m.rest
      | none => rest
    references name (names list) rest

def optionPattern : Pattern :=
  opt (word "DEFAULT" ++ blanks1) ++
    capture 1 (choice [word "ENGINE", word "CHARSET", phrase ["CHARACTER", "SET"], word "COLLATE",
      word "AUTO_INCREMENT", word "COMMENT", word "ROW_FORMAT"]) ++
    blanks ++ opt (char '=') ++ blanks ++
    capture 2 (alt (char '\'' ++ singleQuoted ++ char '\'') (plus (one (!isBlank ·))))

def optionValue (cs : Chars) : String :=
  let cs := (cs.reverse.dropWhile (· == ';')).reverse
  if cs.head? == some '\'' && cs.getLast? == some '\'' then
    ofChars (replace ['\'', '\''] ['\''] (inner cs))
  else ofChars cs

def putOption (k v : String) (options : List (String × String)) :
    List (String × String) :=
  if options.any (·.1 == k) then options.map fun o => if o.1 == k then (k, v) else o
  else options ++ [(k, v)]

/-- The options after the definition of a table; of two values for one, the last counts. -/
def tableOptions (cs : Chars) : List (String × String) :=
  (optionPattern.findAll cs).foldl (fun acc m =>
    let k := "_".intercalate ((words (lower (ofChars (m.group 1))).toList).map ofChars)
    putOption (if k == "character_set" then "charset" else k) (optionValue (m.group 2)) acc) []

def indexName (table : String) (columns : List IndexColumn) : String :=
  let stem := "_".intercalate (columns.map (·.name))
  table ++ "_" ++ (if stem.isEmpty then "expr" else stem) ++ "_idx"

end SqlFerry.Ddl
