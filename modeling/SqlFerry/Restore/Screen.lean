import SqlFerry.Sql.Name

/-!
# Screening statements

Statements that a restore must not run: dropping a database, deleting all rows, and reading or
writing files of the server. Comments do not hide them, and words inside strings are not taken for
them.
-/

namespace SqlFerry.Restore

open Text Pattern Sql

def blockComment : Pattern :=
  Pattern.text "/*" ++ notAhead (char '!') ++ few any ++ Pattern.text "*/"

def executableOpening : Pattern :=
  Pattern.text "/*!" ++ star digit

def lineComment : Pattern :=
  Pattern.text "--" ++ star (noneOf "\n")

def blanked (p : Pattern) (cs : Chars) : Chars :=
  p.replaceAll (fun _ => [' ']) cs

/-- The statement with a space for each comment; what the server executes stays. -/
def withoutComments (cs : Chars) : Chars :=
  blanked lineComment (blanked executableOpening (blanked blockComment cs))

def stringLiteral : Pattern :=
  char '\'' ++ star (choice [noneOf "'\\", char '\\' ++ any, Pattern.text "''"]) ++ char '\''

def withoutStrings (cs : Chars) : Chars :=
  stringLiteral.replaceAll (fun _ => ['\'', '\'']) cs

/-- What is denied: a pattern, whether it has to begin the statement, and the reason. -/
structure Denial where
  pattern : Pattern
  atStart : Bool
  reason : String

def call (names : List String) : Pattern :=
  edge ++ choice (names.map word) ++ blanks ++ char '('

def denials : List Denial := [
  { pattern := blanks ++ word "DROP" ++ blanks1 ++ choice [word "DATABASE", word "SCHEMA"] ++
      blanks1 ++ notAhead (phrase ["IF", "EXISTS"] ++ edge)
    atStart := true, reason := "DROP DATABASE/SCHEMA without IF EXISTS is not allowed" },
  { pattern := call ["LOAD_FILE"], atStart := false, reason := "LOAD_FILE() is not allowed" },
  { pattern := edge ++ word "INTO" ++ blanks1 ++ choice [word "OUTFILE", word "DUMPFILE"] ++ edge
    atStart := false, reason := "SELECT ... INTO OUTFILE is not allowed" },
  { pattern := edge ++ phrase ["LOAD", "DATA"] ++ blanks1 ++
      star (choice [word "LOW_PRIORITY", word "CONCURRENT", word "LOCAL"] ++ blanks1) ++
      word "INFILE" ++ edge
    atStart := false, reason := "LOAD DATA INFILE is not allowed" },
  { pattern := call ["pg_read_file", "pg_read_binary_file", "pg_ls_dir", "lo_import", "lo_export"]
    atStart := false, reason := "Server file access functions are not allowed" },
  { pattern := blanks ++ word "COPY" ++ edge ++ few any ++ edge ++
      choice [word "FROM", word "TO"] ++ blanks1 ++
      alt (word "PROGRAM" ++ edge) (char '\'' ++ star (noneOf "'") ++ char '\'')
    atStart := true, reason := "COPY to or from a server file or program is not allowed" },
  { pattern := call ["readfile", "writefile"]
    atStart := false, reason := "readfile()/writefile() are not allowed" }]

def Denial.applies (d : Denial) (cs : Chars) : Bool :=
  if d.atStart then (d.pattern.match? cs).isSome else d.pattern.occurs cs

/-! ## Deleting all rows -/

def deletePattern : Pattern :=
  blanks ++ word "DELETE" ++ blanks1 ++
    star (choice [word "LOW_PRIORITY", word "QUICK", word "IGNORE"] ++ blanks1) ++ word "FROM" ++
    blanks1 ++ opt (word "ONLY" ++ blanks1) ++ capture 1 qname

def wherePattern : Pattern :=
  edge ++ word "WHERE" ++ edge

def operand : Pattern :=
  plus (one fun c => isWord c || ['.', '\'', '"', '\x60'].contains c)

def tautology : Pattern :=
  star (char '(') ++ blanks ++
    choice [word "true", char '1', word "not" ++ blanks1 ++ word "false",
      char '1' ++ blanks ++ Pattern.text "<>" ++ blanks ++ char '0',
      capture 1 operand ++ blanks ++ char '=' ++ blanks ++ again 1] ++
    blanks ++ star (char ')') ++ finish

def isTautology (condition : Chars) : Bool :=
  let cs := ((trim condition).reverse.dropWhile (· == ';')).reverse
  let cs := (oneLine (String.ofList cs)).toList
  let holds (cs : Chars) : Bool := (tautology.match? cs).isSome
  holds cs || ((edge ++ word "OR" ++ edge).split cs).any fun part => holds (trim part)

def exempt : List String :=
  ["sqlite_sequence"]

def deletion? (body : Chars) : Option String :=
  match deletePattern.match? body with
  | none => none
  | some m =>
    if exempt.contains (lower (unquote (m.group 1))) then none
    else match wherePattern.search? m.rest with
      | none => some "DELETE without a WHERE clause is not allowed"
      | some w =>
        if isTautology w.rest then some "DELETE with an always-true WHERE clause is not allowed"
        else none

def denied? (text : String) : Option String :=
  let body := withoutComments text.toList
  let masked := withoutStrings body
  match denials.find? (·.applies masked) with
  | some d => some d.reason
  | none => deletion? body

end SqlFerry.Restore
