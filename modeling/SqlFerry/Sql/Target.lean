import SqlFerry.Sql.Name

/-!
# The table that a statement concerns

Patterns of the statements that define a table or write to one, and the name of that table.
-/

namespace SqlFerry.Sql

open Text Pattern

def maybe (ws : List String) : Pattern :=
  opt (phrase ws ++ blanks1)

def createTable : Pattern :=
  word "CREATE" ++ blanks1 ++ maybe ["OR", "REPLACE"] ++
    opt (choice [word "GLOBAL", word "LOCAL"] ++ blanks1) ++
    opt (choice [word "TEMP" ++ opt (word "ORARY") ++ blanks1, word "UNLOGGED" ++ blanks1]) ++
    word "TABLE" ++ blanks1 ++ maybe ["IF", "NOT", "EXISTS"] ++ capture 1 qname ++ blanks ++
    char '('

def only : Pattern :=
  maybe ["ONLY"]

def createIndexOn : Pattern :=
  word "CREATE" ++ blanks1 ++ few (plus wordChar ++ blanks1) ++ word "INDEX" ++ blanks1 ++
    few any ++ edge ++ word "ON" ++ blanks1 ++ only ++ capture 1 qname

def alterTable : Pattern :=
  phrase ["ALTER", "TABLE"] ++ blanks1 ++ only ++ maybe ["IF", "EXISTS"] ++ only ++
    capture 1 qname

def insertInto : Pattern :=
  choice [word "INSERT", word "REPLACE"] ++ blanks1 ++
    star (choice [word "IGNORE", word "OR" ++ blanks1 ++ plus wordChar, word "LOW_PRIORITY",
      word "DELAYED", word "HIGH_PRIORITY"] ++ blanks1) ++
    maybe ["INTO"] ++ capture 1 qname

/-- The statements that concern one table, in the order in which they are tried. -/
def targets : List Pattern := [
  createTable,
  createIndexOn,
  alterTable,
  phrase ["DROP", "TABLE"] ++ blanks1 ++ maybe ["IF", "EXISTS"] ++ capture 1 qname,
  insertInto,
  word "UPDATE" ++ blanks1 ++ opt (word "OR" ++ blanks1 ++ plus wordChar ++ blanks1) ++ only ++
    capture 1 qname,
  phrase ["DELETE", "FROM"] ++ blanks1 ++ only ++ capture 1 qname,
  word "TRUNCATE" ++ blanks1 ++ maybe ["TABLE"] ++ only ++ capture 1 qname,
  word "COPY" ++ blanks1 ++ capture 1 qname,
  word "LOCK" ++ blanks1 ++ word "TABLE" ++ opt (word "S") ++ blanks1 ++ capture 1 qname]

/-- Blanks and comments, and the openings of comments that the server executes. -/
def leadingComments : Pattern :=
  star (choice [blanks1, text "--" ++ star (noneOf "\n") ++ char '\n',
    text "/*" ++ notAhead (char '!') ++ few any ++ text "*/", text "/*!" ++ star digit])

def withoutLeadingComments (cs : Chars) : Chars :=
  match leadingComments.match? cs with
  | some m => m.rest
  | none => cs

def targetTable? (sql : String) : Option String :=
  let body := withoutLeadingComments sql.toList
  (targets.findSome? (·.match? body)).map fun m => unquote (m.group 1)

end SqlFerry.Sql
