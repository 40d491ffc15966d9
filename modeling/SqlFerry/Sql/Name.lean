import SqlFerry.Text.Pattern

/-!
# Names in SQL

How names are written: bare, or quoted with double quotes, backticks or brackets, and qualified by
dots. Reading a name gives its last part without the quotes.
-/

namespace SqlFerry.Sql

open Text Pattern

def isBare (c : Char) : Bool :=
  isWord c || c == '$'

def quotedBy (q : Char) : Pattern :=
  char q ++ star (alt (one (· != q)) (char q ++ char q)) ++ char q

def quotedIdent : Pattern :=
  choice [quotedBy '"', quotedBy '\x60', char '[' ++ star (noneOf "]") ++ char ']']

def ident : Pattern :=
  alt quotedIdent (plus (one isBare))

def qname : Pattern :=
  ident ++ star (blanks ++ char '.' ++ blanks ++ ident)

/-- The quote that a part of a qualified name is in, if any, the part and the parts before it, all
with the latest first. -/
structure Parts where
  until? : Option Char := none
  part : Chars := []
  done : List Chars := []

def Parts.add (p : Parts) (c : Char) : Parts :=
  match p.until? with
  | some q => { p with part := c :: p.part, until? := if c == q then none else some q }
  | none =>
    if c == '"' || c == '\x60' then { p with until? := some c, part := c :: p.part }
    else if c == '[' then { p with until? := some ']', part := c :: p.part }
    else if c == '.' then { p with part := [], done := p.part.reverse :: p.done }
    else { p with part := c :: p.part }

def lastPart (cs : Chars) : Chars :=
  (cs.foldl Parts.add {}).part.reverse

def inner (cs : Chars) : Chars :=
  (cs.drop 1).dropLast

/-- The name without qualification and quotes; a doubled quote stands for one. -/
def unquoteChars (cs : Chars) : Chars :=
  let name := trim (lastPart (trim cs))
  match name.head?, name.getLast? with
  | some a, some z =>
    if name.length < 2 then name
    else if a == z && (a == '"' || a == '\x60') then replace [a, a] [a] (inner name)
    else if a == '[' && z == ']' then inner name
    else name
  | _, _ => name

def unquote (cs : Chars) : String :=
  String.ofList (unquoteChars cs)

end SqlFerry.Sql
