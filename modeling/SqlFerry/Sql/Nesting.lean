import SqlFerry.Sql.Name

/-!
# Parentheses and quotes

Cutting SQL text at characters outside parentheses and quotes, finding the parenthesis that closes
another, and reading tokens with a group in parentheses as one. Inside single quotes a backslash
protects the character after it.
-/

namespace SqlFerry.Sql

open Text

structure Nesting where
  depth : Int := 0
  quote : Option Char := none
  /-- The next character is protected by a backslash. -/
  escaped : Bool := false
  deriving DecidableEq, Repr

namespace Nesting

def next (n : Nesting) (c : Char) : Nesting :=
  if n.escaped then { n with escaped := false }
  else match n.quote with
    | some q =>
      if c == '\\' && q == '\'' then { n with escaped := true }
      else if c == q then { n with quote := none } else n
    | none =>
      if c == '\'' || c == '"' || c == '\x60' then { n with quote := some c }
      else if c == '(' then { n with depth := n.depth + 1 }
      else if c == ')' then { n with depth := n.depth - 1 }
      else n

def isOpen (n : Nesting) : Bool :=
  !n.escaped && n.quote.isNone

end Nesting

def isMark (c : Char) : Bool :=
  ['\'', '"', '\x60', '(', ')'].contains c

def splitFrom (sep : Char → Bool) : Nesting → (part : Chars) → Chars → List Chars
  | _, part, [] => [part.reverse]
  | n, part, c :: cs =>
    if n.isOpen && n.depth == 0 && sep c && !isMark c then part.reverse :: splitFrom sep n [] cs
    else splitFrom sep (n.next c) (c :: part) cs

/-- The trimmed pieces between separators outside parentheses and quotes; empty ones are left
out. -/
def splitTopLevel (sep : Char → Bool) (cs : Chars) : List Chars :=
  ((splitFrom sep {} [] cs).map trim).filter (!·.isEmpty)

def items (cs : Chars) : List Chars :=
  splitTopLevel (· == ',') cs

def closeFrom : Nesting → Nat → Chars → Option Nat
  | _, _, [] => none
  | n, i, c :: cs =>
    let m := n.next c
    if n.isOpen && c == ')' && m.depth == 0 then some i else closeFrom m (i + 1) cs

def closing? (cs : Chars) : Option Nat :=
  closeFrom {} 0 cs

/-- Where the parenthesis stands that closes the one at `i`. A place below zero is counted from the
end, and reading then goes on from the beginning; none if it is before all characters. -/
def closingAt? (cs : Chars) (i : Int) : Option (Option Int) :=
  let found (cs : Chars) : Option Int := (closing? cs).map fun n => i + n
  if 0 ≤ i then some (found (cs.drop i.toNat))
  else if cs.length < i.natAbs then none
  else some (found (cs.drop (cs.length - i.natAbs) ++ cs))

/-- The group that begins `cs`, with its parentheses, and what follows it. A group that is never
closed is empty, and all of `cs` follows it. -/
def group (cs : Chars) : Chars × Chars :=
  match closing? cs with
  | some i => (cs.take (i + 1), cs.drop (i + 1))
  | none => ([], cs)

def names (cs : Chars) : List String :=
  let cs := trim cs
  let body := if cs.head? == some '(' && cs.getLast? == some ')' then inner cs else cs
  (items body).map unquote

def stringValue (part : Chars) : String :=
  match part.head?, part.getLast? with
  | some a, some z =>
    if 2 ≤ part.length && (a == '\'' || a == '"') && z == a then
      String.ofList (replace ['\\', '\''] ['\''] (replace [a, a] [a] (inner part)))
    else String.ofList part
  | _, _ => String.ofList part

def stringValues (body : Chars) : List String :=
  (items body).map stringValue

/-! ## Tokens -/

structure Token where
  text : Chars
  start : Nat
  stop : Nat
  deriving Repr

def Token.word (t : Token) : String :=
  upper (String.ofList t.text)

def quotedText : Pattern :=
  open Pattern in
  char '\'' ++ star (choice [noneOf "'\\", text "''", char '\\' ++ any]) ++ char '\''

def tokenPattern : Pattern :=
  open Pattern in
  choice [quotedText, quotedIdent, text "::",
    plus (one fun c => isWord c || c == '$' || c == '.'), one (!isBlank ·)]

def tokensFrom : (fuel : Nat) → (offset : Nat) → Chars → List Token
  | 0, _, _ => []
  | n + 1, offset, cs =>
    let blanks := cs.takeWhile isBlank
    let cs := cs.drop blanks.length
    let offset := offset + blanks.length
    let length :=
      if cs.head? == some '(' then (closing? cs).elim cs.length (· + 1)
      else ((tokenPattern.match? cs).map (·.stop)).getD 0
    if length = 0 then []
    else ⟨cs.take length, offset, offset + length⟩ ::
      tokensFrom n (offset + length) (cs.drop length)

def tokens (cs : Chars) : List Token :=
  tokensFrom cs.length 0 cs

end SqlFerry.Sql
