import SqlFerry.Text.Basic

/-!
# Patterns

Regular patterns over characters with captures, look-ahead and word boundaries. Alternatives are
tried in order and repetitions take as much, or as little, as the rest of the pattern allows: the
first way to match, in that order, is the match. A search takes the leftmost place that matches.
-/

namespace SqlFerry.Text

inductive Pattern where
  /-- The empty text. -/
  | empty
  /-- One character of a class. -/
  | one (p : Char → Bool)
  | seq (a b : Pattern)
  /-- The first alternative that leads to a match. -/
  | alt (a b : Pattern)
  /-- Zero or more times, as many as possible if `greedy`, else as few as possible. -/
  | many (greedy : Bool) (a : Pattern)
  /-- Keeps what `a` matched under the number `n`. -/
  | capture (n : Nat) (a : Pattern)
  /-- What was kept under the number `n`, in either case. -/
  | again (n : Nat)
  /-- Looks ahead without consuming. -/
  | ahead (a : Pattern)
  | notAhead (a : Pattern)
  /-- A place with a word character on exactly one side. -/
  | edge
  /-- The beginning of a line. -/
  | lineStart
  /-- The end of the text, or a line feed that ends it. -/
  | finish

structure Cursor where
  before : Option Char
  rest : Chars
  offset : Nat

structure Capture where
  number : Nat
  start : Nat
  text : Chars

/-- A place reached by a match under way, with its captures, the latest first. -/
structure Reached where
  cursor : Cursor
  captures : List Capture

namespace Cursor

def atStart (cs : Chars) : Cursor :=
  ⟨none, cs, 0⟩

def ofOffset (cs : Chars) (offset : Nat) : Cursor :=
  ⟨if offset = 0 then none else cs[offset - 1]?, cs.drop offset, offset⟩

def atEdge (c : Cursor) : Bool :=
  (c.before.map isWord).getD false != (c.rest.head?.map isWord).getD false

end Cursor

namespace Pattern

instance : Append Pattern := ⟨seq⟩

/-- The place after `text`, if `text` stands here in either case. Where a lower case has several
characters, the first counts. -/
def afterAnyCase? : (text : Chars) → Cursor → Option Cursor
  | [], c => some c
  | a :: text, c =>
    match c.rest with
    | [] => none
    | x :: rest =>
      if (lowerChar a).head? == (lowerChar x).head? then
        afterAnyCase? text ⟨some x, rest, c.offset + 1⟩
      else none

/-- Takes at most `fuel` rounds of `body`, each of which has to consume something. -/
def rounds {α : Type} (body : Reached → (Reached → Option α) → Option α) (greedy : Bool) :
    (fuel : Nat) → Reached → (Reached → Option α) → Option α
  | 0, r, k => k r
  | n + 1, r, k =>
    let more := fun (_ : Unit) => body r fun r' =>
      if r.cursor.offset < r'.cursor.offset then rounds body greedy n r' k else none
    if greedy then
      match more () with
      | some a => some a
      | none => k r
    else
      match k r with
      | some a => some a
      | none => more ()

/-- Matches at a place and hands every place that can be reached to `k`, in order, until `k`
accepts one. -/
def run {α : Type} : Pattern → Reached → (Reached → Option α) → Option α
  | empty, r, k => k r
  | one p, r, k =>
    match r.cursor.rest with
    | c :: rest => if p c then k { r with cursor := ⟨some c, rest, r.cursor.offset + 1⟩ } else none
    | [] => none
  | seq a b, r, k => a.run r fun r' => b.run r' k
  | alt a b, r, k =>
    match a.run r k with
    | some x => some x
    | none => b.run r k
  | many greedy a, r, k => rounds a.run greedy r.cursor.rest.length r k
  | capture n a, r, k => a.run r fun r' =>
    k { r' with captures := ⟨n, r.cursor.offset,
      r.cursor.rest.take (r'.cursor.offset - r.cursor.offset)⟩ :: r'.captures }
  | again n, r, k =>
    match r.captures.find? (·.number == n) with
    | some c =>
      match afterAnyCase? c.text r.cursor with
      | some cursor => k { r with cursor }
      | none => none
    | none => none
  | ahead a, r, k =>
    match a.run r some with
    | some r' => k { r with captures := r'.captures }
    | none => none
  | notAhead a, r, k =>
    match a.run r some with
    | some _ => none
    | none => k r
  | edge, r, k => if r.cursor.atEdge then k r else none
  | lineStart, r, k =>
    if r.cursor.before.isNone || r.cursor.before == some '\n' then k r else none
  | finish, r, k => if r.cursor.rest.isEmpty || r.cursor.rest == ['\n'] then k r else none

/-! ## Building patterns -/

def char (c : Char) : Pattern :=
  one (· == c)

def oneOf (s : String) : Pattern :=
  one s.toList.contains

def noneOf (s : String) : Pattern :=
  one fun c => !s.toList.contains c

def any : Pattern :=
  one fun _ => true

def ofList : List Pattern → Pattern
  | [] => empty
  | [a] => a
  | a :: as => seq a (ofList as)

def text (s : String) : Pattern :=
  ofList (s.toList.map char)

def word (s : String) : Pattern :=
  ofList (s.toList.map fun a => one (sameLetter a))

def choice : List Pattern → Pattern
  | [] => one fun _ => false
  | [a] => a
  | a :: as => alt a (choice as)

def opt (a : Pattern) : Pattern :=
  alt a empty

def star (a : Pattern) : Pattern :=
  many true a

def few (a : Pattern) : Pattern :=
  many false a

def plus (a : Pattern) : Pattern :=
  seq a (star a)

def blank : Pattern :=
  one isBlank

def blanks : Pattern :=
  star blank

def blanks1 : Pattern :=
  plus blank

def digit : Pattern :=
  one isDecimal

def wordChar : Pattern :=
  one isWord

def phrase (ws : List String) : Pattern :=
  match ws with
  | [] => empty
  | [w] => word w
  | w :: ws => word w ++ blanks1 ++ phrase ws

/-! ## Using patterns -/

structure Match where
  start : Nat
  stop : Nat
  text : Chars
  /-- What follows the match. -/
  rest : Chars
  captures : List Capture

namespace Match

def group? (m : Match) (n : Nat) : Option Chars :=
  (m.captures.find? (·.number == n)).map (·.text)

def group (m : Match) (n : Nat) : Chars :=
  (m.group? n).getD []

def has (m : Match) (n : Nat) : Bool :=
  (m.group? n).isSome

end Match

def matchAt? (p : Pattern) (c : Cursor) : Option Match :=
  (p.run ⟨c, []⟩ some).map fun r =>
    { start := c.offset, stop := r.cursor.offset, text := c.rest.take (r.cursor.offset - c.offset)
      rest := r.cursor.rest, captures := r.captures }

def match? (p : Pattern) (cs : Chars) : Option Match :=
  p.matchAt? (.atStart cs)

def searchIn (p : Pattern) (before : Option Char) (offset : Nat) : Chars → Option Match
  | [] => p.matchAt? ⟨before, [], offset⟩
  | c :: rest =>
    match p.matchAt? ⟨before, c :: rest, offset⟩ with
    | some m => some m
    | none => searchIn p (some c) (offset + 1) rest

def searchFrom? (p : Pattern) (c : Cursor) : Option Match :=
  searchIn p c.before c.offset c.rest

def search? (p : Pattern) (cs : Chars) : Option Match :=
  p.searchFrom? (.atStart cs)

def occurs (p : Pattern) (cs : Chars) : Bool :=
  (p.search? cs).isSome

def collect (p : Pattern) : Nat → Cursor → List Match
  | 0, _ => []
  | n + 1, c =>
    match p.searchFrom? c with
    | none => []
    | some m =>
      let last := if m.text.isEmpty then (if m.start = c.offset then c.before else none)
        else m.text.getLast?
      if m.stop = m.start then
        match m.rest with
        | [] => [m]
        | x :: rest => m :: collect p n ⟨some x, rest, m.stop + 1⟩
      else m :: collect p n ⟨last, m.rest, m.stop⟩

/-- The matches from left to right; each begins where the one before it ended or later. -/
def findAll (p : Pattern) (cs : Chars) : List Match :=
  collect p (cs.length + 1) (.atStart cs)

def spliceFrom (f : Match → Chars) : Nat → Chars → List Match → Chars
  | _, cs, [] => cs
  | offset, cs, m :: ms =>
    cs.take (m.start - offset) ++ f m ++ spliceFrom f m.stop (cs.drop (m.stop - offset)) ms

def replaceAll (p : Pattern) (f : Match → Chars) (cs : Chars) : Chars :=
  spliceFrom f 0 cs (p.findAll cs)

def gapsFrom : Nat → Chars → List Match → List Chars
  | _, cs, [] => [cs]
  | offset, cs, m :: ms =>
    cs.take (m.start - offset) :: gapsFrom m.stop (cs.drop (m.stop - offset)) ms

def split (p : Pattern) (cs : Chars) : List Chars :=
  gapsFrom 0 cs (p.findAll cs)

end Pattern

end SqlFerry.Text
