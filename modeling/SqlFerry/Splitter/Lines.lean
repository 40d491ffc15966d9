import SqlFerry.Statement
import SqlFerry.Dialect

/-!
# Splitting by lines

A simpler splitter for scripts whose statements end where a line ends: lines are gathered until one
ends with the delimiter. It does not look inside quotes; the bodies of PostgreSQL functions are kept
together by counting their `$$` marks.
-/

namespace SqlFerry.Splitter.Lines

open Text

structure State where
  delimiter : Chars := [';']
  gathered : List Chars := []
  start : Nat := 0
  startLine : Nat := 1
  inRoutine : Bool := false
  offset : Nat := 0
  number : Nat := 0
  done : List Statement := []

def routineStart : Pattern :=
  open Pattern in
  blanks ++ word "CREATE" ++ blanks1 ++ opt (phrase ["OR", "REPLACE"] ++ blanks1) ++
    choice [word "FUNCTION", word "PROCEDURE"] ++ edge

namespace State

def emit (s : State) (stop : Nat) (terminator : Option Chars) : State :=
  let body := trim s.gathered.reverse.flatten
  let body := match terminator with
    | some t => if endsWith t body then trimRight (body.take (body.length - t.length)) else body
    | none => body
  let fresh := { s with gathered := [], inRoutine := false }
  if body.isEmpty then fresh
  else { fresh with done :=
    { text := String.ofList body, index := s.done.length, start := s.start, stop
      line := s.startLine, terminator := terminator.map String.ofList
      inRoutine := s.inRoutine } :: s.done }

def gather (s : State) (raw line : Chars) (lineStart : Nat) : State :=
  let s := { s with gathered := raw :: s.gathered }
  if !endsWith s.delimiter line then s
  else
    -- The body of a routine is between dollar signs, of which an odd number leaves it open.
    let marks := count ['$', '$'] s.gathered.reverse.flatten
    if s.inRoutine && (marks == 0 || marks % 2 == 1) then s
    else s.emit (lineStart + ((trimRight raw).length - s.delimiter.length)) (some s.delimiter)

/-- Reads one line. Between statements, blank lines, comments and `DELIMITER` lines are no part of
any. -/
def read (dialect : Option Dialect) (s : State) (raw : Chars) : State :=
  let lineStart := s.offset
  let s := { s with offset := s.offset + raw.length, number := s.number + 1 }
  let line := trim raw
  let directive := (dialect.isNone || dialect == some .mysql) &&
    startsWith "DELIMITER ".toList (upper (String.ofList line)).toList
  if !s.gathered.isEmpty then s.gather raw line lineStart
  else if line.isEmpty || startsWith ['-', '-'] line then s
  else if line.head? == some '#' && dialect == some .mysql then s
  else if directive then
    match words line with
    | _ :: delimiter :: _ => { s with delimiter }
    | _ => s
  else
    let inRoutine := (dialect.isNone || dialect == some .postgresql) &&
      (routineStart.match? line).isSome
    { s with
      start := lineStart + (raw.length - (trimLeft raw).length)
      startLine := s.number
      inRoutine }.gather raw line lineStart

end State

def parse (dialect : Option Dialect) (script : Chars) : List Statement :=
  let s := (linesWithEnds script).foldl (State.read dialect) {}
  let s := if s.gathered.isEmpty then s else s.emit s.offset none
  s.done.reverse

end SqlFerry.Splitter.Lines
