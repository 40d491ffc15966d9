import SqlFerry.Splitter.State

/-!
# One step of a splitter

A step looks at the characters held back and either decides the first of them, taking one token, or
waits for more. With `final` there are no more to come and a step always decides.
-/

namespace SqlFerry.Splitter

open Text

inductive Fault where
  /-- The script ended inside a quote, a dollar-quoted block or a block comment. -/
  | unterminated (mode : Mode) (offset line : Nat)
  | oversized (limit : SizeLimit) (offset line : Nat)
  deriving DecidableEq, Repr

namespace Fault

def reason : Fault → String
  | unterminated (.quoted .single _) .. => "Unterminated string literal"
  | unterminated (.quoted .double _) .. => "Unterminated double-quoted literal"
  | unterminated (.quoted .backtick _) .. => "Unterminated backtick identifier"
  | unterminated (.quoted .bracket _) .. => "Unterminated bracket identifier"
  | unterminated (.dollarQuoted tag) .. =>
    "Unterminated dollar-quoted block " ++ String.ofList tag
  | unterminated .. => "Unterminated block comment"
  | oversized limit .. => s!"Statement exceeds maximum size of {limit.text} characters"

def offset : Fault → Nat
  | unterminated _ offset _ => offset
  | oversized _ offset _ => offset

def line : Fault → Nat
  | unterminated _ _ line => line
  | oversized _ _ line => line

end Fault

/-! ## The draft -/

namespace Draft

variable (d : Draft)

def note (cs : Chars) : Draft :=
  { d with out := cs.reverse ++ d.out }

def push (cs : Chars) : Draft :=
  { d with
    out := cs.reverse ++ d.out, size := d.size + cs.length
    trailingSpace := false, afterComment := false }

/-- A blank counts only inside a statement, and not where a comment has left a space. -/
def pushBlank (c : Char) : Draft :=
  if d.out.isEmpty || d.afterComment then d else { d with out := c :: d.out, trailingSpace := true }

def gap : Draft :=
  let d := { d with afterComment := true }
  if d.out.isEmpty || d.trailingSpace then d
  else { d with out := ' ' :: d.out, trailingSpace := true }

def text : Chars :=
  trim d.out.reverse

def headerLength : Nat := 8

/-- Whether the header is one of a trigger, routine or event, if it tells; `latest` is its last
word. -/
def detect (first latest : String) (length : Nat) : Option Bool :=
  if first != "CREATE" then some false
  else if ["TABLE", "VIEW", "INDEX", "SEQUENCE", "SCHEMA", "DATABASE", "TYPE"].contains latest then
    some false
  else if ["TRIGGER", "PROCEDURE", "FUNCTION", "EVENT"].contains latest then some true
  else if headerLength ≤ length then some false
  else none

def readHeader (word : String) : Draft :=
  if d.header.length < headerLength then
    let header := word :: d.header
    let compound := match d.compound with
      | some b => some b
      | none => detect (header.getLast?.getD word) word header.length
    { d with header, compound }
  else d

def openBlock (word : String) : Draft :=
  if word == "BEGIN" || word == "CASE" then { d with depth := d.depth + 1, routine := true }
  else if word == "END" then { d with pendingEnd := true }
  else d

/-- How a word, in upper case, changes the nesting of blocks. An `END` closes a block unless the
word after it says that it closes an `IF`, `LOOP`, `WHILE` or `REPEAT`. -/
def nest (word : String) : Draft :=
  let d := d.readHeader word
  if d.compound != some true then d
  else if d.pendingEnd then
    let d := { d with pendingEnd := false }
    if ["IF", "LOOP", "WHILE", "REPEAT"].contains word then d
    else
      let d := { d with depth := d.depth - 1 }
      if word == "CASE" then d else d.openBlock word
  else d.openBlock word

def settle : Draft × Bool :=
  if d.compound != some true then (d, true)
  else
    let d := if d.pendingEnd then { d with pendingEnd := false, depth := d.depth - 1 } else d
    (d, d.depth == 0)

end Draft

/-! ## Steps -/

/-- What a step decides: to wait, or to take the first character and `extra` more. -/
inductive Move where
  | hold
  | take (extra : Nat) (next : Splitter) (done : Option Statement)

section

variable (o : Options) (base : Nat) (final : Bool) (s : Splitter)

/-- Adds counted text and enforces the limit. A statement that starts at the beginning is reported
at `base`, the place where the text at hand begins. -/
def append (cs : Chars) : Except Fault Splitter :=
  let draft := s.draft.push cs
  if o.maxSize.isExceededBy draft.size then
    let offset := match draft.start with
      | none => base
      | some n => if n = 0 then base else n
    .error (.oversized o.maxSize offset draft.line)
  else .ok { s with draft }

def token (cs : Chars) : Except Fault Splitter :=
  let draft := if s.draft.start.isNone then { s.draft with start := some s.offset, line := s.line }
    else s.draft
  append o base { s with draft } cs

def markOpen : Splitter :=
  { s with openOffset := s.offset, openLine := s.line }

def emit (terminator : Option Chars) : Splitter × Option Statement :=
  let text := s.draft.text
  let fresh := { s with draft := {}, openOffset := 0, openLine := 1 }
  match s.draft.start, text with
  | none, _ | _, [] => (fresh, none)
  | some start, _ :: _ =>
    let statistics := { s.statistics with
      statements := s.statistics.statements + 1
      routineBodies := s.statistics.routineBodies + if s.draft.routine then 1 else 0 }
    ({ fresh with index := s.index + 1, statistics },
      some { text := String.ofList text, index := s.index, start, stop := s.offset
             line := s.draft.line, terminator := terminator.map String.ofList
             inRoutine := s.draft.routine })

def openQuote (mark : Mark) (escapes : Bool) (c : Char) : Except Fault Move := do
  let s ← token o base s.markOpen [c]
  return .take 0 { s with mode := .quoted mark escapes } none

def countComment : Splitter :=
  { s with statistics := { s.statistics with
      commentsRemoved := s.statistics.commentsRemoved + 1 } }

def openLineComment (marker : Chars) : Move :=
  let s := s.countComment
  let draft := if o.keepComments then s.draft.note marker else s.draft
  .take (marker.length - 1) { s with draft, mode := .lineComment } none

def openPlainComment : Move :=
  let s := s.markOpen.countComment
  let draft := if o.keepComments then s.draft.note ['/', '*'] else s.draft
  .take 1 { s with draft, mode := .blockComment o.keepComments } none

def openBlockComment (rest : Chars) : Except Fault Move := do
  if o.executableComments then
    match rest with
    | [] => return if final then openPlainComment o s else .hold
    | n :: _ =>
      if n == '!' then
        let s ← token o base s.markOpen ['/', '*', '!']
        return .take 2 { s with mode := .blockComment true } none
      else return openPlainComment o s
  else return openPlainComment o s

def isWordStart (c : Char) : Bool :=
  isAsciiLetter c || c == '_'

def isTagChar (c : Char) : Bool :=
  isWordStart c || isAsciiDigit c

def isWordPart (c : Char) : Bool :=
  isTagChar c || c == '$'

def delimiterLine (held : Chars) : Move :=
  let line := held.takeWhile (· != '\n')
  if (held.dropWhile (· != '\n')).isEmpty && !final then .hold
  else
    let s := match words (line.drop "DELIMITER".length) with
      | [] => s
      | delimiter :: _ =>
        { s with delimiter, statistics := { s.statistics with
            delimiterChanges := s.statistics.delimiterChanges + 1 } }
    .take (line.length - 1) s none

def upperWord (cs : Chars) : String :=
  String.ofList (cs.map Char.toUpper)

def readWord (c : Char) (rest : Chars) : Except Fault Move := do
  let tail := rest.takeWhile isWordPart
  if (rest.dropWhile isWordPart).isEmpty && !final then return .hold
  let word := c :: tail
  if o.delimiterDirective && s.draft.start.isNone && upperWord word == "DELIMITER" then
    return delimiterLine final s (c :: rest)
  let s ← token o base s word
  let draft := { s.draft with lastWord := word, lastWordEnd := some (s.offset + word.length) }
  return .take tail.length { s with draft := draft.nest (upperWord word) } none

/-- Whether a backslash escapes in the string that opens here: always in MySQL, in PostgreSQL only
right after the word `E`. -/
def stringEscapes : Bool :=
  match o.dialect with
  | some .mysql => true
  | some .postgresql =>
    s.draft.lastWordEnd == some s.offset && upperWord s.draft.lastWord == "E"
  | _ => false

def dollarTag? (rest : Chars) : Option Chars :=
  let name := rest.takeWhile isTagChar
  match rest.dropWhile isTagChar with
  | [] => none
  | n :: _ =>
    if n != '$' || (name.head?.map isAsciiDigit).getD false then none
    else some ('$' :: name ++ ['$'])

def readToken (c : Char) (rest : Chars) : Except Fault Move := do
  let plain : Except Fault Move := do return .take 0 (← token o base s [c]) none
  if isWordStart c then readWord o base final s c rest
  else if isBlank c then return .take 0 { s with draft := s.draft.pushBlank c } none
  else if c == '\'' then openQuote o base s .single (stringEscapes o s) c
  else if c == '"' then openQuote o base s .double o.isMysql c
  else if c == '`' && o.backticks then openQuote o base s .backtick false c
  else if c == '[' && o.brackets then openQuote o base s .bracket false c
  else if c == '-' then
    match rest with
    | [] => if final then plain else return .hold
    | n :: _ => if n == '-' then return openLineComment o s ['-', '-'] else plain
  else if c == '/' then
    match rest with
    | [] => if final then plain else return .hold
    | n :: rest => if n == '*' then openBlockComment o base final s rest else plain
  else if c == '#' && o.hashComments then return openLineComment o s ['#']
  else if c == '$' && o.dollarQuotes then
    match dollarTag? rest with
    | some tag =>
      let s ← token o base s.markOpen tag
      return .take (tag.length - 1)
        { s with mode := .dollarQuoted tag, draft := { s.draft with routine := true } } none
    | none => if !final && rest.all isTagChar then return .hold else plain
  else plain

def stepNormal (c : Char) (rest : Chars) : Except Fault Move :=
  if startsWith s.delimiter (c :: rest) then
    let close : Move :=
      let (s, done) := s.emit (some s.delimiter)
      .take (s.delimiter.length - 1) s done
    -- Only a semicolon can stand within a routine without ending it.
    if s.delimiter == [';'] then
      match s.draft.settle with
      | (draft, true) => .ok <|
        let (s, done) := { s with draft }.emit (some s.delimiter)
        .take 0 s done
      | (draft, false) => readToken o base final { s with draft } c rest
    else .ok close
  -- What is at hand may be the beginning of the delimiter.
  else if !final && startsWith (c :: rest) s.delimiter then .ok .hold
  else readToken o base final s c rest

def stepQuoted (mark : Mark) (escapes : Bool) (c : Char) (rest : Chars) : Except Fault Move := do
  if escapes && c == '\\' then
    match rest with
    | [] => if final then return .take 0 (← append o base s [c]) none else return .hold
    | n :: _ => return .take 1 (← append o base s [c, n]) none
  else if c == mark.closing then
    let close : Except Fault Move := do
      return .take 0 { (← append o base s [c]) with mode := .normal } none
    match rest with
    | [] => if final then close else return .hold
    | n :: _ => if n == c then return .take 1 (← append o base s [c, n]) none else close
  else return .take 0 (← append o base s [c]) none

def stepLineComment (c : Char) : Move :=
  if c == '\n' then
    let draft := if o.keepComments then s.draft else s.draft.gap
    .take 0 { s with mode := .normal, draft := draft.pushBlank c } none
  else .take 0 (if o.keepComments then { s with draft := s.draft.note [c] } else s) none

def appendIf (kept : Bool) (cs : Chars) : Except Fault Splitter :=
  if kept then append o base s cs else .ok s

def stepBlockComment (kept : Bool) (c : Char) (rest : Chars) : Except Fault Move := do
  let plain : Except Fault Move := do return .take 0 (← appendIf o base s kept [c]) none
  if c == '*' then
    match rest with
    | [] => if final then plain else return .hold
    | n :: _ =>
      if n == '/' then
        let s ← appendIf o base s kept [c, n]
        let draft := if kept then s.draft else s.draft.gap
        return .take 1 { s with draft, mode := .normal } none
      else plain
  else plain

def stepDollarQuoted (tag : Chars) (c : Char) (rest : Chars) : Except Fault Move := do
  if startsWith tag (c :: rest) then
    return .take (tag.length - 1) { (← append o base s tag) with mode := .normal } none
  else if !final && (c :: rest.take tag.length).length < tag.length then return .hold
  else return .take 0 (← append o base s [c]) none

def step (c : Char) (rest : Chars) : Except Fault Move :=
  match s.mode with
  | .normal => stepNormal o base final s c rest
  | .quoted mark escapes => stepQuoted o base final s mark escapes c rest
  | .lineComment => .ok (stepLineComment o s c)
  | .blockComment kept => stepBlockComment o base final s kept c rest
  | .dollarQuoted tag => stepDollarQuoted o base final s tag c rest

end

end SqlFerry.Splitter
