import SqlFerry.Text.Pattern
import SqlFerry.Fault

/-!
# TOML

Reading TOML documents into records. Tables may be reopened only as the format allows: a table that
has a heading, or that dotted keys made, has no second heading, and what is written inline is
closed.
-/

namespace SqlFerry.Toml

open Text

inductive Trouble where
  /-- A rule of the format is broken, where `left` characters are left. -/
  | broken (what : String) (left : Nat)
  /-- A whole number has too many digits. -/
  | tooManyDigits (count : Nat)
  /-- Arrays and inline tables are nested too deep. -/
  | tooDeep
  deriving DecidableEq, Repr

private def placeOf (source : Chars) (left : Nat) : String :=
  if left = 0 then "end of document"
  else
    let before := source.take (source.length - left)
    let column := (before.reverse.takeWhile (· != '\n')).length + 1
    let line := before.count '\n' + 1
    s!"line {line}, column {column}"

def Trouble.fault (shown : String) (source : Chars) : Trouble → Fault
  | broken what left => .refused (.badToml shown s!"{what} (at {placeOf source left})")
  | tooManyDigits count => .refused (.tooManyDigits count)
  | tooDeep => .tooDeep

/-- Reading, on what is left of the document. -/
abbrev Reader := StateT Chars (Except Trouble)

private def fail {α : Type} (what : String) : Reader α := do
  throw (.broken what (← get).length)

private def next? : Reader (Option Char) :=
  return (← get).head?

private def skipWhile (p : Char → Bool) : Reader Unit :=
  modify (·.dropWhile p)

private def drop (n : Nat) : Reader Unit :=
  modify (·.drop n)

private def eat (s : String) : Reader Bool := do
  match after? s.toList (← get) with
  | some rest =>
    set rest
    return true
  | none => return false

private def comesNext (s : String) : Reader Bool :=
  return startsWith s.toList (← get)

private def isSpace (c : Char) : Bool :=
  c == ' ' || c == '\t'

private def isSpaceOrLine (c : Char) : Bool :=
  isSpace c || c == '\n'

private def isControl (c : Char) : Bool :=
  (c.toNat < 32 && c != '\t') || c.toNat == 127

private def isControlInLines (c : Char) : Bool :=
  isControl c && c != '\n'

private def skipSpaces : Reader Unit :=
  skipWhile isSpace

/-- Reads up to `stop`, or to the end of the document unless `stop` has to come. -/
private def upTo (stop : String) (isBad : Char → Bool) (required : Bool) : Reader Chars := do
  let rest ← get
  let body := match cut? stop.toList rest with
    | some (a, _) => a
    | none => rest
  if required && (cut? stop.toList rest).isNone then throw (.broken ("Expected " ++ shown stop) 0)
  match body.find? isBad with
  | some c =>
    throw (.broken ("Found invalid character " ++ shown c.toString)
      (rest.length - (body.takeWhile (!isBad ·)).length))
  | none =>
    drop body.length
    return body

private def skipComment : Reader Unit := do
  if ← eat "#" then
    let _ ← upTo "\n" isControl false

private def skipFiller : (fuel : Nat) → Reader Unit
  | 0 => return
  | n + 1 => do
    let before := (← get).length
    skipWhile isSpaceOrLine
    skipComment
    if (← get).length ≠ before then skipFiller n

private def skipAllFiller : Reader Unit := do
  skipFiller ((← get).length + 1)

/-! ## Strings -/

private def isHexDigit (c : Char) : Bool :=
  isAsciiDigit c || ('a' ≤ c && c ≤ 'f') || ('A' ≤ c && c ≤ 'F')

private def hexValue (cs : Chars) : Nat :=
  cs.foldl (fun n c =>
    16 * n + if isAsciiDigit c then c.toNat - 48 else c.toLower.toNat - 87) 0

private def numbered (digits : Nat) : Reader Chars := do
  let cs := (← get).take digits
  if cs.length ≠ digits || !cs.all isHexDigit then fail "Invalid hex value"
  drop digits
  let n := hexValue cs
  if n.isValidChar then return [Char.ofNat n]
  else fail "Escaped character is not a Unicode scalar value"

private def misplacedBackslash {α : Type} : Reader α :=
  fail "Unescaped '\\' in a string"

private def replacements : List (Char × Char) :=
  [('b', '\x08'), ('t', '\t'), ('n', '\n'), ('f', '\x0c'), ('r', '\r'), ('"', '"'), ('\\', '\\')]

/-- Skips the blanks around the line end that a backslash hides. -/
private def hiddenLineEnd (c : Char) : Reader Chars := do
  if c != '\n' then
    skipSpaces
    match ← next? with
    | none => return []
    | some '\n' => drop 1
    | some _ => misplacedBackslash
  skipWhile isSpaceOrLine
  return []

private def escape (multiline : Bool) : Reader Chars := do
  drop 1
  let c? ← next?
  drop 1
  match c? with
  | none => misplacedBackslash
  | some c =>
    if multiline && isSpaceOrLine c then hiddenLineEnd c
    else if c == 'u' then numbered 4
    else if c == 'U' then numbered 8
    else match replacements.lookup c with
      | some d => return [d]
      | none => misplacedBackslash

private def basicString (multiline : Bool) : (fuel : Nat) → (done : Chars) → Reader Chars
  | 0, _ => fail "Unterminated string"
  | n + 1, done => do
    match ← next? with
    | none => fail "Unterminated string"
    | some '"' =>
      if multiline then
        if ← eat "\"\"\"" then return done.reverse
        else
          drop 1
          basicString multiline n ('"' :: done)
      else
        drop 1
        return done.reverse
    | some '\\' => do
      let cs ← escape multiline
      basicString multiline n (cs.reverse ++ done)
    | some c =>
      if (if multiline then isControlInLines c else isControl c) then
        fail ("Illegal character " ++ shown c.toString)
      else
        drop 1
        basicString multiline n (c :: done)

private def basic (multiline : Bool) : Reader Chars := do
  basicString multiline ((← get).length + 1) []

private def literal : Reader Chars := do
  let cs ← upTo "'" isControl true
  drop 1
  return cs

/-- Up to two more quotes belong to a string of several lines. -/
private def extraQuotes (quote : String) (cs : Chars) : Reader Chars := do
  if ← eat (quote ++ quote) then return cs ++ quote.toList ++ quote.toList
  else if ← eat quote then return cs ++ quote.toList
  else return cs

private def multiline (quote : String) : Reader Chars := do
  drop 3
  let _ ← eat "\n"
  if quote == "'" then
    let cs ← upTo "'''" isControlInLines true
    drop 3
    extraQuotes quote cs
  else
    let cs ← basic true
    extraQuotes quote cs

/-! ## Keys -/

abbrev Key := List String

private def isBare (c : Char) : Bool :=
  isAsciiLetter c || isAsciiDigit c || c == '-' || c == '_'

private def keyPart : Reader String := do
  match ← next? with
  | some '\'' =>
    drop 1
    return String.ofList (← literal)
  | some '"' =>
    drop 1
    return String.ofList (← basic false)
  | some c =>
    if isBare c then
      let cs := (← get).takeWhile isBare
      drop cs.length
      return String.ofList cs
    else fail "Invalid initial character for a key part"
  | none => fail "Invalid initial character for a key part"

private def keyParts : (fuel : Nat) → (done : Key) → Reader Key
  | 0, done => return done.reverse
  | n + 1, done => do
    let part ← keyPart
    skipSpaces
    if ← eat "." then
      skipSpaces
      keyParts n (part :: done)
    else return (part :: done).reverse

private def key : Reader Key := do
  keyParts ((← get).length + 1) []

def Key.display (k : Key) : String :=
  match k with
  | [one] => s!"({shown one},)"
  | _ => "(" ++ ", ".intercalate (k.map shown) ++ ")"

/-! ## Scalars -/

private def digits (n : Nat) : Pattern :=
  Pattern.ofList (List.replicate n (.one isAsciiDigit))

private def between (low high : Char) : Pattern :=
  .one fun c => low ≤ c && c ≤ high

private def timePattern : Pattern :=
  open Pattern in
  let sixty := between '0' '5' ++ digits 1
  choice [between '0' '1' ++ digits 1, char '2' ++ between '0' '3'] ++ char ':' ++ sixty ++
    char ':' ++ sixty ++ opt (char '.' ++ plus (digits 1))

private def datePattern : Pattern :=
  open Pattern in
  let month := choice [char '0' ++ between '1' '9', char '1' ++ between '0' '2']
  let day := choice [char '0' ++ between '1' '9', between '1' '2' ++ digits 1,
    char '3' ++ between '0' '1']
  digits 4 ++ char '-' ++ month ++ char '-' ++ day

private def zonePattern : Pattern :=
  open Pattern in
  alt (oneOf "Zz") (oneOf "+-" ++
    choice [between '0' '1' ++ digits 1, char '2' ++ between '0' '3'] ++ char ':' ++
    between '0' '5' ++ digits 1)

private def momentPattern : Pattern :=
  open Pattern in
  capture 1 datePattern ++ opt (oneOf "Tt " ++ capture 2 (timePattern ++ opt zonePattern))

private def spaced (p : Pattern) : Pattern :=
  p ++ .star (.opt (.char '_') ++ p)

private def numberPattern : Pattern :=
  open Pattern in
  let based (letter : Char) (p : Pattern) : Pattern := char letter ++ spaced p
  alt (char '0' ++ choice [based 'x' (one isHexDigit), based 'b' (oneOf "01"),
      based 'o' (between '0' '7')])
    (opt (oneOf "+-") ++ alt (char '0') (between '1' '9' ++ star (opt (char '_') ++ digits 1)) ++
      opt (capture 1 (char '.' ++ spaced (digits 1))) ++
      opt (capture 2 (oneOf "eE" ++ opt (oneOf "+-") ++ spaced (digits 1))))

private def date (cs : Chars) : Reader Value.Date := do
  match Value.Date.ofIso cs with
  | .ok d => return d
  | .error _ => fail "Invalid date or datetime"

private def clock (cs : Chars) : Value.Clock :=
  let upper := cs.map fun c => if c == 'z' then 'Z' else c
  (Value.Clock.ofIso upper).toOption.getD .midnight

private def basedNumber (base : Nat) (cs : Chars) : Value :=
  .int ((Value.basedNat? base cs).getD 0 : Nat)

private def numberOf (m : Pattern.Match) : Reader Value := do
  let cs := m.text.filter (· != '_')
  match cs with
  | '0' :: 'x' :: r => return basedNumber 16 r
  | '0' :: 'b' :: r => return basedNumber 2 r
  | '0' :: 'o' :: r => return basedNumber 8 r
  | _ =>
    if m.has 1 || m.has 2 then return .float ((Value.plainFloat? cs).getD 0)
    else match Value.readWhole (String.ofList cs) with
      | .ok n => return .int n
      | .error (.tooLong count) => throw (.tooManyDigits count)
      | .error .malformed => fail "Invalid value"

private def special : List (String × Float) :=
  [("inf", 1.0 / 0.0), ("nan", 0.0 / 0.0), ("-inf", -1.0 / 0.0), ("+inf", 1.0 / 0.0),
   ("-nan", 0.0 / 0.0), ("+nan", 0.0 / 0.0)]

private def scalar : Reader Value := do
  let rest ← get
  match momentPattern.match? rest, timePattern.match? rest, numberPattern.match? rest with
  | some m, _, _ =>
    let d ← date (m.group 1)
    drop m.stop
    return (m.group? 2).elim (.date d) fun t => .moment d (clock t)
  | none, some m, _ =>
    drop m.stop
    return .time (clock m.text)
  | none, none, some m =>
    drop m.stop
    numberOf m
  | none, none, none =>
    match special.find? fun (s, _) => startsWith s.toList rest with
    | some (s, x) =>
      drop s.length
      return .float x
    | none => fail "Invalid value"

/-! ## Tables -/

/-- Changes the table under a key, which is made if it is not there. In a list of tables the last
one is meant, if lists may be entered. -/
private def under (lists : Bool) (change : Value → Option Value) : Key → Value → Option Value
  | [], table => match table with
    | .record _ => change table
    | .list items => match items.getLast?, lists with
      | some (.record fs), true => do
        return .list (items.dropLast ++ [← change (.record fs)])
      | _, _ => none
    | _ => none
  | k :: rest, table => match table with
    | .record fs => do
      let v ← under lists change rest ((fs.lookup k).getD (.record []))
      return .record (Value.insertField k v fs)
    | .list items => match items.getLast?, lists with
      | some (.record fs), true => do
        let v ← under lists change rest ((fs.lookup k).getD (.record []))
        return .list (items.dropLast ++ [.record (Value.insertField k v fs)])
      | _, _ => none
    | _ => none

/-- What may not be opened again. -/
structure Closed where
  /-- Tables with a heading, and those that dotted keys made. -/
  headed : List Key := []
  /-- What dotted keys made under the present heading. -/
  pending : List Key := []
  /-- What was written inline; it is closed with all that is below it. -/
  inline : List Key := []

namespace Closed

def isInline (c : Closed) (k : Key) : Bool :=
  c.inline.any (·.isPrefixOf k)

def isHeaded (c : Closed) (k : Key) : Bool :=
  c.headed.contains k

def settle (c : Closed) : Closed :=
  { c with headed := c.pending ++ c.headed, pending := [] }

/-- Opens a key and all that is below it. -/
def free (c : Closed) (k : Key) : Closed :=
  { c with headed := c.headed.filter (!k.isPrefixOf ·)
           inline := c.inline.filter (!k.isPrefixOf ·) }

end Closed

private def isCompound : Value → Bool
  | .record _ | .list _ => true
  | _ => false

private def overwriting {α : Type} : Reader α :=
  fail "Cannot overwrite a value"

private def hasKey (table : Value) (k : String) : Bool :=
  table.fields.any (·.1 == k)

/-- Sets a key in the table under `above`: none if there is no table, and none within if the key is
set already. -/
private def put (lists : Bool) (above : Key) (name : String) (v table : Value) :
    Option (Option Value) :=
  let taken := under lists (fun t => if hasKey t name then none else some t) above table
  match under lists some above table, taken with
  | none, _ => none
  | some _, none => some none
  | some _, some _ => some (under lists
      (fun t => some (.record (t.fields ++ [(name, v)]))) above table)

/-- How deep values may be nested, where an array counts for two and an inline table for three. -/
def maxNesting : Nat :=
  988

private def deeper (nesting weight : Nat) : Reader Nat :=
  if maxNesting < nesting + weight then throw .tooDeep else return nesting + weight

mutual

private def value : (fuel nesting : Nat) → Reader Value
  | 0, _ => fail "Invalid value"
  | n + 1, nesting => do
    if ← comesNext "\"\"\"" then return .text (String.ofList (← multiline "\""))
    else if ← eat "\"" then return .text (String.ofList (← basic false))
    else if ← comesNext "'''" then return .text (String.ofList (← multiline "'"))
    else if ← eat "'" then return .text (String.ofList (← literal))
    else if ← eat "true" then return .bool true
    else if ← eat "false" then return .bool false
    else if ← eat "[" then
      let nesting ← deeper nesting 2
      skipAllFiller
      if ← eat "]" then return .list [] else return .list (← items n nesting [])
    else if ← eat "\x7b" then
      let nesting ← deeper nesting 3
      skipSpaces
      if ← eat "\x7d" then return .record [] else inlineTable n nesting (.record []) []
    else scalar

private def items : (fuel nesting : Nat) → (done : List Value) → Reader (List Value)
  | 0, _, _ => fail "Unclosed array"
  | n + 1, nesting, done => do
    let v ← value n nesting
    let done := v :: done
    skipAllFiller
    if ← eat "]" then return done.reverse
    else if ← eat "," then
      skipAllFiller
      if ← eat "]" then return done.reverse else items n nesting done
    else fail "Unclosed array"

private def inlineTable : (fuel nesting : Nat) → Value → (closed : List Key) → Reader Value
  | 0, _, _, _ => fail "Unclosed inline table"
  | n + 1, nesting, table, closed => do
    let k ← key
    if !(← eat "=") then fail "Expected '=' after a key in a key/value pair"
    skipSpaces
    let v ← value n nesting
    if closed.any (·.isPrefixOf k) then
      fail ("Cannot mutate immutable namespace " ++ k.display)
    let name := k.getLast?.getD ""
    match put false k.dropLast name v table with
    | none => overwriting
    | some none => fail ("Duplicate inline table key " ++ shown name)
    | some (some table) =>
      skipSpaces
      if ← eat "\x7d" then return table
      else if ← eat "," then
        skipSpaces
        inlineTable n nesting table (if isCompound v then k :: closed else closed)
      else fail "Unclosed inline table"

end

/-! ## Documents -/

/-- A document so far, what is closed in it, and the present heading. -/
structure Document where
  table : Value := .record []
  closed : Closed := {}
  heading : Key := []

private def tableHeading (d : Document) : Reader Document := do
  drop 1
  skipSpaces
  let k ← key
  if d.closed.isHeaded k || d.closed.isInline k then
    fail s!"Cannot declare {k.display} twice"
  match under true some k d.table with
  | none => overwriting
  | some table =>
    if !(← eat "]") then fail "Expected ']' at the end of a table declaration"
    return { table, closed := { d.closed with headed := k :: d.closed.headed }, heading := k }

private def appendTable (k : Key) (table : Value) : Option Value :=
  let name := k.getLast?.getD ""
  under true (fun t =>
    match t.fields.lookup name with
    | some (.list items) =>
      some (.record (Value.insertField name (.list (items ++ [.record []])) t.fields))
    | some _ => none
    | none => some (.record (t.fields ++ [(name, .list [.record []])]))) k.dropLast table

private def listHeading (d : Document) : Reader Document := do
  drop 2
  skipSpaces
  let k ← key
  if d.closed.isInline k then fail ("Cannot mutate immutable namespace " ++ k.display)
  let closed := d.closed.free k
  match appendTable k d.table with
  | none => overwriting
  | some table =>
    if !(← eat "]]") then fail "Expected ']]' at the end of an array declaration"
    return { table, closed := { closed with headed := k :: closed.headed }, heading := k }

/-- The keys above a dotted key that are below the heading. -/
private def stepsOf (heading k : Key) : List Key :=
  (List.range k.length).filterMap fun i => if i = 0 then none else some (heading ++ k.take i)

private def keyValue (d : Document) : Reader Document := do
  let k ← key
  if !(← eat "=") then fail "Expected '=' after a key in a key/value pair"
  skipSpaces
  let v ← value ((← get).length + 1) 0
  let steps := stepsOf d.heading k
  match steps.find? d.closed.isHeaded with
  | some step => fail ("Cannot redefine namespace " ++ step.display)
  | none =>
    let above := d.heading ++ k.dropLast
    if d.closed.isInline above then
      fail ("Cannot mutate immutable namespace " ++ above.display)
    match put true above (k.getLast?.getD "") v d.table with
    | some (some table) =>
      let inline := if isCompound v then (d.heading ++ k) :: d.closed.inline else d.closed.inline
      return { d with table,
                      closed := { d.closed with pending := steps ++ d.closed.pending, inline } }
    | _ => overwriting

private def isKeyStart (c : Char) : Bool :=
  isBare c || c == '"' || c == '\''

private def statement (d : Document) : Reader Document := do
  match ← next? with
  | none => return d
  | some '[' =>
    let d := { d with closed := d.closed.settle }
    let d ← if ← comesNext "[[" then listHeading d else tableHeading d
    skipSpaces
    return d
  | some c =>
    if isKeyStart c then
      let d ← keyValue d
      skipSpaces
      return d
    else if c == '#' || c == '\n' then return d
    else fail "Invalid statement"

private def statements : (fuel : Nat) → Document → Reader Document
  | 0, d => return d
  | n + 1, d => do
    skipSpaces
    let d ← statement d
    skipComment
    match ← next? with
    | none => return d
    | some '\n' =>
      drop 1
      statements n d
    | some _ => fail "Expected newline or end of document after a statement"

/-- Reads the document in the file that `shown` names; line ends of two characters count as one. -/
def read (shown : String) (text : Chars) : Except Fault Value :=
  let source := replace ['\r', '\n'] ['\n'] text
  match (statements (source.length + 1) {}).run source with
  | .ok (d, _) => .ok d.table
  | .error t => .error (t.fault shown source)

end SqlFerry.Toml
