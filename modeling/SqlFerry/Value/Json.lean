import SqlFerry.Value

/-!
# JSON

Values as JSON text and back. A value that JSON does not know is written as the text that stands for
it. Read numbers are whole unless they have a point or a power of ten, and a record keeps the order
of its fields.
-/

namespace SqlFerry.Value

open Text

/-! ## Writing -/

private def unitEscape (n : Nat) : String :=
  "\\u" ++ hex 4 n

private def jsonChar (c : Char) : String :=
  let n := c.toNat
  if c == '"' then "\\\"" else if c == '\\' then "\\\\" else if c == '\n' then "\\n"
  else if c == '\r' then "\\r" else if c == '\t' then "\\t" else if n == 8 then "\\b"
  else if n == 12 then "\\f"
  else if 32 ≤ n && n < 127 then c.toString
  else if n < 0x10000 then unitEscape n
  else
    let m := n - 0x10000
    unitEscape (0xD800 + m / 0x400) ++ unitEscape (0xDC00 + m % 0x400)

/-- A JSON string in ASCII: everything else is written in 16-bit units. -/
def jsonString (s : String) : String :=
  "\"" ++ String.join (s.toList.map jsonChar) ++ "\""

private def jsonFloat (x : Float) : String :=
  if x.isNaN then "NaN"
  else if x.isInf then (if x < 0 then "-Infinity" else "Infinity")
  else floatText x

mutual

/-- JSON text with a space after each comma and colon; a value that JSON does not know stands as a
string of its text. -/
def jsonText : Value → String
  | null => "null"
  | bool b => if b then "true" else "false"
  | int n => toString n
  | float x => jsonFloat x
  | text s => jsonString s
  | list xs => "[" ++ ", ".intercalate (jsonItems xs) ++ "]"
  | record fs => "\x7b" ++ ", ".intercalate (jsonFields fs) ++ "\x7d"
  | decimal d => jsonString d.toText
  | bytes bs => jsonString (shownBytes bs)
  | date d => jsonString d.toText
  | time t => jsonString t.toText
  | moment d t => jsonString (d.toText ++ " " ++ t.toText)
  | interval n => jsonString (intervalText n)
  | uuid u => jsonString (uuidText u)

def jsonItems : List Value → List String
  | [] => []
  | x :: xs => jsonText x :: jsonItems xs

def jsonFields : List (String × Value) → List String
  | [] => []
  | (k, v) :: fs => (jsonString k ++ ": " ++ jsonText v) :: jsonFields fs

end

/-! ## Reading -/

private def isJsonSpace (c : Char) : Bool :=
  c == ' ' || c == '\t' || c == '\n' || c == '\r'

private def skip (cs : Chars) : Chars :=
  cs.dropWhile isJsonSpace

private def readUnit? (cs : Chars) : Option (Nat × Chars) :=
  if cs.length < 4 then none
  else (basedNat? 16 (cs.take 4)).map fun n => (n, cs.drop 4)

/-- The character after `\\u`, which may take two units; a unit that stands for none becomes the
replacement character. -/
private def readEscape? (cs : Chars) : Option (Char × Chars) := do
  let (high, rest) ← readUnit? cs
  let lone : Char × Chars := (if Nat.isValidChar high then Char.ofNat high else '\ufffd', rest)
  if 0xD800 ≤ high && high < 0xDC00 then
    match rest with
    | '\\' :: 'u' :: more =>
      let (low, after) ← readUnit? more
      if 0xDC00 ≤ low && low < 0xE000 then
        return (Char.ofNat (0x10000 + (high - 0xD800) * 0x400 + (low - 0xDC00)), after)
      else return lone
    | _ => return lone
  else return lone

private def escapes : List (Char × Char) :=
  [('"', '"'), ('\\', '\\'), ('/', '/'), ('b', '\x08'), ('f', '\x0c'), ('n', '\n'), ('r', '\r'),
   ('t', '\t')]

private def readString? : (fuel : Nat) → (done : Chars) → Chars → Option (String × Chars)
  | 0, _, _ | _, _, [] => none
  | n + 1, done, c :: cs =>
    if c == '"' then some (String.ofList done.reverse, cs)
    else if c == '\\' then
      match cs with
      | [] => none
      | 'u' :: rest => do
        let (d, rest) ← readEscape? rest
        readString? n (d :: done) rest
      | e :: rest => do
        let d ← escapes.lookup e
        readString? n (d :: done) rest
    else readString? n (c :: done) cs

private def numberOf? (cs : Chars) : Option Value :=
  let body := if cs.head? == some '-' then cs.drop 1 else cs
  if body.all isAsciiDigit then
    (readNat? body).map fun n => .int (if body.length < cs.length then -(n : Int) else n)
  else if (body.head?.map isAsciiDigit).getD false then (plainFloat? cs).map .float
  else none

private def constants : List (String × Value) :=
  [("null", .null), ("true", .bool true), ("false", .bool false), ("NaN", .float (0.0 / 0.0)),
   ("Infinity", .float (1.0 / 0.0)), ("-Infinity", .float (-1.0 / 0.0))]

private def readScalar? (cs : Chars) : Option (Value × Chars) :=
  let word := cs.takeWhile fun c => isAsciiLetter c || isAsciiDigit c || ['+', '-', '.'].contains c
  ((constants.lookup (String.ofList word)).or (numberOf? word)).map fun v =>
    (v, cs.drop word.length)

mutual

private def readValue? : (fuel : Nat) → Chars → Option (Value × Chars)
  | 0, _ => none
  | n + 1, cs =>
    match skip cs with
    | '"' :: rest => (readString? n [] rest).map fun (s, rest) => (.text s, rest)
    | '[' :: rest =>
      match skip rest with
      | ']' :: rest => some (.list [], rest)
      | rest => readItems? n [] rest
    | '\x7b' :: rest =>
      match skip rest with
      | '\x7d' :: rest => some (.record [], rest)
      | rest => readFields? n [] rest
    | rest => readScalar? rest

private def readItems? : (fuel : Nat) → (done : List Value) → Chars → Option (Value × Chars)
  | 0, _, _ => none
  | n + 1, done, cs => do
    let (v, rest) ← readValue? n cs
    match skip rest with
    | ',' :: rest => readItems? n (v :: done) rest
    | ']' :: rest => return (.list (v :: done).reverse, rest)
    | _ => none

private def readFields? : (fuel : Nat) → (done : List (String × Value)) → Chars →
    Option (Value × Chars)
  | 0, _, _ => none
  | n + 1, done, cs =>
    match skip cs with
    | '"' :: rest => do
      let (k, rest) ← readString? n [] rest
      match skip rest with
      | ':' :: rest =>
        let (v, rest) ← readValue? n rest
        let done := insertField k v done
        match skip rest with
        | ',' :: rest => readFields? n done rest
        | '\x7d' :: rest => return (.record done, rest)
        | _ => none
      | _ => none
    | _ => none

end

/-- Reads a JSON text. Of two fields with one name the later counts. -/
def ofJson? (text : String) : Option Value :=
  let cs := text.toList
  match readValue? (cs.length + 1) cs with
  | some (v, rest) => if (skip rest).isEmpty then some v else none
  | none => none

end SqlFerry.Value
