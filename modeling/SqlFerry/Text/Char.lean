import SqlFerry.Text.Table.Word
import SqlFerry.Text.Table.Digit
import SqlFerry.Text.Table.Printable
import SqlFerry.Text.Table.Case

/-!
# Character classes and case

Word characters, digits, blanks and printable characters over all of Unicode, and the two case
maps. On ASCII each class is a comparison, past it a look-up in the tables.
-/

namespace SqlFerry.Text

def inRanges (ranges : Array (Nat × Nat)) (n : Nat) : Bool :=
  ranges.any fun r => r.1 ≤ n && n ≤ r.2

def isAsciiLetter (c : Char) : Bool :=
  ('a' ≤ c && c ≤ 'z') || ('A' ≤ c && c ≤ 'Z')

def isAsciiDigit (c : Char) : Bool :=
  '0' ≤ c && c ≤ '9'

def isLetterOrNumber (c : Char) : Bool :=
  if c.toNat < 128 then isAsciiLetter c || isAsciiDigit c
  else inRanges Table.letterOrNumber c.toNat

def isWord (c : Char) : Bool :=
  isLetterOrNumber c || c == '_'

/-- The blanks: ASCII spacing, the four separator controls, and the Unicode spaces. -/
def isBlank (c : Char) : Bool :=
  let n := c.toNat
  if n < 128 then (9 ≤ n && n ≤ 13) || (28 ≤ n && n ≤ 32)
  else n == 0x85 || n == 0xA0 || n == 0x1680 || (0x2000 ≤ n && n ≤ 0x200A) || n == 0x2028 ||
    n == 0x2029 || n == 0x202F || n == 0x205F || n == 0x3000

/-- The blanks but for the separator controls: what Unicode calls white space. -/
def isWhiteSpace (c : Char) : Bool :=
  isBlank c && !(28 ≤ c.toNat && c.toNat ≤ 31)

def isLineEnd (c : Char) : Bool :=
  let n := c.toNat
  (10 ≤ n && n ≤ 13) || (28 ≤ n && n ≤ 30) || n == 0x85 || n == 0x2028 || n == 0x2029

def digitValue? (c : Char) : Option Nat :=
  let n := c.toNat
  if n < 128 then if isAsciiDigit c then some (n - 48) else none
  else (Table.decimalDigit.find? fun r => r.1 ≤ n && n ≤ r.2).map fun r => (n - r.1) % 10

def isDecimal (c : Char) : Bool :=
  (digitValue? c).isSome

/-- Decimal digits and characters that are digits by their form, such as superscripts. -/
def isDigitForm (c : Char) : Bool :=
  isDecimal c || (128 ≤ c.toNat && inRanges Table.digitForm c.toNat)

def isPrintable (c : Char) : Bool :=
  let n := c.toNat
  if n < 128 then 32 ≤ n && n < 127 else inRanges Table.printable n

def shift (runs : Array Table.CaseRun) (c : Char) : Char :=
  let n := c.toNat
  match runs.find? fun r => r.first ≤ n && n ≤ r.last && (n - r.first) % r.stride == 0 with
  | some r => Char.ofNat ((n : Int) + r.shift).toNat
  | none => c

def spelled (table : Array (Nat × List Nat)) (c : Char) : Option (List Char) :=
  (table.find? fun p => p.1 == c.toNat).map fun p => p.2.map Char.ofNat

def lowerChar (c : Char) : List Char :=
  if c.toNat < 128 then [c.toLower]
  else (spelled Table.lowerSpelled c).getD [shift Table.lowerRuns c]

def upperChar (c : Char) : List Char :=
  if c.toNat < 128 then [c.toUpper]
  else (spelled Table.upperSpelled c).getD [shift Table.upperRuns c]

private def isCaseIgnorable (c : Char) : Bool :=
  inRanges Table.caseIgnorable c.toNat

private def isCased (c : Char) : Bool :=
  if c.toNat < 128 then isAsciiLetter c else inRanges Table.cased c.toNat

private def nextIsCased (cs : List Char) : Bool :=
  ((cs.dropWhile isCaseIgnorable).head?.map isCased).getD false

def lowerFrom (before : List Char) : List Char → List Char
  | [] => []
  | c :: rest =>
    let here :=
      if c == 'Σ' then
        if nextIsCased before && !nextIsCased rest then ['ς'] else ['σ']
      else lowerChar c
    here ++ lowerFrom (c :: before) rest

/-- Lower case; a capital sigma that ends a word takes its final shape. -/
def lower (s : String) : String :=
  String.ofList (lowerFrom [] s.toList)

def upper (s : String) : String :=
  String.ofList (s.toList.flatMap upperChar)

/-- Whether the two characters are one letter when case is ignored, where `a` is ASCII. Past ASCII
these are the dotted and dotless i, the long s and the Kelvin sign. -/
def sameLetter (a c : Char) : Bool :=
  if c.toNat < 128 then a.toLower == c.toLower
  else match a.toLower with
    | 'i' => c.toNat == 0x130 || c.toNat == 0x131
    | 's' => c.toNat == 0x17F
    | 'k' => c.toNat == 0x212A
    | _ => false

def isLetterAnyCase (c : Char) : Bool :=
  isAsciiLetter c || c.toNat == 0x130 || c.toNat == 0x131 || c.toNat == 0x17F || c.toNat == 0x212A

end SqlFerry.Text
