import SqlFerry.Sql.Literal
import SqlFerry.Sql.Name

/-!
# Quoting SQL text anew

Names and literals inside SQL text of one dialect become those of another; everything between them
stays. A string is decoded by the rules of its dialect and encoded by those of the other.
-/

namespace SqlFerry.Sql

open Text Pattern

inductive Lexeme where
  | string
  /-- A string in double quotes. -/
  | doubleString
  /-- A string with backslash escapes. -/
  | escapeString
  | name
  | bracketName
  | hex
  /-- A character set before a string. -/
  | charset
  | cast
  deriving DecidableEq, Repr

namespace Lexeme

def number : Lexeme → Nat
  | string => 1
  | doubleString => 2
  | escapeString => 3
  | name => 4
  | bracketName => 5
  | hex => 6
  | charset => 7
  | cast => 8

def all : List Lexeme :=
  [string, doubleString, escapeString, name, bracketName, hex, charset, cast]

end Lexeme

def doubled (q : Char) : Pattern :=
  char q ++ star (alt (one (· != q)) (char q ++ char q)) ++ char q

/-- A text between quotes in which a backslash protects the next character and a doubled quote
stands for one. -/
def escaped (q : Char) : Pattern :=
  char q ++ star (choice [one fun c => c != q && c != '\\', char '\\' ++ any, char q ++ char q]) ++
    char q

def isHexDigit (c : Char) : Bool :=
  isAsciiDigit c || ('a' ≤ c && c ≤ 'f') || ('A' ≤ c && c ≤ 'F')

def hexString : Pattern :=
  edge ++ oneOf "Xx" ++ char '\'' ++ star (one isHexDigit) ++ char '\''

def mysqlLexemes : List (Lexeme × Pattern) := [
  (.string, escaped '\''),
  (.doubleString, escaped '"'),
  (.name, doubled '\x60'),
  (.hex, alt (edge ++ text "0x" ++ plus (one isHexDigit) ++ edge) hexString),
  (.charset, edge ++ char '_' ++ choice [text "binary", text "utf8mb4", text "utf8",
    text "latin1"] ++ blanks ++ ahead (oneOf "'\"0xX"))]

def castPattern : Pattern :=
  text "::" ++ blanks ++ one (fun c => isAsciiLetter c || c == '_') ++
    star (one fun c => isWord c || c == '.') ++
    opt (blanks1 ++ choice [text "varying", text "precision",
      text "with" ++ opt (text "out") ++ blanks1 ++ text "time" ++ blanks1 ++ text "zone"]) ++
    opt (blanks ++ char '(' ++ blanks ++ plus digit ++
      opt (blanks ++ char ',' ++ blanks ++ plus digit) ++ blanks ++ char ')') ++
    star (text "[]")

def standardLexemes : List (Lexeme × Pattern) := [
  (.escapeString, edge ++ oneOf "Ee" ++ escaped '\''),
  (.string, doubled '\''),
  (.name, alt (doubled '"') (doubled '\x60')),
  (.hex, hexString),
  (.cast, castPattern)]

def lexemes : Dialect → List (Lexeme × Pattern)
  | .mysql => mysqlLexemes
  | .postgresql => standardLexemes
  | .sqlite => standardLexemes ++ [(.bracketName, char '[' ++ star (noneOf "]\n") ++ char ']')]

def lexemePattern (d : Dialect) : Pattern :=
  choice ((lexemes d).map fun (l, p) => capture l.number p)

/-! ## Decoding -/

def unescaped (c : Char) : Chars :=
  match c with
  | '0' => ['\x00']
  | 'n' => ['\n']
  | 'r' => ['\r']
  | 't' => ['\t']
  | 'Z' => ['\x1a']
  | 'b' => ['\x08']
  | '%' => ['\\', '%']
  | '_' => ['\\', '_']
  | c => [c]

def decodeBackslashes : Chars → Chars
  | '\\' :: c :: cs => unescaped c ++ decodeBackslashes cs
  | c :: cs => c :: decodeBackslashes cs
  | [] => []

/-- Stands for a doubled quote while backslashes are decoded. -/
def placeholder : Chars :=
  ['\x01', 'Q', '\x01']

def decodeString (d : Dialect) (q : Char) (body : Chars) : Chars :=
  if d == .mysql then
    replace placeholder [q] (decodeBackslashes (replace [q, q] placeholder body))
  else replace [q, q] [q] body

def nibble (c : Char) : Nat :=
  if isAsciiDigit c then c.toNat - 48 else c.toLower.toNat - 87

def pairs : Chars → List UInt8
  | a :: b :: cs => (nibble a * 16 + nibble b).toUInt8 :: pairs cs
  | _ => []

/-- The bytes that hexadecimal digits stand for; an odd number of digits has a zero before it. -/
def bytesOfHex (digits : Chars) : List UInt8 :=
  pairs (if digits.length % 2 == 1 then '0' :: digits else digits)

def requoteToken (source target : Dialect) (keepCasts : Bool) (l : Lexeme) (token : Chars) :
    Chars :=
  let body := inner token
  let literal (cs : Chars) : Chars := (target.textLiteral (String.ofList cs)).toList
  let named (cs : Chars) : Chars := (target.quote (String.ofList cs)).toList
  match l with
  | .string => literal (decodeString source '\'' body)
  | .doubleString => literal (decodeString source '"' body)
  | .escapeString =>
    literal (decodeBackslashes (replace ['\'', '\''] ['\''] (inner (token.drop 1))))
  | .name =>
    let q := token.headD '"'
    named (replace [q, q] [q] body)
  | .bracketName => named body
  | .hex =>
    let digits := if startsWith ['0', 'x'] token then token.drop 2 else inner (token.drop 1)
    (target.literal (.bytes (bytesOfHex digits))).toList
  | .charset => []
  | .cast => if keepCasts then token else []

def requoteMatch (source target : Dialect) (keepCasts : Bool) (m : Match) : Chars :=
  match Lexeme.all.find? fun l => m.has l.number with
  | some l => requoteToken source target keepCasts l m.text
  | none => m.text

def requoteKeeping (keepCasts : Bool) (sql : Chars) (source target : Dialect) : Chars :=
  (lexemePattern source).replaceAll (requoteMatch source target keepCasts) sql

/-- Casts stay only where PostgreSQL reads them. -/
def requote (sql : String) (source target : Dialect) : String :=
  String.ofList (requoteKeeping (target == .postgresql) sql.toList source target)

def stripCasts (sql : String) : String :=
  String.ofList (requoteKeeping false sql.toList .postgresql .postgresql)

end SqlFerry.Sql
