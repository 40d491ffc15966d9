import SqlFerry.Bytes.Utf8
import SqlFerry.Value

/-!
# Percent encoding

Bytes of a text as a percent sign and two hexadecimal digits.
-/

namespace SqlFerry.Percent

open Text Bytes

private def hexDigit? (c : Char) : Option Nat :=
  if isAsciiDigit c then some (c.toNat - 48)
  else if 'a' ≤ c && c ≤ 'f' then some (c.toNat - 87)
  else if 'A' ≤ c && c ≤ 'F' then some (c.toNat - 55)
  else none

/-- The bytes of ASCII text; a percent sign without digits stands for itself. -/
private def decodeAscii : Chars → Octets
  | [] => []
  | '%' :: a :: b :: rest =>
    match hexDigit? a, hexDigit? b with
    | some x, some y => (16 * x + y).toUInt8 :: decodeAscii rest
    | _, _ => 0x25 :: decodeAscii (a :: b :: rest)
  | c :: rest => c.toNat.toUInt8 :: decodeAscii rest

private def isAscii (c : Char) : Bool :=
  c.toNat < 128

def decode (s : String) : String :=
  let runs := s.toList.splitBy fun a b => isAscii a == isAscii b
  String.ofList (runs.flatMap fun run =>
    if run.all isAscii then decodeLossy (decodeAscii run) else run)

private def isUnreserved (c : Char) : Bool :=
  isAsciiLetter c || isAsciiDigit c || ['_', '.', '-', '~'].contains c

/-- Encodes every byte but letters, digits, `_.-~` and the characters that are `safe` as well. -/
def encode (safe : String) (s : String) : String :=
  String.join ((Bytes.encode s).map fun b =>
    let c := Char.ofNat b.toNat
    if b.toNat < 128 && (isUnreserved c || safe.toList.contains c) then c.toString
    else "%" ++ upper (String.ofList (Value.byteHex b)))

def encodeQuery (s : String) : String :=
  replaceIn (encode " " s) " " "+"

/-- Reads a query; names without a value do not count, and values of equal names come together. -/
def decodeQuery (s : String) : List (String × List String) :=
  let text (cs : Chars) : String := decode (replaceIn (String.ofList cs) "+" " ")
  let add (fields : List (String × List String)) (part : Chars) : List (String × List String) :=
    match cut? ['='] part with
    | some (k, v) =>
      if v.isEmpty then fields
      else
        let (k, v) := (text k, text v)
        if fields.any (·.1 == k) then
          fields.map fun f => if f.1 == k then (k, f.2 ++ [v]) else f
        else fields ++ [(k, [v])]
    | none => fields
  (splitOn ['&'] s.toList).foldl add []

end SqlFerry.Percent
