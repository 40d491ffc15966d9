import SqlFerry.Text.Basic
import SqlFerry.Value.Nearest

/-!
# Numerals

Numbers as they are written, in the decimal digits of any script: whole numbers, and decimal
fractions with powers of ten. White space around a numeral does not count, and a single underscore
may stand between two digits.
-/

namespace SqlFerry.Value

open Text

def readNat? (cs : Chars) : Option Nat :=
  if cs.isEmpty then none
  else cs.foldl (fun n c => n.bind fun n => (digitValue? c).map fun d => 10 * n + d) (some 0)

def splitSign : Chars → Bool × Chars
  | '-' :: cs => (true, cs)
  | '+' :: cs => (false, cs)
  | cs => (false, cs)

def ungroupAfter (digit : Bool) : Chars → Option Chars
  | [] => some []
  | c :: cs =>
    if c == '_' then
      if digit && (cs.head?.map isDecimal).getD false then ungroupAfter false cs else none
    else (ungroupAfter (isDecimal c) cs).map (c :: ·)

/-- A numeral without the underscores in it, each of which has to stand between two digits. -/
def ungroup? (cs : Chars) : Option Chars :=
  ungroupAfter false cs

/-! ## Whole numbers -/

inductive WholeTrouble where
  | malformed
  /-- There are more digits than are read. -/
  | tooLong (digits : Nat)
  deriving DecidableEq, Repr

/-- How many digits of a whole number are read or written at most. -/
def maxDigits : Nat :=
  4300

def HasFewDigits (n : Int) : Prop :=
  (Nat.toDigits 10 n.natAbs).length ≤ maxDigits

instance : DecidablePred HasFewDigits :=
  fun _ => inferInstanceAs (Decidable (_ ≤ _))

/-- Reads a whole number. Too many digits are refused before what follows them is looked at. -/
def readWhole (text : String) : Except WholeTrouble Int :=
  let (negative, cs) := splitSign (trimSpace text.toList)
  let run := cs.takeWhile fun c => isDecimal c || c == '_'
  match ungroup? run with
  | none => .error .malformed
  | some digits =>
    if maxDigits < digits.length then .error (.tooLong digits.length)
    else match readNat? digits with
      | some n => if run.length = cs.length then .ok (if negative then -(n : Int) else n)
        else .error .malformed
      | none => .error .malformed

def basedNat? (base : Nat) (cs : Chars) : Option Nat :=
  let value (c : Char) : Option Nat :=
    if isAsciiLetter c then some (c.toLower.toNat - 87) else digitValue? c
  if cs.isEmpty then none
  else cs.foldl (fun n c => n.bind fun n =>
    ((value c).filter (· < base)).map fun d => base * n + d) (some 0)

/-! ## Decimal fractions -/

/-- A decimal number: sign, digits, how many of them stand after the point, and the power. -/
structure Numeral where
  negative : Bool
  digits : Nat
  places : Nat
  power : Int
  deriving DecidableEq, Repr

def Numeral.ofText? (cs : Chars) : Option Numeral := do
  let (negative, cs) := splitSign cs
  let mantissa := cs.takeWhile fun c => c != 'e' && c != 'E'
  let whole := mantissa.takeWhile (· != '.')
  let part := (mantissa.drop whole.length).drop 1
  let digits ← readNat? (whole ++ part)
  let power ← match cs.drop mantissa.length with
    | [] => some (0 : Int)
    | _ :: r =>
      let (down, r) := splitSign r
      (readNat? r).map fun n => if down then -(n : Int) else n
  return { negative, digits, places := part.length, power }

/-- How far powers of ten can take a digit from one before only zero or infinity is near. -/
private def reach : Nat :=
  400

def Numeral.toFloat (n : Numeral) : Float :=
  let e : Int := n.power - n.places
  let x :=
    if n.digits = 0 then 0
    else if reach < e then 1.0 / 0.0
    else if e < -((reach + n.digits.log2 : Nat) : Int) then 0
    else
      let (num, den) := scaled 10 e (n.digits, 1)
      nearest num den
  if n.negative then -x else x

private def named? (cs : Chars) : Option Float :=
  let (negative, body) := splitSign cs
  match lower (String.ofList body) with
  | "nan" => some (0.0 / 0.0)
  | "inf" | "infinity" => some (if negative then -1.0 / 0.0 else 1.0 / 0.0)
  | _ => none

def plainFloat? (cs : Chars) : Option Float :=
  (named? cs).or ((Numeral.ofText? cs).map Numeral.toFloat)

def floatOf? (text : String) : Option Float :=
  (ungroup? (trimSpace text.toList)).bind plainFloat?

end SqlFerry.Value
