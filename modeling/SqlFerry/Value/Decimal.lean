import SqlFerry.Value.Real

/-!
# Decimal numbers

Numbers that keep the digits they were written with: a sign, a coefficient and a power of ten, and
the values that are no number.
-/

namespace SqlFerry.Value

open Text

inductive Decimal where
  /-- `coefficient * 10 ^ power`, with its sign. -/
  | finite (negative : Bool) (coefficient : Nat) (power : Int)
  | infinite (negative : Bool)
  /-- No number; `payload` holds the digits that tell it from others. -/
  | undefined (negative signaling : Bool) (payload : String)
  deriving DecidableEq, Repr

namespace Decimal

def isZero : Decimal → Bool
  | finite _ coefficient _ => coefficient == 0
  | infinite _ | undefined .. => false

def highest : Int :=
  999999999999999999

def lowest : Int :=
  -1999999999999999997

private def bounded? (negative : Bool) (coefficient : Nat) (power : Int) : Option Decimal :=
  let top := power + (Nat.toDigits 10 coefficient).length - 1
  if top ≤ highest && lowest ≤ power then some (.finite negative coefficient power) else none

private def payload? (cs : Chars) : Option String :=
  if cs.isEmpty then some ""
  else (readNat? cs).map fun n => if n = 0 then "" else toString n

/-- Reads a numeral, or one of the names of what is no number. Underscores do not count, wherever
they stand. -/
def ofText? (text : String) : Option Decimal :=
  let cs := (trim text.toList).filter (· != '_')
  let (negative, body) := splitSign cs
  let name := lower (String.ofList body)
  if name == "inf" || name == "infinity" then some (.infinite negative)
  else match after? "nan".toList name.toList, after? "snan".toList name.toList with
    | some rest, _ => (payload? rest).map (.undefined negative false)
    | none, some rest => (payload? rest).map (.undefined negative true)
    | none, none => (Numeral.ofText? cs).bind fun n =>
      bounded? n.negative n.digits (n.power - n.places)

def ofFloat (x : Float) : Decimal :=
  if x.isNaN then .undefined false false ""
  else if x.isInf then .infinite (x < 0)
  else
    let d := dyadic x
    -- A negative power of two is a power of ten with a power of five in the coefficient.
    if d.power < 0 then
      let shift := min d.power.natAbs (trailingZeros d.factor d.power.natAbs)
      let places := d.power.natAbs - shift
      .finite d.negative (d.factor / Nat.pow 2 shift * Nat.pow 5 places) (-(places : Int))
    else .finite d.negative (d.factor * Nat.pow 2 d.power.toNat) 0
where
  /-- How many times two divides `n`, at most `limit`. -/
  trailingZeros (n : Nat) : Nat → Nat
    | 0 => 0
    | limit + 1 => if n % 2 = 0 then trailingZeros (n / 2) limit + 1 else 0

/-- Without a power of ten where the point stands within or up to six places before the digits. -/
def toText : Decimal → String
  | infinite negative => (if negative then "-" else "") ++ "Infinity"
  | undefined negative signaling payload =>
    (if negative then "-" else "") ++ (if signaling then "sNaN" else "NaN") ++ payload
  | finite negative coefficient power =>
    let cs := Nat.toDigits 10 coefficient
    let left := power + cs.length
    let point : Int := if power ≤ 0 && -6 < left then left else 1
    let body :=
      if point ≤ 0 then '0' :: '.' :: List.replicate (-point).toNat '0' ++ cs
      else if cs.length ≤ point.toNat then cs ++ List.replicate (point.toNat - cs.length) '0'
      else cs.take point.toNat ++ '.' :: cs.drop point.toNat
    let rest := left - point
    let exponent :=
      if rest = 0 then "" else "E" ++ (if rest < 0 then "-" else "+") ++ toString rest.natAbs
    (if negative then "-" else "") ++ String.ofList body ++ exponent

end Decimal

end SqlFerry.Value
