import SqlFerry.Fault

/-!
# Whole numbers in values

The whole number that a value of a database stands for, cut towards zero.
-/

namespace SqlFerry.Value

private def cut (negative : Bool) (n : Nat) : Int :=
  if negative then -(n : Int) else n

private def scaleDown (base n : Nat) (power : Int) : Nat :=
  if power < 0 then n / Nat.pow base power.natAbs else n * Nat.pow base power.natAbs

private def asciiChar (b : UInt8) : Char :=
  Char.ofNat b.toNat

private def noNumber : Fault :=
  .refused (.other "cannot convert NaN to integer")

def whole : Value → Except Fault Int
  | int n => .ok n
  | bool b => .ok (if b then 1 else 0)
  | float x =>
    if x.isNaN then .error (.refused (.other "cannot convert float NaN to integer"))
    else if x.isInf then .error (.boundless "cannot convert float infinity to integer")
    else
      let d := dyadic x
      .ok (cut d.negative (scaleDown 2 d.factor d.power))
  | decimal (.finite negative n power) => .ok (cut negative (scaleDown 10 n power))
  | decimal (.infinite _) => .error (.boundless "cannot convert Infinity to integer")
  | decimal (.undefined ..) => .error noNumber
  | text s => (readWhole s).mapError fun t => .refused (.ofWhole s t)
  | bytes bs =>
    let read := if bs.all (·.toNat < 128) then readWhole (String.ofList (bs.map asciiChar))
      else .error .malformed
    read.mapError fun t => .refused <| match t with
      | .malformed => .other ("invalid literal for int() with base 10: " ++
          String.ofList ((shownBytes bs).toList.take 200))
      | .tooLong count => .tooManyDigits count
  | uuid n => .ok n
  | _ => .error (.mistyped "a number or a text is needed")

/-- The whole number in an answer; an empty answer counts as zero. -/
def wholeOrZero : Option Value → Except Fault Int
  | none => .ok 0
  | some v => if v.isFull then v.whole else .ok 0

def isBoundless (n d : Nat) : Bool :=
  (Nat.pow 2 1024 - Nat.pow 2 970) * d ≤ n

/-- The quotient of two natural numbers, rounded to a binary number with 53 digits and then cut. -/
def quotientCut (n d : Nat) : Nat :=
  let q := n / d
  let extra := 52 - q.log2
  let shift := q.log2 - 52
  let num := n * Nat.pow 2 extra
  let den := d * Nat.pow 2 shift
  let k := num / den
  let up := 2 * (num % den) > den || (2 * (num % den) == den && k % 2 == 1)
  (if up then k + 1 else k) * Nat.pow 2 shift / Nat.pow 2 extra

end SqlFerry.Value
