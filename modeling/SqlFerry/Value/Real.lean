import SqlFerry.Value.Numeral

/-!
# Decimal text of binary numbers

A finite binary number is `m * 2 ^ q` exactly. Its shortest text has the fewest digits that read
back as the same number, the nearest such digits if there are several; other texts round to a given
number of digits, a tie to the even neighbour. All of it is done with natural numbers.
-/

namespace SqlFerry.Value

open Text

/-- The sign, integral factor and power of two of a finite binary number. -/
structure Dyadic where
  negative : Bool
  factor : Nat
  power : Int
  /-- Whether the next smaller number is only half as far away as the next larger one. -/
  narrowBelow : Bool
  deriving DecidableEq, Repr

def dyadic (x : Float) : Dyadic :=
  let bits := x.toBits.toNat
  let fraction := bits % Nat.pow 2 52
  let exponent := bits / Nat.pow 2 52 % Nat.pow 2 11
  { negative := bits / Nat.pow 2 63 == 1
    factor := if exponent = 0 then fraction else fraction + Nat.pow 2 52
    power := Int.ofNat (if exponent = 0 then 1 else exponent) - 1075
    narrowBelow := fraction == 0 && 1 < exponent }

/-- The number of digits before the point, or minus the zeros right after it, of `num / den`. -/
def magnitude (num den : Nat) : Int :=
  if den ≤ num then (Nat.toDigits 10 (num / den)).length
  else
    let up := (Nat.toDigits 10 (den / num)).length
    -- `num * 10 ^ up` exceeds `den`, perhaps by more than tenfold.
    if den ≤ num * Nat.pow 10 (up - 1) then 2 - (up : Int) else 1 - (up : Int)

/-- Digits and the place of the point: the value is `0.digits * 10 ^ point`. -/
structure Digits where
  digits : Nat
  count : Nat
  point : Int
  deriving DecidableEq, Repr

def rounded (num den count : Nat) : Digits :=
  let point := magnitude num den
  let (n, d) := scaled 10 ((count : Int) - point) (num, den)
  let k := evenQuotient n d
  if k = Nat.pow 10 count then ⟨Nat.pow 10 (count - 1), count, point + 1⟩ else ⟨k, count, point⟩

private def nearest? (low high : Nat × Nat) (closed : Bool) (value : Nat × Nat) (count : Nat) :
    Option Digits :=
  let point := magnitude value.1 value.2
  let e := (count : Int) - point
  let (n, d) := scaled 10 e value
  let (ln, ld) := scaled 10 e low
  let (hn, hd) := scaled 10 e high
  let inside (k : Nat) : Bool :=
    if closed then ln ≤ k * ld && k * hd ≤ hn else ln < k * ld && k * hd < hn
  let k := n / d
  let below := inside k
  let above := inside (k + 1)
  let pick (k : Nat) : Option Digits :=
    if k = Nat.pow 10 count then some ⟨Nat.pow 10 (count - 1), count, point + 1⟩
    else some ⟨k, count, point⟩
  if below && above then pick (evenQuotient n d)
  else if below then pick k
  else if above then pick (k + 1)
  else none

def shortestDigits (x : Dyadic) : Digits :=
  let at4 (m : Nat) : Nat × Nat := scaled 2 (x.power - 2) (m, 1)
  let value := at4 (4 * x.factor)
  let low := at4 (4 * x.factor - if x.narrowBelow then 1 else 2)
  let high := at4 (4 * x.factor + 2)
  let closed := x.factor % 2 == 0
  ((List.range 17).findSome? fun n => nearest? low high closed value (n + 1)).getD
    (rounded value.1 value.2 17)

def digitText (d : Digits) : Chars :=
  let cs := Nat.toDigits 10 d.digits
  List.replicate (d.count - cs.length) '0' ++ cs

def dropZeros (cs : Chars) : Chars :=
  (cs.reverse.dropWhile (· == '0')).reverse

def placed (cs : Chars) (point : Int) : Chars × Chars :=
  if point ≤ 0 then (['0'], List.replicate (-point).toNat '0' ++ cs)
  else
    let p := point.toNat
    (cs.take p ++ List.replicate (p - cs.length) '0', cs.drop p)

def scientific (cs : Chars) (point : Int) : Chars :=
  let e := point - 1
  let power := Nat.toDigits 10 e.natAbs
  let power := List.replicate (2 - power.length) '0' ++ power
  let head := cs.take 1
  let tail := cs.drop 1
  head ++ (if tail.isEmpty then [] else '.' :: tail) ++ ['e', if e < 0 then '-' else '+'] ++ power

def signed (x : Dyadic) (cs : Chars) : String :=
  String.ofList (if x.negative then '-' :: cs else cs)

def special? (x : Float) : Option String :=
  if x.isNaN then some "nan"
  else if x.isInf then some (if x < 0 then "-inf" else "inf")
  else none

/-- The shortest text that reads back, with a digit on both sides of the point; from `1e16` up and
below `1e-4` with a power of ten. -/
def floatText (x : Float) : String :=
  match special? x with
  | some s => s
  | none =>
    let d := dyadic x
    if d.factor = 0 then signed d "0.0".toList
    else
      let s := shortestDigits d
      let cs := dropZeros (digitText s)
      if -4 < s.point && s.point ≤ 16 then
        let (whole, part) := placed cs s.point
        signed d (whole ++ '.' :: if part.isEmpty then ['0'] else part)
      else signed d (scientific cs s.point)

private def quotient (x : Dyadic) : Nat × Nat :=
  scaled 2 x.power (x.factor, 1)

def generalText (x : Float) : String :=
  match special? x with
  | some s => s
  | none =>
    let d := dyadic x
    if d.factor = 0 then signed d ['0']
    else
      let (n, m) := quotient d
      let s := rounded n m 6
      let cs := dropZeros (digitText s)
      if -4 < s.point && s.point ≤ 6 then
        let (whole, part) := placed cs s.point
        signed d (if part.isEmpty then whole else whole ++ '.' :: part)
      else signed d (scientific cs s.point)

def fixedText (x : Float) (places : Nat) : String :=
  match special? x with
  | some s => s
  | none =>
    let d := dyadic x
    let (n, m) := quotient d
    let cs := Nat.toDigits 10 (evenQuotient (n * Nat.pow 10 places) m)
    let cs := List.replicate (places + 1 - cs.length) '0' ++ cs
    let whole := cs.take (cs.length - places)
    signed d (if places = 0 then whole else whole ++ '.' :: cs.drop (cs.length - places))

end SqlFerry.Value
