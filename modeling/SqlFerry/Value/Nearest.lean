/-!
# Rounding to binary numbers

A quotient of natural numbers becomes the nearest binary number with 53 digits, of two the one with
an even factor. All of it is done with natural numbers, so that nothing is rounded on the way.
-/

namespace SqlFerry.Value

def scaled (base : Nat) (e : Int) (n : Nat × Nat) : Nat × Nat :=
  if 0 ≤ e then (n.1 * Nat.pow base e.toNat, n.2) else (n.1, n.2 * Nat.pow base (-e).toNat)

/-- `n / d` rounded to a whole number, a tie to the even neighbour. -/
def evenQuotient (n d : Nat) : Nat :=
  let k := n / d
  let r := 2 * (n % d)
  if d < r || (r == d && k % 2 == 1) then k + 1 else k

def binaryMagnitude (num den : Nat) : Int :=
  let k : Int := (num.log2 : Int) - den.log2
  let (n, d) := scaled 2 (-k) (num, den)
  if n < d then k - 1 else k

private def infinity : Nat :=
  0x7FF0000000000000

/-- The pattern of bits of the binary number nearest to `num / den`. Below the normal numbers the
power stays at its least, and above the largest one there is only infinity. -/
def nearestBits (num den : Nat) : Nat :=
  if num = 0 then 0
  else
    let power := max (binaryMagnitude num den - 52) (-1074)
    let (n, d) := scaled 2 (-power) (num, den)
    min ((power + 1074).toNat * Nat.pow 2 52 + evenQuotient n d) infinity

def nearest (num den : Nat) : Float :=
  Float.ofBits (UInt64.ofNat (nearestBits num den))

def nearestInt (n : Int) (den : Nat := 1) : Float :=
  if n < 0 then -nearest n.natAbs den else nearest n.natAbs den

def isOversized (n : Int) : Bool :=
  infinity ≤ nearestBits n.natAbs 1

end SqlFerry.Value
