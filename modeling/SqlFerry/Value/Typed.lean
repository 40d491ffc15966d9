import SqlFerry.Fault

/-!
# Typed records

Records with one field whose name says what kind of scalar its value stands for, such as
`$date`, for the scalars that JSON has no form for.
-/

namespace SqlFerry.Value

open Text

private def invalid (message : String) : Fault :=
  .refused (.other message)

/-! ## Numbers -/

private def typedFloat : Value → Except Fault Value
  | float x => .ok (float x)
  | bool b => .ok (float (if b then 1 else 0))
  | int n =>
    if isOversized n then .error (.boundless "int too large to convert to float")
    else .ok (float (nearestInt n))
  | text s => match floatOf? s with
    | some x => .ok (float x)
    | none => .error (invalid ("could not convert string to float: " ++ shown s))
  | _ => .error (.mistyped "a number or a text is needed")

private def typedDecimal : Value → Except Fault Value
  | int n => .ok (decimal (.finite (n < 0) n.natAbs 0))
  | bool b => .ok (decimal (.finite false (if b then 1 else 0) 0))
  | float x => .ok (decimal (.ofFloat x))
  | text s => match Decimal.ofText? s with
    | some d => .ok (decimal d)
    | none => .error (.undefined s)
  | _ => .error (.mistyped "a number or a text is needed")

/-! ## Bytes and identifiers -/

private def nibble? (c : Char) : Option Nat :=
  basedNat? 16 [c]

private def isSpacing (c : Char) : Bool :=
  isWhiteSpace c && c.toNat < 128

private def readBytes : (position : Nat) → Chars → Except Nat (List UInt8)
  | _, [] => .ok []
  | i, c :: cs =>
    if isSpacing c then readBytes (i + 1) cs
    else match nibble? c, cs with
      | none, _ => .error i
      | some _, [] => .error (i + 1)
      | some high, d :: cs => match nibble? d with
        | none => .error (i + 1)
        | some low => (readBytes (i + 2) cs).map ((16 * high + low).toUInt8 :: ·)

def bytesOfHex (s : String) : Except Fault (List UInt8) :=
  let cs := s.toList
  let read : Except Nat (List UInt8) := match cs.findIdx? (128 ≤ ·.toNat) with
    | some i => .error i
    | none => readBytes 0 cs
  read.mapError fun i =>
    invalid s!"non-hexadecimal number found in fromhex() arg at position {i}"

private def hexDigits? (cs : Chars) : Option Nat :=
  let cs := match (splitSign (trimSpace cs)).2 with
    | '0' :: x :: '_' :: rest => if x == 'x' || x == 'X' then rest else '0' :: x :: '_' :: rest
    | '0' :: x :: rest => if x == 'x' || x == 'X' then rest else '0' :: x :: rest
    | cs => cs
  let groups := splitOn ['_'] cs
  if groups.any (·.isEmpty) then none else basedNat? 16 groups.flatten

/-- A universal identifier of 32 hexadecimal digits. Hyphens, braces around it and the marks `urn:`
and `uuid:` do not count. -/
def uuidOf (s : String) : Except Fault Nat :=
  let isBrace (c : Char) : Bool := c == '\x7b' || c == '\x7d'
  let cs := replace "uuid:".toList [] (replace "urn:".toList [] s.toList)
  let cs := ((cs.dropWhile isBrace).reverse.dropWhile isBrace).reverse.filter (· != '-')
  if cs.length ≠ 32 then .error (invalid "badly formed hexadecimal UUID string")
  else match hexDigits? cs with
    | some n => .ok n
    | none => .error (invalid ("invalid literal for int() with base 16: " ++
        String.ofList ((shown (String.ofList cs)).toList.take 200)))

/-! ## Dates and times -/

private def fromIso {α : Type} (read : Chars → Except MomentTrouble α) (make : α → Value) :
    Value → Except Fault Value
  | text s => ((read s.toList).map make).mapError fun t => invalid t.message
  | _ => .error (.mistyped "a text is needed")

private def wholePart (x : Float) : Int :=
  let d := dyadic x
  let (n, den) := scaled 2 d.power (d.factor, 1)
  if d.negative then -((n / den : Nat) : Int) else (n / den : Nat)

/-- A number of units as whole microseconds and the part of one that is left. -/
private def microseconds (unit : Nat) : Value → Except Fault (Int × Float)
  | int n => .ok (n * unit, 0)
  | bool b => .ok (if b then unit else 0, 0)
  | float x =>
    if x.isNaN then .error (invalid "cannot convert float NaN to integer")
    else if x.isInf then .error (.boundless "cannot convert float infinity to integer")
    else
      let part := nearestInt unit * (x - nearestInt (wholePart x))
      .ok (wholePart x * unit + wholePart part, part - nearestInt (wholePart part))
  | _ => .error (.mistyped "a number is needed")

private def units : List (Nat × Nat) :=
  [(2, 1), (3, 1000), (1, 1000000), (4, 60000000), (5, 3600000000), (0, 86400000000),
   (6, 604800000000)]

/-- An interval from its parts. What is left of microseconds is added up and rounded with them once,
and a half goes to the even neighbour. -/
private def typedInterval : Value → Except Fault Value
  | list parts => do
    if units.length < parts.length then throw (.mistyped "an interval has seven parts at most")
    let terms ← units.mapM fun (i, unit) => microseconds unit (parts[i]?.getD (int 0))
    let (whole, left) := terms.foldl (fun (n, x) (m, y) => (n + m, x + y)) ((0 : Int), (0 : Float))
    let d := dyadic left
    let (m, den) := scaled 2 d.power (d.factor, 1)
    let sum : Int := whole * den + if d.negative then -(m : Int) else m
    let total : Int := evenQuotient sum.natAbs den
    let total := if sum < 0 then -total else total
    if maxIntervalDays < (Int.fdiv total 86400000000).natAbs then
      throw (.boundless "the interval is too long")
    return interval total
  | _ => .error (.mistyped "the parts of an interval are needed")

/-! ## Records -/

private def scalarOf? (name : String) (v : Value) : Option (Except Fault Value) :=
  match name with
  | "$float" => some (typedFloat v)
  | "$decimal" => some (typedDecimal v)
  | "$bytes" => some (match v with
    | text s => (bytesOfHex s).map bytes
    | _ => .error (.mistyped "a text is needed"))
  | "$date" => some (fromIso Date.ofIso date v)
  | "$time" => some (fromIso Clock.ofIso time v)
  | "$datetime" => some (fromIso Clock.dateAndTime (fun (d, t) => moment d t) v)
  | "$timedelta" => some (typedInterval v)
  | "$uuid" => some (match v with
    | text s => (uuidOf s).map uuid
    | _ => .error (.partless "a text is needed"))
  | _ => none

private def itemsOf : Value → Except Fault (List Value)
  | list xs => .ok xs
  | text s => .ok (s.toList.map (text ·.toString))
  | record fs => .ok (fs.map (text ·.1))
  | _ => .error (.mistyped "a list is needed")

def maxNesting : Nat :=
  496

mutual

/-- A value with the typed records in it replaced by what they stand for; one named `$tuple` stands
for the list in it. There is room for so many lists and records in one another. -/
def untyped : (room : Nat) → Value → Except Fault Value
  | 0, list _ | 0, record _ => .error .tooDeep
  | n + 1, list xs => list <$> untypedItems n xs
  | n + 1, record [(name, v)] =>
    match scalarOf? name v with
    | some r => r
    | none => do
      let v ← untyped n v
      if name == "$tuple" then list <$> itemsOf v else return record [(name, v)]
  | n + 1, record fs => record <$> untypedFields n fs
  | _, v => .ok v

def untypedItems (room : Nat) : List Value → Except Fault (List Value)
  | [] => .ok []
  | x :: xs => do return (← untyped room x) :: (← untypedItems room xs)

def untypedFields (room : Nat) : List (String × Value) → Except Fault (List (String × Value))
  | [] => .ok []
  | (k, v) :: fs => do return (k, ← untyped room v) :: (← untypedFields room fs)

end

def untypedUnder (names : List String) : (fuel : Nat) → Value → Except Fault Value
  | 0, v => .ok v
  | n + 1, list xs => list <$> xs.mapM (untypedUnder names n)
  | n + 1, record fs => record <$> fs.mapM fun (k, v) =>
    (k, ·) <$> if names.contains k then untyped maxNesting v else untypedUnder names n v
  | _, v => .ok v

end SqlFerry.Value
