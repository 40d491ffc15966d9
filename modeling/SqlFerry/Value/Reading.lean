import SqlFerry.Fault

/-!
# Reading records

Turning the fields of a record into a structure. Every field is read, and the complaints of all of
them come back together in the order of the fields. Numbers and truth values may also be given in
the other forms that stand for them without loss: `"10"` for 10, `3.0` for 3, `"yes"` for true.
-/

namespace SqlFerry

inductive Checked (α : Type) where
  | ok (a : α)
  | bad (problems : List Problem)

namespace Checked

variable {α β : Type}

instance : Functor Checked where
  map f
    | ok a => ok (f a)
    | bad ps => bad ps

instance : Applicative Checked where
  pure := ok
  seq f x := match f, x () with
    | ok f, ok a => ok (f a)
    | ok _, bad qs => bad qs
    | bad ps, ok _ => bad ps
    | bad ps, bad qs => bad (ps ++ qs)

def under (k : String) : Checked α → Checked α
  | ok a => ok a
  | bad ps => bad (ps.map (·.under k))

def satisfying (x : Checked α) (f : α → Except Complaint β) : Checked β :=
  match x with
  | ok a => match f a with
    | .ok b => ok b
    | .error what => bad [⟨[], what⟩]
  | bad ps => bad ps

/-- Goes on with what was read; what the next step complains of concerns the record itself. -/
def andThen (x : Checked α) (f : α → Except Refusal β) : Checked β :=
  x.satisfying fun a => (f a).mapError .refused

def toExcept : Checked α → Except Fault α
  | ok a => .ok a
  | bad ps => .error (.invalid ps)

def all : List (Checked α) → Checked (List α)
  | [] => ok []
  | x :: xs => (· :: ·) <$> x <*> all xs

end Checked

namespace Value

open Text

variable {α : Type}

def required (k : String) (read : Value → Checked α) (v : Value) : Checked α :=
  match v.fields.lookup k with
  | some x => (read x).under k
  | none => .bad [⟨[k], .required⟩]

def withDefault (k : String) (default : α) (read : Value → Checked α) (v : Value) : Checked α :=
  match v.fields.lookup k with
  | some x => (read x).under k
  | none => .ok default

/-- A field that may be absent, but is not null. -/
def withUnset (k : String) (read : Value → Checked α) (v : Value) : Checked (Option α) :=
  v.withDefault k none fun x => some <$> read x

def optional (k : String) (read : Value → Checked α) (v : Value) : Checked (Option α) :=
  match v.field? k with
  | some x => (some <$> read x).under k
  | none => .ok none

private def complain (what : Complaint) : Checked α :=
  .bad [⟨[], what⟩]

private def expect (what : Expected) : Option α → Checked α
  | some a => .ok a
  | none => complain (.expected what)

def readText (v : Value) : Checked String :=
  expect .text v.text?

/-! ### Numbers -/

/-- Where a numeral begins without the zeros before its first digit; one zero stays if there is no
other digit before the point. Underscores between those zeros go with them. -/
private def dropLeadingZeros? : Chars → Option Chars
  | [] => none
  | c :: cs =>
    if c == '-' || ('1' ≤ c && c ≤ '9') then some (c :: cs)
    else if c != '0' then none
    else
      let zeros := cs.takeWhile fun c => c == '0' || c == '_'
      let last := (c :: zeros).getLast?.getD c
      match cs.drop zeros.length with
      | [] => some [last]
      | '.' :: rest => some (last :: '.' :: rest)
      | d :: rest => if isAsciiDigit d then some (d :: rest) else none

/-- A text without its underscores, unless there are two together or one at either end. -/
private def dropUnderscores? (cs : Chars) : Option Chars :=
  if cs.head? == some '_' || cs.getLast? == some '_' || !cs.contains '_' || hasPart ['_', '_'] cs
  then none else some (cs.filter (· != '_'))

/-- The digits of a whole number in a text: a fraction of zeros does not count. -/
private def wholeDigits? (s : String) : Option (Bool × Chars) := do
  let cs ← match trimSpace s.toList with
    | '+' :: '-' :: _ => none
    | '+' :: cs => some cs
    | cs => some cs
  let cs ← dropLeadingZeros? cs
  let whole := cs.takeWhile (· != '.')
  let part := cs.drop whole.length
  let cs := if (part.drop 1).all (· == '0') then whole else cs
  let cs := (dropUnderscores? cs).getD cs
  let (negative, ds) := splitSign cs
  if ds.isEmpty || !ds.all isAsciiDigit || (ds.head? == some '0' && 1 < ds.length) then none
  else return (negative, ds)

private def wholeOfText (s : String) : Checked Int :=
  match wholeDigits? s with
  | none => complain (.unreadable .whole)
  | some (negative, ds) =>
    if maxDigits < ds.length then complain .oversized
    else
      let n : Int := (readNat? ds).getD 0
      .ok (if negative then -n else n)

private def isModest (n : Int) : Bool :=
  -Int.ofNat (Nat.pow 2 63) < n && n < Int.ofNat (Nat.pow 2 63)

private def wholeOfFloat (x : Float) : Except Complaint Int :=
  if !x.isFinite then .error .infinite
  else
    let d := dyadic x
    let (n, den) := scaled 2 d.power (d.factor, 1)
    let k : Int := if d.negative then -((n / den : Nat) : Int) else n / den
    if n % den ≠ 0 then .error .fractional
    else if isModest k then .ok k
    else .error .oversized

def readInt : Value → Checked Int
  | int n => .ok n
  | bool b => .ok (if b then 1 else 0)
  | float x => match wholeOfFloat x with
    | .ok n => .ok n
    | .error why => complain why
  | text s => wholeOfText s
  | _ => complain (.expected .whole)

private def floatOfText? (s : String) : Option Float :=
  let read? (cs : Chars) : Option Float :=
    if cs.all (·.toNat < 128) then plainFloat? cs else none
  (read? (trimSpace s.toList)).or ((dropUnderscores? s.toList).bind read?)

def readFloat : Value → Checked Float
  | float x => .ok x
  | int n =>
    let x := nearestInt n
    if x.isFinite then .ok x else complain (.expected .number)
  | bool b => .ok (if b then 1 else 0)
  | text s => match floatOfText? s with
    | some x => .ok x
    | none => complain (.unreadable .number)
  | _ => complain (.expected .number)

def readAtLeast (bound : Int) (v : Value) : Checked Nat :=
  (readInt v).satisfying fun n => if n < bound then .error (.below bound) else .ok n.toNat

/-! ### Truth values -/

private def truthOfInt (n : Int) : Checked Bool :=
  if n = 0 then .ok false else if n = 1 then .ok true
  else if isModest n || n = -Int.ofNat (Nat.pow 2 63) then complain (.unreadable .truth)
  else complain (.expected .truth)

private def truthOfText (s : String) : Checked Bool :=
  let low := String.ofList (s.toList.map Char.toLower)
  if ["0", "off", "f", "false", "n", "no"].contains low then .ok false
  else if ["1", "on", "t", "true", "y", "yes"].contains low then .ok true
  else complain (.unreadable .truth)

def readBool : Value → Checked Bool
  | bool b => .ok b
  | int n => truthOfInt n
  | float x => match wholeOfFloat x with
    | .ok n => truthOfInt n
    | .error _ => complain (.expected .truth)
  | text s => truthOfText s
  | _ => complain (.expected .truth)

/-! ### Lists and records -/

def readList (read : Value → Checked α) : Value → Checked (List α)
  | list xs => .all (xs.zipIdx.map fun (x, i) => (read x).under (toString i))
  | _ => complain (.expected .list)

def readTexts : Value → Checked (List (String × String))
  | record fs => .all (fs.map fun (k, x) => ((k, ·) <$> readText x).under k)
  | _ => complain (.expected .record)

def readRecord (name : String) (read : Value → Checked α) (v : Value) : Checked α :=
  match v with
  | record _ => read v
  | _ => complain (.expected (.recordOf name))

def readName (all : List α) (name : α → String) (v : Value) : Checked α :=
  expect (.oneOf (all.map name)) (all.find? fun a => some (name a) == v.text?)

def readFunction (_ : Value) : Checked Unit :=
  complain (.expected .function)

def onlyFields (names : List String) (v : Value) (x : Checked α) : Checked α :=
  let extra := (v.fields.map (·.1)).filter (!names.contains ·)
  match x, extra with
  | x, [] => x
  | .ok _, ks => .bad (ks.map fun k => ⟨[k], .unexpected⟩)
  | .bad ps, ks => .bad (ps ++ ks.map fun k => ⟨[k], .unexpected⟩)

end Value

end SqlFerry
