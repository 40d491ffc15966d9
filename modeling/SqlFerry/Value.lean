import SqlFerry.Value.Decimal
import SqlFerry.Value.Moment
import SqlFerry.Text.Quoted

/-!
# Values

What a database row may hold, and the plain records in which results are shown. A record keeps the
order of its fields.
-/

namespace SqlFerry

open Text

inductive Value where
  | null
  | bool (b : Bool)
  | int (n : Int)
  | float (x : Float)
  | decimal (d : Value.Decimal)
  | bytes (bs : List UInt8)
  | date (d : Value.Date)
  | time (t : Value.Clock)
  | moment (d : Value.Date) (t : Value.Clock)
  | interval (microseconds : Int)
  | uuid (n : Nat)
  | text (s : String)
  | list (items : List Value)
  | record (fields : List (String × Value))
  deriving Inhabited, Repr

namespace Value

instance : Coe String Value := ⟨text⟩
instance : Coe Bool Value := ⟨bool⟩
instance : Coe Int Value := ⟨int⟩
instance : Coe Nat Value := ⟨fun n => int n⟩

def ofOption {α : Type} (f : α → Value) : Option α → Value
  | some a => f a
  | none => null

def texts (xs : List String) : Value :=
  list (xs.map text)

/-- A field of a record; none also if it is null. -/
def field? (k : String) : Value → Option Value
  | record fields => match fields.find? (·.1 == k) with
    | some (_, null) | none => none
    | some (_, v) => some v
  | _ => none

def text? : Value → Option String
  | text s => some s
  | _ => none

def int? : Value → Option Int
  | int n => some n
  | _ => none

def bool? : Value → Option Bool
  | bool b => some b
  | _ => none

def items : Value → List Value
  | list xs => xs
  | _ => []

def fields : Value → List (String × Value)
  | record fs => fs
  | _ => []

def hasField (v : Value) (k : String) : Bool :=
  v.fields.any (·.1 == k)

/-- Whether the value is something other than nothing, zero and the empty. -/
def isFull : Value → Bool
  | null => false
  | bool b => b
  | int n => n != 0
  | float x => x != 0
  | decimal d => !d.isZero
  | bytes bs => !bs.isEmpty
  | interval n => n != 0
  | text s => !s.isEmpty
  | list xs => !xs.isEmpty
  | record fs => !fs.isEmpty
  | _ => true

/-- The fields of a record with `v` under `k`, in the place of an older one if there is one. -/
def insertField (k : String) (v : Value) (fs : List (String × Value)) : List (String × Value) :=
  if fs.any (·.1 == k) then fs.map fun f => if f.1 == k then (k, v) else f else fs ++ [(k, v)]

/-! ## Bytes -/

def byteHex (b : UInt8) : Chars :=
  let ds := Nat.toDigits 16 b.toNat
  if ds.length < 2 then '0' :: ds else ds

def hexText (bs : List UInt8) : String :=
  String.ofList (bs.flatMap byteHex)

private def shownByte (quote : Char) (b : UInt8) : String :=
  let c := Char.ofNat b.toNat
  if c == quote || c == '\\' then String.ofList ['\\', c]
  else if c == '\n' then "\\n"
  else if c == '\r' then "\\r"
  else if c == '\t' then "\\t"
  else if 32 ≤ b.toNat && b.toNat < 127 then c.toString
  else "\\x" ++ String.ofList (byteHex b)

def shownBytes (bs : List UInt8) : String :=
  let has (c : Char) := bs.any (·.toNat == c.toNat)
  let quote := if has '\'' && !has '"' then '"' else '\''
  "b" ++ String.ofList [quote] ++ String.join (bs.map (shownByte quote)) ++ String.ofList [quote]

def uuidText (n : Nat) : String :=
  let cs := (hex 32 n).toList
  let part (a b : Nat) := String.ofList (slice cs a b)
  "-".intercalate [part 0 8, part 8 12, part 12 16, part 16 20, part 20 32]

def scalarText : Value → String
  | null => "None"
  | bool b => if b then "True" else "False"
  | int n => toString n
  | float x => floatText x
  | decimal d => d.toText
  | bytes bs => shownBytes bs
  | date d => d.toText
  | time t => t.toText
  | moment d t => d.toText ++ " " ++ t.toText
  | interval n => intervalText n
  | uuid u => uuidText u
  | text s => s
  | list _ | record _ => ""

/-- The text of a number with six digits at most. A decimal number keeps its digits, and the form of
dates and times is a letter; numbers that no binary number is near have none, nor have other
values. -/
def shortText? : Value → Option String
  | bool b => some (if b then "1" else "0")
  | int n => if isOversized n then none else some (generalText (nearestInt n))
  | float x => some (generalText x)
  | decimal d => some (String.ofList (d.toText.toList.map fun c => if c == 'E' then 'e' else c))
  | date _ | time _ | moment _ _ => some "g"
  | _ => none

end Value

end SqlFerry
