import SqlFerry.Text.Quoted
import SqlFerry.Value.Numeral

/-!
# Dates, times and intervals

Calendar dates, times of day with an optional distance from universal time, and spans of time in
microseconds, with their texts. Dates and times are read as the standard ISO 8601 writes them, with
or without separators, a date also by the number of its week.
-/

namespace SqlFerry.Value

open Text

private def padded (width n : Nat) : String :=
  let cs := Nat.toDigits 10 n
  String.ofList (List.replicate (width - cs.length) '0' ++ cs)

private def fixed? : (n : Nat) → Chars → Option (Nat × Chars)
  | 0, cs => some (0, cs)
  | n + 1, c :: cs =>
    if isAsciiDigit c then
      (fixed? n cs).map fun (m, rest) => ((c.toNat - 48) * Nat.pow 10 n + m, rest)
    else none
  | _ + 1, [] => none

/-- Days, if any, then hours without padding, minutes and seconds; the days may be negative, what
follows them is not. -/
def intervalText (microseconds : Int) : String :=
  let days := Int.fdiv microseconds 86400000000
  let rest := (Int.fmod microseconds 86400000000).toNat
  let seconds := rest / 1000000
  let head := if days = 0 then "" else
    toString days ++ (if days.natAbs = 1 then " day, " else " days, ")
  let micros := rest % 1000000
  head ++ toString (seconds / 3600) ++ ":" ++ padded 2 (seconds / 60 % 60) ++ ":" ++
    padded 2 (seconds % 60) ++ if micros = 0 then "" else "." ++ padded 6 micros

def intervalSeconds (microseconds : Int) : Float :=
  nearestInt microseconds 1000000

def maxIntervalDays : Nat :=
  999999999

inductive MomentTrouble where
  | malformed (text : String)
  | year (n : Nat)
  | month
  | day
  | hour
  | minute
  | second
  /-- A distance from universal time of a day or more. -/
  | offset (microseconds : Int)
  deriving DecidableEq, Repr

namespace MomentTrouble

private def parts (microseconds : Int) : String :=
  let days := Int.fdiv microseconds 86400000000
  let rest := Int.fmod microseconds 86400000000
  let named := [("days", days), ("seconds", rest / 1000000), ("microseconds", rest % 1000000)]
  ", ".intercalate ((named.filter (·.2 != 0)).map fun (k, n) => k ++ "=" ++ toString n)

def message : MomentTrouble → String
  | malformed text => "Invalid isoformat string: " ++ shown text
  | year n => s!"year {n} is out of range"
  | month => "month must be in 1..12"
  | day => "day is out of range for month"
  | hour => "hour must be in 0..23"
  | minute => "minute must be in 0..59"
  | second => "second must be in 0..59"
  | offset n => "offset must be a timedelta strictly between -timedelta(hours=24) and " ++
      "timedelta(hours=24), not datetime.timedelta(" ++ parts n ++ ")."

end MomentTrouble

/-! ## Dates -/

structure Date where
  year : Nat
  month : Nat
  day : Nat
  deriving DecidableEq, Repr

namespace Date

def toText (d : Date) : String :=
  padded 4 d.year ++ "-" ++ padded 2 d.month ++ "-" ++ padded 2 d.day

def isLeapYear (year : Nat) : Bool :=
  year % 4 == 0 && (year % 100 != 0 || year % 400 == 0)

def daysOf (year month : Nat) : Nat :=
  if month == 2 then if isLeapYear year then 29 else 28
  else if [4, 6, 9, 11].contains month then 30 else 31

def check (d : Date) : Except MomentTrouble Unit :=
  if d.year < 1 || 9999 < d.year then .error (.year d.year)
  else if d.month < 1 || 12 < d.month then .error .month
  else if d.day < 1 || daysOf d.year d.month < d.day then .error .day
  else .ok ()

def daysBefore (year : Nat) : Nat :=
  let y := year - 1
  365 * y + y / 4 - y / 100 + y / 400

private def dayOfYear (year : Nat) : (months : List Nat) → (days : Nat) → Date
  | [], days => ⟨year, 13, days⟩
  | m :: months, days =>
    if days < daysOf year m then ⟨year, m, days + 1⟩
    else dayOfYear year months (days - daysOf year m)

private def ofDays? (years : List Nat) (days : Nat) : Option Date :=
  (years.find? fun y => daysBefore y ≤ days && days < daysBefore (y + 1)).map fun y =>
    dayOfYear y [1, 2, 3, 4, 5, 6, 7, 8, 9, 10, 11, 12] (days - daysBefore y)

/-- A date by the number of its week and its day in the week, of which Monday is the first. The
first week of a year is the one with its first Thursday; there is a week 53 if the year begins with
a Thursday, or with a Wednesday and is a leap year. The weeks of the year 0 are in no month. -/
def ofWeek? (year week day : Nat) : Option Date :=
  let first := daysBefore year
  let weekday := first % 7
  let weeks := if weekday == 3 || (weekday == 2 && isLeapYear year) then 53 else 52
  if 9999 < year || week < 1 || weeks < week || day < 1 || 7 < day then none
  else if year < 1 then some ⟨1, 0, 1⟩
  else
    let monday := if weekday ≤ 3 then first - weekday else first + 7 - weekday
    ofDays? [year - 1, year, year + 1] (monday + 7 * (week - 1) + (day - 1))

/-- Reads the year and the month and day, or the week and maybe its day, with hyphens between them
or without. What follows the day does not count. -/
private def read? (cs : Chars) : Option Date := do
  let (year, rest) ← fixed? 4 cs
  let hyphens := rest.head? == some '-'
  let follows (cs : Chars) : Option Chars := if hyphens then after? ['-'] cs else some cs
  let rest := if hyphens then rest.drop 1 else rest
  match rest with
  | 'W' :: rest =>
    let (week, rest) ← fixed? 2 rest
    if rest.isEmpty then ofWeek? year week 1
    else
      let (day, _) ← fixed? 1 (← follows rest)
      ofWeek? year week day
  | rest =>
    let (month, rest) ← fixed? 2 rest
    let (day, _) ← fixed? 2 (← follows rest)
    return ⟨year, month, day⟩

private def bytes (cs : Chars) : Nat :=
  cs.foldl (fun n c => n + c.utf8Size) 0

def ofIso (cs : Chars) : Except MomentTrouble Date := do
  let malformed : MomentTrouble := .malformed (String.ofList cs)
  if !([7, 8, 10].contains (bytes cs)) then throw malformed
  match read? cs with
  | none => throw malformed
  | some d =>
    d.check
    return d

/-- Where the date ends that begins the text of a date and a time: its form tells, and where that
leaves two readings, the number of digits that follow does. -/
private def length? (cs : Chars) : Option Nat :=
  let isDigitAt (i : Nat) : Bool := (cs[i]?.map isAsciiDigit).getD false
  if cs.length < 7 then none
  else if cs.length = 7 then some 7
  else if cs[4]? == some '-' then
    if cs[5]? != some 'W' then some 10
    else if cs[8]? != some '-' then some 8
    else if cs.length = 9 then none
    else if isDigitAt 10 then some 8 else some 10
  else if cs[4]? != some 'W' then some 8
  else
    let stop := 7 + ((cs.drop 7).takeWhile isAsciiDigit).length
    some (if stop < 9 then stop else if stop % 2 = 0 then 7 else 8)

end Date

/-! ## Times of day -/

structure Clock where
  hour : Nat
  minute : Nat
  second : Nat
  microsecond : Nat
  offset : Option Int
  deriving DecidableEq, Repr

namespace Clock

def midnight : Clock :=
  ⟨0, 0, 0, 0, none⟩

private def offsetText (n : Int) : String :=
  let micros := n.natAbs % 1000000
  let s := n.natAbs / 1000000
  (if n < 0 then "-" else "+") ++ padded 2 (s / 3600) ++ ":" ++ padded 2 (s / 60 % 60) ++
    (if s % 60 = 0 && micros = 0 then "" else ":" ++ padded 2 (s % 60)) ++
    if micros = 0 then "" else "." ++ padded 6 micros

/-- The fraction stands only if it is not zero, and has six digits. -/
def toText (t : Clock) : String :=
  padded 2 t.hour ++ ":" ++ padded 2 t.minute ++ ":" ++ padded 2 t.second ++
    (if t.microsecond = 0 then "" else "." ++ padded 6 t.microsecond) ++
    (t.offset.map offsetText).getD ""

private def day : Nat :=
  86400000000

def check (t : Clock) : Except MomentTrouble Unit :=
  if day ≤ (t.offset.getD 0).natAbs then .error (.offset (t.offset.getD 0))
  else if 23 < t.hour then .error .hour
  else if 59 < t.minute then .error .minute
  else if 59 < t.second then .error .second
  else .ok ()

/-- A text ends where a NUL stands. -/
private def atEnd (cs : Chars) : Bool :=
  cs.headD '\x00' == '\x00'

private structure Numbers where
  parts : List Nat
  fraction : Nat
  complete : Bool

/-- Reads a fraction. Digits after the sixth do not count. -/
private def readFraction? (cs : Chars) : Option (Nat × Bool) :=
  let width := min cs.length 6
  (fixed? width cs).map fun (n, rest) =>
    (n * Nat.pow 10 (6 - width), atEnd (rest.dropWhile isAsciiDigit))

/-- Reads up to `n` numbers of two digits and a fraction. There are colons between all of them if
one follows the first, and none otherwise. -/
private def readNumbers? (colons : Option Bool) : (n : Nat) → Chars → Option Numbers
  | 0, cs => (readFraction? cs).map fun (fraction, complete) => ⟨[], fraction, complete⟩
  | n + 1, cs => do
    let (part, rest) ← fixed? 2 cs
    let mark := rest.headD '\x00'
    let colons := colons.getD (mark == ':')
    let following := rest.drop 1
    let more (cs : Chars) : Option Numbers :=
      (readNumbers? (some colons) n cs).map fun m => { m with parts := part :: m.parts }
    if following.isEmpty && mark.toNat < 128 then return ⟨[part], 0, atEnd rest⟩
    else if colons && mark == ':' then more following
    else if mark == '.' || mark == ',' then
      let (fraction, complete) ← readFraction? following
      return ⟨[part], fraction, complete⟩
    else if colons then none
    else more rest

private def isZoneMark (c : Char) : Bool :=
  c == '+' || c == '-' || c == 'Z'

/-- Reads a distance from universal time: that of the letter `Z` is zero, and so is one of less than
a second. -/
private def readOffset? : Chars → Option (Option Int)
  | [] => some none
  | 'Z' :: rest => if atEnd rest then some (some 0) else none
  | sign :: zone => do
    let numbers ← readNumbers? none 3 zone
    if !numbers.complete then none
    let part (i : Nat) : Nat := numbers.parts[i]?.getD 0
    let seconds := part 0 * 3600 + part 1 * 60 + part 2
    let n : Int := if seconds = 0 then 0 else seconds * 1000000 + numbers.fraction
    return some (if sign == '-' then -n else n)

/-- Reads hours with optional minutes, seconds, fraction and distance from universal time. Before a
distance one more ASCII character may stand. -/
private def read? (cs : Chars) : Option Clock := do
  let body := cs.takeWhile (!isZoneMark ·)
  let zone := cs.drop body.length
  let numbers ← readNumbers? none 3 body
  if zone.isEmpty && !numbers.complete then none
  let part (i : Nat) : Nat := numbers.parts[i]?.getD 0
  return ⟨part 0, part 1, part 2, numbers.fraction, ← readOffset? zone⟩

def ofIso (cs : Chars) : Except MomentTrouble Clock := do
  match read? ((after? ['T'] cs).getD cs) with
  | none => throw (.malformed (String.ofList cs))
  | some t =>
    t.check
    return t

def dateAndTime (cs : Chars) : Except MomentTrouble (Date × Clock) := do
  let parts? := do
    let n ← Date.length? cs
    let d ← Date.read? (cs.take n)
    let t ← if cs.length ≤ n then some midnight else read? (cs.drop (n + 1))
    return (d, t)
  match parts? with
  | none => throw (.malformed (String.ofList cs))
  | some (d, t) =>
    if day ≤ (t.offset.getD 0).natAbs then t.check
    d.check
    t.check
    return (d, t)

end Clock

end SqlFerry.Value
