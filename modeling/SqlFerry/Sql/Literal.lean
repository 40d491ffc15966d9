import SqlFerry.Fault
import SqlFerry.Value.Json

/-!
# Names and literals as SQL

How each dialect writes a name, a value and the rows of an `INSERT`. What holds a whole number with
too many digits is refused.
-/

namespace SqlFerry

namespace Value

mutual

def isWritable : Value → Bool
  | int n => HasFewDigits n
  | list xs => areWritable xs
  | record fs => haveWritable fs
  | _ => true

def areWritable : List Value → Bool
  | [] => true
  | v :: vs => v.isWritable && areWritable vs

def haveWritable : List (String × Value) → Bool
  | [] => true
  | (_, v) :: fs => v.isWritable && haveWritable fs

end

end Value

namespace Dialect

open Text

def nameQuote : Dialect → Char
  | mysql => '\x60'
  | _ => '"'

def enclose (q : Char) (cs : Chars) : String :=
  String.ofList (q :: cs.flatMap (fun c => if c == q then [q, q] else [c]) ++ [q])

def quote (d : Dialect) (name : String) : String :=
  enclose d.nameQuote name.toList

def quoteAll (d : Dialect) (names : List String) : String :=
  ", ".intercalate (names.map d.quote)

def escapeBackslash (c : Char) : Chars :=
  if c == '\\' then ['\\', '\\'] else if c == '\x00' then ['\\', '0'] else [c]

/-- A text as a literal: quotes are doubled, and MySQL also escapes the backslash and NUL. -/
def textLiteral (d : Dialect) (s : String) : String :=
  enclose '\'' (if d == mysql then s.toList.flatMap escapeBackslash else s.toList)

def floatLiteral (d : Dialect) (x : Float) : String :=
  if x.isNaN || x.isInf then
    if d == postgresql then "'" ++ Value.floatText x ++ "'::float8" else "NULL"
  else Value.floatText x

def decimalLiteral (d : Dialect) : Value.Decimal → String
  | x@(.finite ..) => x.toText
  | .infinite negative =>
    if d == postgresql then (if negative then "'-Infinity'" else "'Infinity'") ++ "::numeric"
    else "NULL"
  | .undefined .. => if d == postgresql then "'NaN'::numeric" else "NULL"

mutual

/-- The text of a value as a literal if the value can be written (`render`). Only PostgreSQL has
arrays; elsewhere a list is the text of its JSON, as a record is everywhere. -/
def literal (d : Dialect) : Value → String
  | .null => "NULL"
  | .bool b =>
    if d == postgresql then (if b then "TRUE" else "FALSE") else (if b then "1" else "0")
  | .int n => toString n
  | .float x => floatLiteral d x
  | .decimal x => decimalLiteral d x
  | .bytes bs =>
    if d == postgresql then "'\\x" ++ Value.hexText bs ++ "'::bytea"
    else "X'" ++ Value.hexText bs ++ "'"
  | .date x => textLiteral d x.toText
  | .time t => textLiteral d t.toText
  | .moment x t => textLiteral d (x.toText ++ " " ++ t.toText)
  | .interval n =>
    if d == postgresql then
      "'" ++ Value.floatText (Value.intervalSeconds n) ++ " seconds'::interval"
    else textLiteral d (Value.intervalText n)
  | .uuid u => textLiteral d (Value.uuidText u)
  | .text s => textLiteral d s
  | .list xs =>
    if d == postgresql then
      if xs.isEmpty then "'\x7b\x7d'" else "ARRAY[" ++ ", ".intercalate (literals d xs) ++ "]"
    else textLiteral d (Value.list xs).jsonText
  | .record fs => textLiteral d (Value.record fs).jsonText

def literals (d : Dialect) : List Value → List String
  | [] => []
  | v :: vs => literal d v :: literals d vs

end

/-- A value as a literal. Digits are spelled out for numbers alone, in arrays and in JSON alike, so
that one long number anywhere in it stops the whole. -/
def render (d : Dialect) (v : Value) : Except Fault String :=
  if v.isWritable then .ok (d.literal v) else .error (.refused .unwritable)

def tuple (values : List String) : String :=
  "(" ++ ", ".intercalate values ++ ")"

def insertOf (d : Dialect) (table : String) (columns tuples : List String) : String :=
  "INSERT INTO " ++ d.quote table ++ " (" ++ d.quoteAll columns ++ ") VALUES\n  " ++
    ",\n  ".intercalate tuples

/-- The text of one `INSERT` of several rows if all of them can be written (`renderInsert`). -/
def insert (d : Dialect) (table : String) (columns : List String) (rows : List (List Value)) :
    String :=
  d.insertOf table columns (rows.map fun row => tuple (row.map d.literal))

def renderInsert (d : Dialect) (table : String) (columns : List String)
    (rows : List (List Value)) : Except Fault String := do
  return d.insertOf table columns (← rows.mapM fun row => return tuple (← row.mapM d.render))

/-! ## What can be written -/

theorem mapM_ite {ε α β : Type} (p : α → Bool) (f : α → β) (e : ε) (xs : List α) :
    xs.mapM (fun x => if p x then Except.ok (f x) else .error e) =
      if xs.all p then .ok (xs.map f) else .error e := by
  induction xs with
  | nil => rfl
  | cons x xs ih =>
    rw [List.mapM_cons, ih, List.all_cons]
    cases p x with
    | false => rfl
    | true =>
      cases xs.all p with
      | false => rfl
      | true => rfl

theorem renderInsert_eq (d : Dialect) (table : String) (columns : List String)
    (rows : List (List Value)) : d.renderInsert table columns rows =
      if rows.all fun row => row.all Value.isWritable then .ok (d.insert table columns rows)
      else .error (.refused .unwritable) := by
  have hrow (row : List Value) : (do return tuple (← row.mapM d.render) : Except Fault String) =
      if row.all Value.isWritable then .ok (tuple (row.map d.literal))
      else .error (.refused .unwritable) := by
    have h : row.mapM d.render = _ := mapM_ite Value.isWritable d.literal _ row
    rw [h]
    cases row.all Value.isWritable with
    | false => rfl
    | true => rfl
  unfold renderInsert
  simp only [hrow, mapM_ite]
  cases rows.all fun row => row.all Value.isWritable with
  | false => rfl
  | true => rfl

theorem renderInsert_eq_ok {d : Dialect} {table text : String} {columns : List String}
    {rows : List (List Value)} : d.renderInsert table columns rows = .ok text ↔
      (∀ row ∈ rows, ∀ v ∈ row, v.isWritable) ∧ d.insert table columns rows = text := by
  rw [renderInsert_eq]
  simp only [← List.all_eq_true]
  split
  · next h => simp [h]
  · next h => simp [h]

theorem eq_map_insert {d : Dialect} {table : String} {columns texts : List String}
    {groups : List (List (List Value))}
    (h : groups.mapM (d.renderInsert table columns) = .ok texts) :
    texts = groups.map (d.insert table columns) := by
  rw [funext (renderInsert_eq d table columns), mapM_ite] at h
  split at h
  · exact (Except.ok.inj h).symm
  · cases h

end Dialect

end SqlFerry
