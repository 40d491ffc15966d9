import SqlFerry.Fault

/-!
# The header of a backup

SQL backups begin with comment lines that name the version, the dialect, the strategy and the time
of creation, and another dialect if the backup is meant for one.
-/

namespace SqlFerry.Restore

open Text

structure Header where
  dialect : Option Dialect := none
  targetDialect : Option Dialect := none
  strategy : Option String := none
  created : Option String := none
  version : Option String := none
  deriving DecidableEq, Repr

namespace Header

def marker : String :=
  "-- dbporter"

/-- Whether the backup is meant for another dialect than its own. -/
def needsConversion (h : Header) : Bool :=
  match h.dialect, h.targetDialect with
  | some a, some b => a != b
  | _, _ => false

private def readLine (h : Header) (line : Chars) : Header :=
  match cut? [':'] (line.drop 2) with
  | none => h
  | some (key, value) =>
    let value := String.ofList (trim value)
    match lower (String.ofList (trim key)) with
    | "dialect" => { h with dialect := Dialect.ofName? value }
    | "target-dialect" => { h with targetDialect := Dialect.ofName? value }
    | "strategy" => { h with strategy := some value }
    | "created" => { h with created := some value }
    | _ => h

private def maxLines : Nat :=
  19

/-- The header that a text begins with, if there is one. It ends at the first line that is no
comment. -/
def ofText? (text : Chars) : Option Header :=
  match lines (trimLeft text) with
  | [] => none
  | first :: rest =>
    if startsWith marker.toList first then
      let version := ((words first)[2]?).map String.ofList
      let own := (rest.take maxLines).takeWhile (startsWith ['-', '-'])
      some (own.foldl readLine { version })
    else none

def write (d : Dialect) (strategy version created : String) (target : Option Dialect) : String :=
  marker ++ " " ++ version ++ " SQL backup\n-- Dialect: " ++ d.name ++ "\n" ++
    (match target with
      | some t => if t == d then "" else "-- Target-Dialect: " ++ t.name ++ "\n"
      | none => "") ++
    "-- Strategy: " ++ strategy ++ "\n-- Created: " ++ created ++ "\n"

def toValue (h : Header) : Value :=
  .record [("dialect", .ofOption .text (h.dialect.map Dialect.name)),
    ("target_dialect", .ofOption .text (h.targetDialect.map Dialect.name)),
    ("strategy", .ofOption .text h.strategy), ("created", .ofOption .text h.created),
    ("version", .ofOption .text h.version)]

end Header

end SqlFerry.Restore
