import SqlFerry.Fault

/-!
# Warnings of a conversion

What the target dialect cannot express, or not as it was. A strict conversion stops at the first
thing that would have to be dropped.
-/

namespace SqlFerry.Convert

inductive Severity where
  /-- Something close takes its place. -/
  | lossy
  | dropped
  deriving DecidableEq, Repr

def Severity.name : Severity → String
  | lossy => "lossy"
  | dropped => "dropped"

structure Warning where
  severity : Severity
  entityType : String
  entity : String
  table : Option String
  message : String
  deriving DecidableEq, Repr

namespace Warning

def display (w : Warning) : String :=
  let place := match w.table with
    | some t => if t.isEmpty || t == w.entity then w.entity else t ++ "." ++ w.entity
    | none => w.entity
  s!"[{w.severity.name}] {w.entityType} {place}: {w.message}"

def toValue (w : Warning) : Value :=
  .record [("entity_type", w.entityType), ("entity", w.entity),
    ("table", .ofOption .text w.table), ("message", w.message), ("severity", w.severity.name),
    ("str", w.display)]

def failure (w : Warning) : Fault :=
  .fail (.inexpressible w.display
    [("entity_type", w.entityType), ("entity", w.entity), ("table", .ofOption .text w.table)])

end Warning

/-- Steps of a conversion, which collect warnings. -/
abbrev Converting := StateT (List Warning) (Except Fault)

/-- Notes a warning; under `strict` a dropped feature ends the conversion. -/
def warn (strict : Bool) (w : Warning) : Converting Unit := do
  if strict && w.severity == .dropped then throw w.failure
  modify (· ++ [w])

end SqlFerry.Convert
