import SqlFerry.Splitter
import SqlFerry.Fault

/-!
# Statements as records

The records that show a statement and the statistics of a splitter, and the values by which texts
are cut and sizes are bounded.
-/

namespace SqlFerry

open Value

def Statement.toValue (s : Statement) : Value :=
  .record [("text", s.text), ("kind", s.kind.name), ("verb", s.verb), ("index", s.index),
    ("start", s.start), ("end", s.stop), ("line", s.line),
    ("terminator", .ofOption .text s.terminator), ("routine", s.inRoutine)]

/-- The text on one line, cut as `limit` says. A limit that is no whole number serves only where
nothing is cut. -/
def Statement.previewWithin (text : String) (limit : Value) : Except Fault String :=
  match limit with
  | .int n => .ok (previewOf text n)
  | .bool b => .ok (previewOf text (if b then 1 else 0))
  | .float x =>
    let flat := Text.oneLine text
    if Float.ofNat flat.length ≤ x then .ok flat
    else .error (.mistyped "a text is cut at a whole number")
  | _ => .error (.mistyped "a limit is a number")

/-- The limit that a number sets. What no text can have is no bound. -/
def Splitter.SizeLimit.ofValue (limit : Value) : Except SqlFerry.Fault SizeLimit :=
  match limit with
  | .int n => .ok (ofInt n)
  | .bool b => .ok ⟨some (if b then 1 else 0), scalarText limit⟩
  | .float x =>
    let bound := if x < 0 then some (-1)
      else if x < 9007199254740992 then some (Int.ofNat x.floor.toUInt64.toNat)
      else none
    .ok ⟨bound, scalarText limit⟩
  | _ => .error (.mistyped "a size is a number")

def Splitter.Statistics.toValue (s : Splitter.Statistics) : Value :=
  .record [("statements", s.statements), ("characters", s.characters),
    ("comments_removed", s.commentsRemoved), ("delimiter_changes", s.delimiterChanges),
    ("routine_bodies", s.routineBodies)]

end SqlFerry
