import SqlFerry.Fault

/-!
# Reports of failures

What the result of an operation tells of the failure that ended it.
-/

namespace SqlFerry

structure Failure.Report where
  kind : Failure.Kind
  message : String
  userMessage : String
  context : Context := []
  /-- What the failure arose from. -/
  cause : Option String := none
  deriving Repr

namespace Failure

def report (f : Failure) : Report :=
  { kind := f.kind, message := f.message, userMessage := f.userMessage, context := f.context
    cause := f.becauseText }

def toValue (f : Failure) : Value :=
  .record ([("kind", (f.kind.name : Value)), ("message", f.message),
    ("user_message", f.userMessage), ("context", .record f.context)] ++
    (f.becauseText.map fun text => ("cause", (text : Value))).toList)

namespace Report

/-- The report of a fault that is no failure of its own kind: its class stands as the cause. -/
def ofOther (className message : String) : Report :=
  { kind := .general, message, userMessage := Kind.general.userMessage message
    cause := some className }

mutual

/-- The value without numbers that are not finite, which are left out of reports. -/
private def finite : Value → Value
  | .float x => if x.isFinite then .float x else .null
  | .list xs => .list (finiteItems xs)
  | .record fs => .record (finiteFields fs)
  | v => v

private def finiteItems : List Value → List Value
  | [] => []
  | x :: xs => finite x :: finiteItems xs

private def finiteFields : Context → Context
  | [] => []
  | (k, v) :: fs => (k, finite v) :: finiteFields fs

end

def toValue (r : Report) : Value :=
  .record [("kind", r.kind.name), ("message", r.message), ("user_message", r.userMessage),
    ("context", .record (finiteFields r.context)), ("cause", .ofOption .text r.cause)]

end Report

end Failure

end SqlFerry
