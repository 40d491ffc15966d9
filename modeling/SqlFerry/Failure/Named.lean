import SqlFerry.Fault

/-!
# Causes of failures by name

A cause from its kind's name and a record of its details, as programs write them down. Details that
are missing or that the cause does not have are refused.
-/

namespace SqlFerry.Failure

/-- The details that a cause has: those that have to be there, and the others. -/
private def detailNames : String → Option (List String × List String)
  | "file_not_found" | "permission_denied" => some (["path"], ["operation"])
  | "file_empty" => some (["path"], [])
  | "file_corrupt" => some (["path"], ["reason"])
  | "disk_space" => some (["path", "required", "available"], [])
  | "strategy_unavailable" => some (["strategy"], ["dialect", "reason"])
  | "database_connection" => some (["dialect", "details"], ["cause"])
  | "validation_failed" => some (["path", "errors"], [])
  | "restore_failed" | "backup_failed" => some (["path", "reason"], ["context", "cause"])
  | "timeout" => some (["operation", "seconds"], ["context"])
  | "parse_error" => some (["message", "offset"], ["line"])
  | "unsupported" => some (["message"], ["context"])
  | "new" => some (["message"], ["kind", "context"])
  | _ => none

private def checkNames (name : String) (details : Value) : Except Fault Unit :=
  match detailNames name with
  | none => .error (.partless ("there is no cause named " ++ name))
  | some (required, others) =>
    if !required.all details.hasField then .error (.mistyped "a detail is missing")
    else if !details.fields.all fun (k, _) => required.contains k || others.contains k then
      .error (.mistyped "there is a detail too many")
    else .ok ()

private def kindOf (name : String) : Except Fault Kind :=
  match Kind.ofName? name with
  | some kind => .ok kind
  | none => .error (.refused (.other (Text.shown name ++ " is not a valid ErrorKind")))

private def textsOf : Value → Except Fault (List String)
  | .list xs => xs.mapM fun
    | .text s => .ok s
    | _ => .error (.mistyped "an item is no text")
  | .text s => .ok (s.toList.map Char.toString)
  | .record fs => .ok (fs.map (·.1))
  | _ => .error (.mistyped "a list of texts is needed")

def Cause.named (name : String) (details : Value) : Except Fault Cause := do
  checkNames name details
  let value (k : String) : Value := (details.field? k).getD .null
  let text? (k : String) : Option String := (details.field? k).map Value.scalarText
  let text (k : String) (absent : String := "None") : String := (text? k).getD absent
  let context := (value "context").fields
  match name with
  | "file_not_found" => return .fileNotFound (text "path") (text "operation" "restore")
  | "file_empty" => return .fileEmpty (text "path")
  | "file_corrupt" => return .fileCorrupt (text "path") (text "reason" "")
  | "permission_denied" => return .permissionDenied (text "path") (text "operation" "access")
  | "disk_space" => return .diskSpace (text "path") (value "required") (value "available")
  | "strategy_unavailable" =>
    return .strategyUnavailable (text "strategy") (text? "dialect") (text "reason" "")
  | "database_connection" => return .databaseConnection (text? "dialect") (text "details")
  | "validation_failed" =>
    return .validationFailed (text "path") (← textsOf (value "errors"))
  | "restore_failed" => return .restoreFailed (text? "path") (text "reason") context
  | "backup_failed" => return .backupFailed (text? "path") (text "reason") context
  | "timeout" =>
    let _ ← (value "seconds").short
    return .timeout (text "operation") (value "seconds") context
  | "parse_error" =>
    return .malformed (text "message") (value "offset")
      (if details.hasField "line" then value "line" else .int 0)
  | "unsupported" => return .inexpressible (text "message") context
  | _ =>
    let kind ← if details.hasField "kind" then kindOf (text "kind") else pure .general
    return .other (text "message") kind context

end SqlFerry.Failure
