import SqlFerry.Failure
import SqlFerry.Dialect

/-!
# Faults

Everything that can interrupt a computation: structural failures, refusals by the database or the
operating system, requests that make no sense, and records that break the rules of their type.
-/

namespace SqlFerry

inductive Refusal where
  | unknownDialect (text : String)
  | unknownParser (text : String)
  | duplicateColumn (column table : String)
  | missingColumn (column owner table : String)
  | duplicateTable (table : String)
  /-- A parenthesis is required and absent. -/
  | noParenthesis
  /-- A text that is no whole number, for instance for a digit that is no decimal digit. -/
  | notWhole (text : String)
  /-- A whole number with more digits than are read. -/
  | tooManyDigits (count : Nat)
  /-- A whole number with more digits than are written. -/
  | unwritable
  /-- A referential constraint without a referenced table. -/
  | noReferencedTable
  /-- A check constraint without an expression. -/
  | noExpression
  | badDirection (text : String)
  | badToml (path reason : String)
  | badUrl (reason : String)
  | passwordInArguments
  /-- A path that names no file. -/
  | nameless (path : String)
  | other (text : String)
  deriving DecidableEq, Repr

def Refusal.message : Refusal → String
  | unknownDialect text => Dialect.unknownMessage text
  | unknownParser text => "Unknown parser kind: " ++ Text.shown text
  | duplicateColumn column table => s!"Duplicate column '{column}' in table '{table}'"
  | missingColumn column owner table =>
    s!"Column '{column}' referenced by {Text.strip owner} does not exist on table '{table}'"
  | duplicateTable table => s!"Duplicate table '{table}'"
  | noParenthesis => "substring not found"
  | notWhole text => "invalid literal for int() with base 10: " ++
      String.ofList ((Text.shown text).toList.take 200)
  | tooManyDigits count =>
    s!"Exceeds the limit ({Value.maxDigits} digits) for integer string conversion: value has " ++
      s!"{count} digits; use sys.set_int_max_str_digits() to increase the limit"
  | unwritable =>
    s!"Exceeds the limit ({Value.maxDigits} digits) for integer string conversion; " ++
      "use sys.set_int_max_str_digits() to increase the limit"
  | noReferencedTable => "Foreign key constraint requires a referenced table"
  | noExpression => "Check constraint requires an expression"
  | badDirection text => "Invalid index direction: " ++ text
  | badToml path reason => s!"Invalid TOML in {path}: {reason}"
  | badUrl reason => "Invalid database URL: " ++ reason
  | passwordInArguments => "Passwords must not be passed as command-line arguments"
  | nameless path => s!"PosixPath({Text.shown path}) has an empty name"
  | other text => text

def Refusal.ofWhole (text : String) : Value.WholeTrouble → Refusal
  | .malformed => notWhole text
  | .tooLong count => tooManyDigits count

inductive Expected where
  | text
  | whole
  | number
  | truth
  | list
  | record
  /-- The record of a structure of this name. -/
  | recordOf (name : String)
  | function
  /-- One of these texts, of which there are at least two. -/
  | oneOf (names : List String)
  deriving DecidableEq, Repr

def Expected.description : Expected → String
  | text => "a valid string"
  | whole => "a valid integer"
  | number => "a valid number"
  | truth => "a valid boolean"
  | list => "a valid list"
  | record => "a valid dictionary"
  | recordOf name => "a valid dictionary or instance of " ++ name
  | function => "callable"
  | oneOf names =>
    let quoted := names.map fun name => "'" ++ name ++ "'"
    ", ".intercalate quoted.dropLast ++ " or " ++ quoted.getLast?.getD ""

inductive Complaint where
  | required
  | unexpected
  | expected (what : Expected)
  /-- A text, or for a truth value a number, that does not stand for what is expected. -/
  | unreadable (what : Expected)
  /-- A number with a fraction where a whole one is expected. -/
  | fractional
  /-- An infinite number where a whole one is expected. -/
  | infinite
  /-- A number too large to be taken for a whole one. -/
  | oversized
  | notAbove (bound : Int)
  | below (bound : Int)
  | refused (why : Refusal)
  deriving DecidableEq, Repr

private def Expected.unreadable : Expected → String
  | whole => ", unable to parse string as an integer"
  | number => ", unable to parse string as a number"
  | _ => ", unable to interpret input"

def Complaint.message : Complaint → String
  | required => "Field required"
  | unexpected => "Extra inputs are not permitted"
  | expected what => "Input should be " ++ what.description
  | unreadable what => "Input should be " ++ what.description ++ what.unreadable
  | fractional => "Input should be a valid integer, got a number with a fractional part"
  | infinite => "Input should be a finite number"
  | oversized => "Unable to parse input string as an integer, exceeded maximum size"
  | notAbove bound => s!"Input should be greater than {bound}"
  | below bound => s!"Input should be greater than or equal to {bound}"
  | refused why => "Value error, " ++ why.message

/-- A complaint and the path to the field; the empty path is the record itself. -/
structure Problem where
  path : List String
  complaint : Complaint
  deriving DecidableEq, Repr

namespace Problem

def message (p : Problem) : String :=
  ".".intercalate p.path ++ ": " ++ p.complaint.message

def under (k : String) (p : Problem) : Problem :=
  { p with path := k :: p.path }

end Problem

inductive SystemTrouble where
  | general
  | missing
  | alreadyThere
  | noFolder
  | isFolder
  | longName
  | busy
  deriving DecidableEq, Repr

namespace SystemTrouble

def className : SystemTrouble → String
  | general | longName | busy => "OSError"
  | missing => "FileNotFoundError"
  | alreadyThere => "FileExistsError"
  | noFolder => "NotADirectoryError"
  | isFolder => "IsADirectoryError"

def words : SystemTrouble → String
  | general => "[Errno 5] Input/output error"
  | missing => "[Errno 2] No such file or directory"
  | alreadyThere => "[Errno 17] File exists"
  | noFolder => "[Errno 20] Not a directory"
  | isFolder => "[Errno 21] Is a directory"
  | longName => "[Errno 36] File name too long"
  | busy => "[Errno 16] Device or resource busy"

end SystemTrouble

inductive Fault where
  | failure (f : Failure)
  /-- The database refused. -/
  | engine (text : String)
  /-- The operating system refused. -/
  | system (kind : SystemTrouble) (text : String)
  | missingFile (text : String)
  | noProfile (text : String)
  | refused (why : Refusal)
  /-- A record breaks the rules of its type. -/
  | invalid (problems : List Problem)
  /-- A list is empty where its first item is needed. -/
  | nothingFirst
  /-- A value of a kind that makes no sense where it stands. -/
  | mistyped (text : String)
  /-- A number without bound where a finite one is needed. -/
  | boundless (text : String)
  /-- A part is asked of a value that has no parts of that name. -/
  | partless (text : String)
  /-- A text that stands for no decimal number. -/
  | undefined (text : String)
  /-- Values are nested deeper than can be followed. -/
  | tooDeep
  deriving Repr

namespace Fault

def className : Fault → String
  | failure f => f.className
  | engine _ => "SQLAlchemyError"
  | system kind _ => kind.className
  | missingFile _ => "FileNotFoundError"
  | noProfile _ => "ProfileNotFoundError"
  | refused _ => "ValueError"
  | invalid _ => "ValidationError"
  | nothingFirst => "IndexError"
  | mistyped _ => "TypeError"
  | boundless _ => "OverflowError"
  | partless _ => "AttributeError"
  | undefined _ => "InvalidOperation"
  | tooDeep => "RecursionError"

def message : Fault → String
  | failure f => f.message
  | engine text | system _ text | missingFile text | noProfile text | mistyped text
  | boundless text | partless text | undefined text => text
  | tooDeep => "maximum recursion depth exceeded"
  | refused why => why.message
  | invalid problems => "; ".intercalate (problems.map Problem.message)
  | nothingFirst => "list index out of range"

def fail (cause : Failure.Cause) : Fault :=
  .failure { cause }

def failBecause (cause : Failure.Cause) (e : Fault) : Fault :=
  .failure { cause, because := some (e.className, e.message) }

/-- A fault as a failure: refusals of the database and of the system have the cause that `cause`
makes of their text. Other faults stay as they are. -/
def asFailure (cause : String → Failure.Cause) (e : Fault) : Except Fault Failure :=
  match e with
  | .failure f => .ok f
  | .engine text | .system _ text =>
    .ok { cause := cause text, because := some (e.className, text) }
  | _ => .error e

def broken (why : Refusal) : Fault :=
  .invalid [⟨[], .refused why⟩]

end Fault

def Value.short (v : Value) : Except Fault String :=
  match v.shortText?, v with
  | some t, _ => .ok t
  | none, .int _ => .error (.boundless "int too large to convert to float")
  | none, .text _ => .error (.refused (.other "Unknown format code 'g' for object of type 'str'"))
  | none, _ => .error (.mistyped "only a number has a short text")

def Value.wholeText (n : Int) : Except Fault String :=
  if HasFewDigits n then .ok (toString n) else .error (.refused .unwritable)

theorem Value.eq_toString_of_wholeText {n : Int} {text : String} (h : wholeText n = .ok text) :
    text = toString n := by
  rw [wholeText] at h
  split at h
  · exact (Except.ok.inj h).symm
  · cases h

def Dialect.named (text : String) : Except Fault Dialect :=
  match Dialect.ofName? text with
  | some d => .ok d
  | none => .error (.refused (.unknownDialect text))

end SqlFerry
