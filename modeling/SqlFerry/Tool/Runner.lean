import SqlFerry.Value.Reading
import SqlFerry.Tool.Command

/-!
# Running commands

Commands run for a limited time, and secrets reach them through the environment or the input only.
What becomes of a program once it is started is known by a function.
-/

namespace SqlFerry.Tool

open Text

def State.named (name : String) : Except Fault State :=
  match State.ofName? name with
  | some s => .ok s
  | none => .error (.refused (.other (shown name ++ " is not a valid ProcessState")))

/-- A program as it is started: `environment` is what is added to the usual one. -/
structure Child where
  argv : List String
  environment : List (String × String) := []
  input : Bytes.Octets := []

inductive Ending where
  | unstarted (why : String)
  /-- `seconds` is how long it runs if it is not ended before. -/
  | exited (seconds : Float) (code : Int) (stdout stderr : Bytes.Octets)

/-- A command with what is added to its environment. Its outputs are read in pieces of `pieceSize`
bytes, all at once if that is negative; a piece of no bytes ends the reading. -/
structure Run extends Command where
  environment : List (String × String) := []
  pieceSize : Int := 8192

namespace Run

variable (r : Run)

def secrets : List String :=
  match r.credentials with
  | some c => if c.password.isEmpty then [] else [c.password]
  | none => []

def child : Child :=
  let input := (r.input.map Bytes.encode).getD []
  let bare : Child := { argv := r.argv, environment := r.environment, input }
  match r.credentials with
  | none => bare
  | some c =>
    if c.password.isEmpty then bare
    else match c.variableName.filter (!·.isEmpty) with
      | some name => { bare with environment := r.environment ++ [(name, c.password)] }
      | none => { bare with input := Bytes.encode (c.password ++ "\n") ++ input }

def display : String :=
  Command.display (redactArguments r.secrets r.argv)

def isReached (limit : Value) (elapsed : Float) : Bool :=
  match limit with
  | .int n => Value.nearestInt n ≤ elapsed
  | .bool b => (if b then 1 else 0) ≤ elapsed
  | .float x => x ≤ elapsed
  | .decimal d => ((Value.floatOf? d.toText).map (decide <| · ≤ elapsed)).getD false
  | _ => false

def isMeasured : Value → Bool
  | .int _ | .bool _ | .float _ => true
  | _ => false

def finish (program : String) : Ending → State × Except Fault Outcome
  | .unstarted why =>
    let because := ("FileNotFoundError", why)
    let reason := s!"cannot execute {program}: " ++ redact r.secrets why
    (.spawnFailed, .error (.failure
      { cause := .strategyUnavailable program none reason, because }))
  | .exited time code stdout stderr =>
    if isReached r.timeout time then
      (.timedOut, .error (.fail (.timeout r.display r.timeout [])))
    else if !isMeasured r.timeout then
      (.running, .error (.mistyped "a time limit is a binary number"))
    else
      let read (bs : Bytes.Octets) : Bytes.Octets := if r.pieceSize = 0 then [] else bs
      let errors := redact r.secrets (String.ofList (Bytes.decodeLossy (read stderr)))
      (.completed, .ok { command := redactArguments r.secrets r.argv, code, stdout := read stdout
                         stderr := Bytes.encode errors })

/-- Runs a command. A command without a program, one that shows its password and one whose time
limit has no short text are refused before anything is started. -/
def perform (start : Child → Ending) : State × Except Fault Outcome :=
  match r.argv with
  | [] => (.idle, .error (.refused (.other "Empty command")))
  | program :: _ =>
    if r.secrets.any (holdsSecret r.argv) then (.idle, .error (.refused .passwordInArguments))
    else match r.timeout.short with
      | .ok _ => r.finish program (start r.child)
      | .error e => (.idle, .error e)

end Run

private def probe (start : Child → Ending) (argv : List String) : Except Fault Outcome :=
  (Run.perform { argv, timeout := .int 10 } start).2

def isAvailable (start : Child → Ending) (name : String) : Bool :=
  match probe start ["which", name] with
  | .ok o => o.success && !(trim (Bytes.decodeLossy o.stdout)).isEmpty
  | .error _ => false

structure Access where
  available : Bool
  output : Option String := none
  why : Option String := none

def access (start : Child → Ending) : Access :=
  match probe start ["echo", "test"] with
  | .ok o =>
    let output := strip o.stdoutText
    { available := o.success && output == "test", output }
  | .error e => { available := false, why := e.message }

end SqlFerry.Tool
