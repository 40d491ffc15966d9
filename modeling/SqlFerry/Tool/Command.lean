import SqlFerry.Bytes.Utf8
import SqlFerry.Tool.Redaction
import SqlFerry.Value

/-!
# Commands

A program with its arguments, what it is given, and what comes of running it.
-/

namespace SqlFerry.Tool

open Text

/-- A password, and the environment variable in which it reaches the program. Without one the
program reads it as the first line of its input. -/
structure Credentials where
  password : String
  variableName : Option String := none
  deriving DecidableEq, Repr

def Credentials.display (c : Credentials) : String :=
  "Credentials(password='***', env_var=" ++ (c.variableName.map shown).getD "None" ++ ")"

structure Command where
  argv : List String
  credentials : Option Credentials := none
  input : Option String := none
  /-- How many seconds it may run. -/
  timeout : Value

namespace Command

def toValue (c : Command) : Value :=
  .record [("argv", .texts c.argv),
    ("password", .ofOption .text (c.credentials.map (·.password))),
    ("env_var", .ofOption .text (c.credentials.bind (·.variableName))),
    ("stdin", .ofOption .text c.input), ("timeout", c.timeout)]

private def isPlain (c : Char) : Bool :=
  isAsciiLetter c || isAsciiDigit c || "_@%+=:,./-".toList.contains c

private def quoted (arg : String) : String :=
  if arg.isEmpty then "''"
  else if arg.toList.all isPlain then arg
  else
    let quote := "'"
    quote ++ replaceIn arg quote "'\"'\"'" ++ quote

def display (argv : List String) : String :=
  " ".intercalate (argv.map quoted)

end Command

inductive State where
  | idle
  | starting
  | running
  | completed
  | timedOut
  | spawnFailed
  deriving DecidableEq, Repr

namespace State

def name : State → String
  | idle => "idle"
  | starting => "starting"
  | running => "running"
  | completed => "completed"
  | timedOut => "timed_out"
  | spawnFailed => "spawn_failed"

def ofName? (s : String) : Option State :=
  [idle, starting, running, completed, timedOut, spawnFailed].find? (·.name == s)

end State

structure Outcome where
  command : List String := []
  code : Option Int
  stdout : Bytes.Octets := []
  stderr : Bytes.Octets := []
  state : State := .completed
  deriving Repr

namespace Outcome

variable (o : Outcome)

def success : Bool :=
  o.state == .completed && o.code == some 0

def stdoutText : String :=
  String.ofList (Bytes.decodeLossy o.stdout)

def stderrText : String :=
  String.ofList (Bytes.decodeLossy o.stderr)

def tail (n : Nat) (s : String) : String :=
  let cs := s.toList
  String.ofList (cs.drop (cs.length - n))

def toValue : Value :=
  .record [("command", .texts o.command), ("return_code", .ofOption .int o.code),
    ("state", o.state.name), ("stdout_bytes", .int o.stdout.length),
    ("stderr", tail 2000 o.stderrText)]

end Outcome

end SqlFerry.Tool
