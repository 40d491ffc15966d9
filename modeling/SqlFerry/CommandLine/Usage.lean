import SqlFerry.CommandLine.Grammar
import SqlFerry.CommandLine.Help
import SqlFerry.Dialect

/-!
# The commands and their options
-/

namespace SqlFerry.CommandLine

private def flag (name : String) : Opt :=
  { names := [name], kind := .flag }

private def text (name : String) : Opt :=
  { names := [name] }

private def help : Opt :=
  { names := ["--help", "-h"], kind := .help }

private def input : Opt :=
  { names := ["--input", "-i"] }

private def output : Opt :=
  { names := ["--output", "-o"] }

private def timeout : Opt :=
  { names := ["--timeout"], kind := .number }

/-- What may come before the command. -/
def globalGrammar : Grammar :=
  { options := [help, { names := ["--version"], kind := .version }, text "--url", text "--profile",
      text "--config", text "--env-prefix", { names := ["--verbose", "-v"], kind := .flag }]
    exclusive := [("--url", "--profile")], hasCommand := true, helpText := Help.program }

inductive Command where
  | backup
  | restore
  | validate
  | test
  | estimate
  | strategies
  | translate
  | migrate
  deriving DecidableEq, Repr

namespace Command

def all : List Command :=
  [backup, restore, validate, test, estimate, strategies, translate, migrate]

def name : Command → String
  | backup => "backup"
  | restore => "restore"
  | validate => "validate"
  | test => "test"
  | estimate => "estimate"
  | strategies => "strategies"
  | translate => "translate"
  | migrate => "migrate"

def grammar : Command → Grammar
  | backup =>
    { options := [help, output, text "--strategy", flag "--compress", text "--tables",
        text "--exclude-tables", flag "--schema-only", flag "--data-only",
        { names := ["--target-dialect"], kind := .oneOf (Dialect.all.map Dialect.name) }, timeout]
      exclusive := [("--schema-only", "--data-only")], helpText := Help.backup }
  | restore =>
    { options := [help, input, text "--strategy", text "--tables", flag "--no-transaction",
        flag "--stop-on-error", flag "--no-validate", flag "--no-sequences",
        flag "--no-translate", { names := ["--parser"], kind := .oneOf ["scanner", "line"] },
        timeout]
      required := ["--input"], helpText := Help.restore }
  | validate =>
    { options := [help, input], required := ["--input"], helpText := Help.validate }
  | test => { options := [help], helpText := Help.test }
  | estimate => { options := [help, text "--strategy"], helpText := Help.estimate }
  | strategies => { options := [help, text "--dialect"], helpText := Help.strategies }
  | translate =>
    { options := [help, input, text "--from", text "--to", output, flag "--strict"]
      required := ["--input", "--from", "--to"], helpText := Help.translate }
  | migrate =>
    { options := [help, text "--to", text "--tables", text "--exclude-tables",
        flag "--schema-only", flag "--drop-existing", { names := ["--batch-size"], kind := .whole },
        flag "--strict"]
      required := ["--to"], helpText := Help.migrate }

end Command

structure Line where
  globals : Given
  command : Command
  given : Given

def Line.ofWords (words : List String) : Except Stop Line := do
  let (before, rest) ← globalGrammar.read words
  match rest with
  | [] => throw .usage
  | name :: rest =>
    match Command.all.find? (·.name == name) with
    | none => throw .usage
    | some command =>
      let g := command.grammar
      let (r, _) ← g.read rest
      if before.strange || r.strange || g.required.any (!r.given.has ·) then throw .usage
      return { globals := before.given, command, given := r.given }

end SqlFerry.CommandLine
