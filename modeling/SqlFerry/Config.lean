import SqlFerry.Bytes.Utf8
import SqlFerry.Config.Toml
import SqlFerry.Connection.Percent
import SqlFerry.Files
import SqlFerry.Restore.Options

/-!
# Configuration

Named databases and the settings of backups, as a TOML file has them, and the choice of the
database to work on.
-/

namespace SqlFerry

open Text Value

structure Profile where
  url : String
  description : String := ""
  /-- The password that takes the place of the placeholder in the URL. -/
  password : Option String := none
  dialect : Option String := none
  deriving DecidableEq, Repr

namespace Profile

def ofValue (v : Value) : Checked Profile :=
  Profile.mk <$> v.required "url" readText <*> v.withDefault "description" "" readText <*>
    v.optional "db_password" readText <*> v.optional "dialect" readText

def toValue (p : Profile) : Value :=
  .record [("url", p.url), ("description", p.description),
    ("db_password", .ofOption .text p.password), ("dialect", .ofOption .text p.dialect)]

def placeholder : String :=
  "[YOUR-PASSWORD]"

def resolvedUrl (p : Profile) : String :=
  match p.password with
  | some secret =>
    if secret.isEmpty then p.url else replaceIn p.url placeholder (Percent.encode "" secret)
  | none => p.url

end Profile

structure Settings where
  outputFolder : String := "backups"
  timeout : Float := 1800
  compress : Bool := false
  stopOnError : Bool := false
  screen : Bool := true
  deriving Repr

namespace Settings

def ofValue (v : Value) : Checked Settings :=
  Settings.mk <$> v.withDefault "output_dir" "backups" readText <*>
    v.withDefault "timeout" 1800 readSeconds <*> v.withDefault "compress" false readBool <*>
    v.withDefault "stop_on_error" false readBool <*>
    v.withDefault "validate_statements" true readBool

def toValue (s : Settings) : Value :=
  .record [("output_dir", s.outputFolder), ("timeout", .float s.timeout),
    ("compress", s.compress), ("stop_on_error", s.stopOnError),
    ("validate_statements", s.screen)]

end Settings

structure Config where
  profiles : List (String × Profile) := []
  settings : Settings := {}
  defaultProfile : Option String := none
  deriving Repr

namespace Config

def toValue (c : Config) : Value :=
  .record [("profiles", .record (c.profiles.map fun (k, p) => (k, p.toValue))),
    ("backup", c.settings.toValue), ("default_profile", .ofOption .text c.defaultProfile)]

private def asRecord : Value → Except Fault Value
  | .record fs => .ok (.record fs)
  | _ => .error (.mistyped "a table is needed")

def ofValue (v : Value) : Except Fault Config := do
  let part (k : String) : Value := (v.field? k).getD (.record [])
  let named ← match part "profiles" with
    | .record fs => pure fs
    | _ => throw (.partless "profiles are in a table")
  let profiles ← named.mapM fun (name, p) => do
    return (name, ← (Profile.ofValue (← asRecord p)).toExcept)
  let settings ← (Settings.ofValue (← asRecord (part "backup"))).toExcept
  let defaultProfile ← (v.optional "default_profile" readText).toExcept
  return { profiles, settings, defaultProfile }

def defaultFile : String :=
  "dbporter.toml"

def load (files : Files) (p : Path) (shown : String) : Except Fault Config := do
  if !(← files.has p) then
    throw (.missingFile (s!"dbporter config not found: {shown}\nCopy dbporter.toml.example to " ++
      "dbporter.toml and configure your profiles."))
  match files.read? p with
  | none => throw (.system .isFolder
      s!"{SystemTrouble.isFolder.words}: {Text.shown shown}")
  | some bs =>
    match Bytes.decode bs with
    | .error u => throw (.refused (.other u.message))
    | .ok cs => ofValue (← Toml.read shown cs)

/-! ## Choosing a database -/

def profileVariable : String :=
  "DB_PROFILE"

/-- The name of the profile to use: as the environment says, or else the configuration. -/
def activeProfile (c : Config) (environment : List (String × String)) (variablePrefix : String) :
    Except Fault String :=
  let variableName := variablePrefix ++ profileVariable
  match (environment.lookup variableName).filter (!·.isEmpty),
    c.defaultProfile.filter (!·.isEmpty) with
  | some name, _ => .ok name
  | none, some name => .ok name
  | none, none => .error (.noProfile
      (s!"No database profile configured.\nSet {variableName}=<name>, " ++
        "pass --profile, or pass --url."))

def profile (c : Config) (name : Option String) (environment : List (String × String))
    (variablePrefix : String) : Except Fault (String × Profile) := do
  let name ← match name with
    | some n => pure n
    | none => c.activeProfile environment variablePrefix
  match c.profiles.lookup name with
  | some p => return (name, p)
  | none =>
    let known := ", ".intercalate (c.profiles.map (·.1))
    throw (.noProfile (s!"Profile '{name}' not found in config.\nAvailable profiles: " ++
      if known.isEmpty then "none" else known))

end Config

end SqlFerry
