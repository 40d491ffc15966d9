import SqlFerry.Text.Pattern

/-!
# Hiding secrets

Command lines, environments and messages with a mark in place of their secrets.
-/

namespace SqlFerry.Tool

open Text Pattern

def hidden : String :=
  "[HIDDEN]"

def passwordHidden : String :=
  "[PASSWORD_HIDDEN]"

def assignment : Pattern :=
  capture 1 (word "password" ++ blanks ++ char '=' ++ blanks) ++
    star (one fun c => c != '&' && c != ';' && !isBlank c)

private def schemeChar : Pattern :=
  one fun c => isLetterAnyCase c || isAsciiDigit c || ['+', '.', '-'].contains c

def userinfo : Pattern :=
  capture 1 (edge ++ one isLetterAnyCase ++ star schemeChar ++ text "://" ++
      plus (one fun c => !(c == ':' || c == '/' || c == '@' || isBlank c)) ++ char ':') ++
    star (one fun c => c != '@' && !isBlank c) ++ char '@'

def hide (secret : String) (t : String) : String :=
  if secret.isEmpty then t else replaceIn t secret hidden

def redact (secrets : List String) (t : String) : String :=
  let cs := (secrets.foldl (fun t s => hide s t) t).toList
  let cs := userinfo.replaceAll (fun m => m.group 1 ++ hidden.toList ++ ['@']) cs
  String.ofList (assignment.replaceAll (fun m => m.group 1 ++ hidden.toList) cs)

def isPasswordFlag (arg : String) : Bool :=
  let cs := arg.toList
  startsWith "--password".toList cs ||
    (startsWith ['-', 'p'] cs && !startsWith ['-', '-'] cs && 2 < cs.length)

def redactArguments (secrets : List String) (argv : List String) : List String :=
  argv.map fun arg => if isPasswordFlag arg then passwordHidden else redact secrets arg

private def secretKey : Pattern :=
  choice [word "PASS", word "PWD", word "SECRET", word "TOKEN"]

/-- An environment without the values of variables that seem to be secrets. -/
def redactEnvironment (env : List (String × String)) : List (String × String) :=
  env.map fun (k, v) => (k, if secretKey.occurs k.toList then hidden else v)

def holdsSecret (argv : List String) (secret : String) : Bool :=
  !secret.isEmpty && argv.any (contains · secret)

end SqlFerry.Tool
