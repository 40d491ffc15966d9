import SqlFerry.Connection.Percent
import SqlFerry.Fault
import SqlFerry.Files
import SqlFerry.Text.Pattern

/-!
# Connections

Where a database is, as a URL says it. Written again, the URL names the driver, and may hide the
password.
-/

namespace SqlFerry

open Text

structure Connection where
  dialect : Dialect
  host : Option String := none
  port : Option Int := none
  username : Option String := none
  password : Option String := none
  database : Option String := none
  query : List (String × List String) := []
  deriving DecidableEq, Repr

namespace Connection

def driver : Dialect → String
  | .mysql => "mysql+aiomysql"
  | .sqlite => "sqlite+aiosqlite"
  | .postgresql => "postgresql+asyncpg"

def defaultPort : Dialect → Option Int
  | .mysql => some 3306
  | .postgresql => some 5432
  | .sqlite => none

/-! ## Reading -/

/-- The parts of a URL: scheme 1, user 2, password 3, host 4 or in brackets 5, port 6, database 7
and query 8. -/
private def urlPattern : Pattern :=
  open Pattern in
  let user := capture 2 (star (noneOf ":/")) ++
    opt (char ':' ++ capture 3 (star (noneOf "@"))) ++ char '@'
  let host := alt (char '[' ++ capture 5 (plus (noneOf "/?")) ++ char ']')
    (capture 4 (plus (noneOf "/:?")))
  capture 1 (plus (one fun c => isWord c || c == '+')) ++ text "://" ++ opt user ++
    opt (opt host ++ opt (char ':' ++ capture 6 (star (noneOf "/?")))) ++
    opt (char '/' ++ capture 7 (star (noneOf "?"))) ++
    opt (char '?' ++ capture 8 (star (noneOf "\n")))

private def readPort (text : Option String) : Except Fault (Option Int) :=
  match text with
  | none => .ok none
  | some "" => .error (.mistyped "Port argument must be an integer or None")
  | some s => match Value.readWhole s with
    | .ok n => .ok (some n)
    | .error t => .error (.refused (.badUrl (Refusal.ofWhole s t).message))

/-- Reads a URL. An empty password is none, and the port of the dialect stands for none. -/
def ofUrl (url : String) : Except Fault Connection :=
  match urlPattern.match? url.toList with
  | none => .error (.refused (.badUrl "Could not parse SQLAlchemy URL from given URL string"))
  | some m => do
    let part (n : Nat) : Option String := (m.group? n).map String.ofList
    let decoded (n : Nat) : Option String := (part n).map Percent.decode
    let port ← readPort (part 6)
    let scheme := String.ofList ((m.group 1).takeWhile (· != '+'))
    let dialect ← Dialect.named scheme
    return {
      dialect
      host := part 4 <|> part 5
      port := port.filter (· != 0) <|> defaultPort dialect
      username := decoded 2
      password := (decoded 3).filter (!·.isEmpty)
      database := decoded 7
      query := ((part 8).map Percent.decodeQuery).getD [] }

/-! ## Writing -/

variable (c : Connection)

private def userinfo (hide : Bool) : String :=
  match c.username with
  | none => ""
  | some user =>
    let secret := match c.password with
      | some p => ":" ++ if hide then "***" else Percent.encode " +" p
      | none => ""
    Percent.encode " +" user ++ secret ++ "@"

private def address : String :=
  let host := match c.host with
    | some h => if contains h ":" then "[" ++ h ++ "]" else h
    | none => ""
  let port := match c.dialect, c.port with
    | .sqlite, _ | _, none => ""
    | _, some n => s!":{n}"
  host ++ port

private def queryText : String :=
  if c.query.isEmpty then ""
  else
    let fields := c.query.mergeSort fun a b => a.1 ≤ b.1
    "?" ++ "&".intercalate (fields.flatMap fun (k, vs) =>
      vs.map fun v => Percent.encodeQuery k ++ "=" ++ Percent.encodeQuery v)

private def url (hide : Bool) : String :=
  let database := match c.database with
    | some d => "/" ++ Percent.encode " +/" d
    | none => ""
  driver c.dialect ++ "://" ++ userinfo c hide ++ address c ++ database ++ queryText c

def fullUrl : String :=
  c.url false

def displayUrl : String :=
  c.url true

def file? : Option Path :=
  match c.dialect, c.database with
  | .sqlite, some d => if d.isEmpty || d == ":memory:" then none else some (Path.ofText d)
  | _, _ => none

def toValue : Value :=
  let queryValue : List String → Value
    | [v] => v
    | vs => .texts vs
  .record [("dialect", c.dialect.name), ("host", .ofOption .text c.host),
    ("port", .ofOption .int c.port), ("username", .ofOption .text c.username),
    ("password", .ofOption .text c.password), ("database", .ofOption .text c.database),
    ("query", .record (c.query.map fun (k, vs) => (k, queryValue vs))),
    ("sqlite_path", .ofOption (fun p : Path => .text p.toText) c.file?),
    ("async_url", c.fullUrl), ("display_url", c.displayUrl)]

end Connection

end SqlFerry
