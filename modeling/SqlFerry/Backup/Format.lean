import SqlFerry.Restore.Header
import SqlFerry.Bytes.Gzip
import SqlFerry.Text.Pattern

/-!
# Formats of backup files

Binary formats are known by their first bytes. A text is SQL of the dialect that its header names,
else of the one whose marks it bears most of.
-/

namespace SqlFerry.Backup

open Text Bytes

inductive FormatKind where
  | sqliteImage
  | pgCustom
  | pgTar
  | sql (d : Dialect)
  | genericSql
  | unknown
  deriving DecidableEq, Repr

namespace FormatKind

def name : FormatKind → String
  | sqliteImage => "sqlite_binary"
  | pgCustom => "postgresql_custom"
  | pgTar => "postgresql_tar"
  | sql d => d.name ++ "_sql"
  | genericSql => "generic_sql"
  | unknown => "unknown"

def dialect : FormatKind → Option Dialect
  | sqliteImage => some .sqlite
  | pgCustom | pgTar => some .postgresql
  | sql d => some d
  | genericSql | unknown => none

def isSql : FormatKind → Bool
  | sql _ | genericSql => true
  | _ => false

end FormatKind

structure Format where
  kind : FormatKind
  compressed : Bool := false
  deriving DecidableEq, Repr

namespace Format

def toValue (f : Format) : Value :=
  .record [("format", f.kind.name),
    ("dialect", .ofOption .text (f.kind.dialect.map Dialect.name)), ("compressed", f.compressed),
    ("is_sql", f.kind.isSql)]

def marks : Dialect → List (String × Nat)
  | .mysql => [("-- mysql dump", 5), ("-- mariadb dump", 5), ("mysqldump", 3), ("/*!40", 3),
      ("engine=innodb", 3), ("engine=", 1), ("lock tables", 2), ("auto_increment", 2),
      ("set names", 1), ("\x60", 1)]
  | .postgresql => [("-- postgresql database dump", 5), ("pg_dump", 3), ("pg_catalog", 2),
      ("set client_encoding", 2), ("set search_path", 2), ("set standard_conforming_strings", 2),
      ("setval(", 2), ("owner to", 2), ("::regclass", 2), ("serial", 1)]
  | .sqlite => [("sqlite_sequence", 3), ("pragma foreign_keys", 3), ("pragma", 1),
      ("autoincrement", 2), ("begin transaction", 1)]

def score (sample : Chars) (d : Dialect) : Nat :=
  (marks d).foldl (fun n (m, w) => if hasPart m.toList sample then n + w else n) 0

/-- The dialect with the most weight in the first lines, if one has more than each other. -/
def guess (text : Chars) (maxLines : Int := 40) : Option Dialect :=
  let sample := (lower (String.ofList (['\n'].intercalate (upTo maxLines (lines text))))).toList
  let scores := Dialect.all.map fun d => (d, score sample d)
  let best := (scores.map (·.2)).foldl max 0
  if best = 0 then none
  else match scores.filter (·.2 == best) with
    | [(d, _)] => some d
    | _ => none

private def keyword : Pattern :=
  open Pattern in
  lineStart ++ blanks ++
    choice (["CREATE", "INSERT", "DROP", "ALTER", "SELECT", "SET", "BEGIN", "COMMIT", "UPDATE",
      "DELETE", "REPLACE", "COPY"].map word) ++ edge

def sqliteSignature : Octets :=
  encode "SQLite format 3\x00"

def pgSignature : Octets :=
  encode "PGDMP"

private def tarMagic : Octets :=
  encode "ustar"

def ofText (text : Chars) : FormatKind :=
  match (Restore.Header.ofText? text).bind (·.dialect), guess text with
  | some d, _ => .sql d
  | none, some d => .sql d
  | none, none => if keyword.occurs text then .genericSql else .unknown

def ofHead (head : Octets) : FormatKind :=
  if sqliteSignature.isPrefixOf head then .sqliteImage
  else if pgSignature.isPrefixOf head then .pgCustom
  else if (head.drop 257).take 5 == tarMagic then .pgTar
  else if head.contains 0 then .unknown
  else ofText ((decodeLossy head).dropWhile (· == '\ufeff'))

def headLength : Nat :=
  Gzip.block

def ofBytes (bs : Octets) : Format :=
  if Gzip.magic.isPrefixOf bs then
    match Gzip.head bs with
    | .ok head => ⟨ofHead head, true⟩
    | .error _ => ⟨.unknown, true⟩
  else ⟨ofHead (bs.take headLength), false⟩

end Format

end SqlFerry.Backup
