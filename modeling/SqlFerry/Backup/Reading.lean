import SqlFerry.Backup.Format
import SqlFerry.Files

/-!
# Reading backup files

The bytes and the text of a backup, through its compression. A file that is missing, empty, damaged
or no text is a failure.
-/

namespace SqlFerry.Backup

open Text Bytes

def contents (files : Files) (p : Path) (operation : String := "restore") : Except Fault Octets :=
  match files.find p with
  | .error e => .error e
  | .ok none => .error (.fail (.fileNotFound p.toText operation))
  | .ok (some []) => .error (.fail (.fileEmpty p.toText))
  | .ok (some bs) => .ok bs

/-- The format of a file; an empty file has none. -/
def formatOf (files : Files) (p : Path) : Except Fault Format :=
  match files.find p with
  | .error e => .error e
  | .ok none => .error (.fail (.fileNotFound p.toText "detect format"))
  | .ok (some bs) => .ok (Format.ofBytes bs)

private def corrupt (p : Path) (reason : String) (because : Option (String × String) := none) :
    Fault :=
  .failure { cause := .fileCorrupt p.toText reason, because }

def bytes (files : Files) (p : Path) : Except Fault Octets := do
  let raw ← contents files p
  if !Gzip.magic.isPrefixOf raw then return raw
  match Gzip.decompress raw with
  | .error e => throw (corrupt p "invalid gzip stream" (e.className, e.message))
  | .ok [] => throw (.fail (.fileEmpty p.toText))
  | .ok plain => return plain

private def byteOrderMark : Octets :=
  [0xEF, 0xBB, 0xBF]

private def withoutMark (bs : Octets) : Octets :=
  if byteOrderMark.isPrefixOf bs then bs.drop byteOrderMark.length else bs

def textOf (p : Path) (raw : Octets) : Except Fault Chars :=
  if Format.sqliteSignature.isPrefixOf raw || Format.pgSignature.isPrefixOf raw then
    .error (corrupt p "binary backup format is not a SQL script")
  else match Bytes.decode (withoutMark raw) with
    | .error u => .error (corrupt p s!"not valid UTF-8 text at byte {u.offset}"
        ("UnicodeDecodeError", u.message))
    | .ok cs =>
      if cs.contains '\x00' then .error (corrupt p "unexpected NUL bytes in SQL text") else .ok cs

def text (files : Files) (p : Path) : Except Fault Chars := do
  textOf p (← bytes files p)

end SqlFerry.Backup
