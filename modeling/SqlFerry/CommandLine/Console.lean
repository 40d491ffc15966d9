import SqlFerry.Fault
import SqlFerry.Text.Pattern

/-!
# What commands show

Lines and tables in a markup that sets styles in brackets. Texts that come from outside are escaped
so that they are not taken for styles.
-/

namespace SqlFerry.CommandLine

open Text

inductive Item where
  | line (markup : String)
  | table (title : String) (columns : List String) (rows : List (List String))
  deriving DecidableEq, Repr

namespace Item

def toValue : Item → Value
  | line markup => markup
  | table title columns rows => .record [("title", title), ("columns", .texts columns),
      ("rows", .list (rows.map Value.texts))]

def facts (title : String) (rows : List (String × String)) : Item :=
  table title ["Key", "Value"] (rows.map fun (k, v) => [k, v])

end Item

private def style : Pattern :=
  open Pattern in
  capture 1 (star (char '\\')) ++
    capture 2 (char '[' ++ one (fun c => ('a' ≤ c && c ≤ 'z') || ['#', '/', '@'].contains c) ++
      few (one (· != '[')) ++ char ']')

/-- The text that markup shows, without its styles: two backslashes before a style stand for one,
and a single one makes it plain text. -/
def plainText (markup : String) : String :=
  String.ofList (style.replaceAll (fun m =>
    let slashes := (m.group 1).length
    List.replicate (slashes / 2) '\\' ++ if slashes % 2 = 1 then m.group 2 else []) markup.toList)

def Item.plain : Item → String
  | line markup => plainText markup
  | table title columns rows =>
    let row (cells : List String) : String := "  " ++ " | ".intercalate (cells.map plainText)
    "\n".intercalate (plainText title :: row columns :: rows.map row)

def escape (text : String) : String :=
  let cs := style.replaceAll (fun m => m.group 1 ++ m.group 1 ++ '\\' :: m.group 2) text.toList
  String.ofList (match cs.reverse with
    | '\\' :: '\\' :: _ => cs
    | '\\' :: _ => cs ++ ['\\']
    | _ => cs)

def commaList (text : Option String) : Option (List String) :=
  let parts := (splitOn [','] (text.getD "").toList).map trim
  match parts.filter (!·.isEmpty) with
  | [] => none
  | parts => some (parts.map String.ofList)

/-- A number in the first unit of which there are less than 1024, or the last one. Only a number of
bytes has no place after the point. -/
private def inUnits (x : Float) : (units : List String) → String
  | [] => Value.fixedText x 1
  | unit :: larger =>
    if x < 1024 || larger.isEmpty then
      Value.fixedText x (if unit == "B" then 0 else 1) ++ " " ++ unit
    else inUnits (x / 1024) larger

/-- A number of bytes in the largest unit that leaves at least one of them. It is refused if no
binary number is near it. -/
def sizeText : Value → Except Fault String
  | .float x => .ok (inUnits x ["B", "KB", "MB", "GB"])
  | .bool b => .ok (if b then "1 B" else "0 B")
  | .int n =>
    let (x, units) :=
      if n < 1024 then (Value.nearestInt n, ["B", "KB", "MB", "GB"])
      else (Value.nearestInt n 1024, ["KB", "MB", "GB"])
    if x.isInf then .error (.boundless "the number is too large") else .ok (inUnits x units)
  | _ => .error (.mistyped "a size is a number")

end SqlFerry.CommandLine
