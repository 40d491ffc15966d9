import SqlFerry.Ddl
import SqlFerry.Splitter.Lines

/-!
# Kinds of splitters

The ways to split a script, by their names.
-/

namespace SqlFerry.Splitter

inductive Kind where
  | scanner
  | lines
  deriving DecidableEq, Repr

namespace Kind

def named (name : String) : Except SqlFerry.Fault Kind :=
  match name with
  | "scanner" => .ok scanner
  | "line" => .ok lines
  | other => .error (.refused (.unknownParser other))

def statements (kind : Kind) (d : Option Dialect) (script : Text.Chars) :
    Except SqlFerry.Fault (List Statement) :=
  match kind with
  | scanner => Ddl.ofSplitting (parse { dialect := d } script).2
  | lines => .ok (Lines.parse d script)

end Kind

end SqlFerry.Splitter
