import SqlFerry.Value

/-!
# Progress

Reports on work under way: how much of it is done, in percent, and what has come of it so far.
-/

namespace SqlFerry

inductive Progress where
  | restoring (percent : Nat) (operation : String) (executed failed : Int)
  | exporting (percent : Nat) (table : String) (tables rows : Nat)
  | copying (percent : Nat) (table : String) (tables rows : Nat)
  deriving DecidableEq, Repr

namespace Progress

def percent : Progress → Nat
  | restoring p .. | exporting p .. | copying p .. => p

def operation : Progress → String
  | restoring _ operation .. => operation
  | exporting _ table .. => "Exported " ++ table
  | copying _ table .. => "Copied " ++ table

def share (done total : Nat) : Nat :=
  if total = 0 then 100 else 100 * done / total

def toValue (p : Progress) : Value :=
  let head : List (String × Value) :=
    [("progress_percent", p.percent), ("current_operation", p.operation)]
  match p with
  | restoring _ _ executed failed =>
    .record (head ++ [("statements_executed", .int executed), ("statements_failed", .int failed)])
  | exporting _ _ tables rows =>
    .record (head ++ [("tables_done", .int tables), ("rows_written", .int rows)])
  | copying _ _ tables rows =>
    .record (head ++ [("tables_done", .int tables), ("rows_copied", .int rows)])

end Progress

end SqlFerry
