import SqlFerry.Schema.TypeName
import SqlFerry.Fault

/-!
# Indexes

An index of a table, by columns or by an expression, and what of it a dialect can express.
-/

namespace SqlFerry

open Text

inductive Index.Kind where
  | primary
  | unique
  | plain
  | fulltext
  | spatial
  deriving DecidableEq, Repr

def Index.Kind.name : Index.Kind → String
  | primary => "primary"
  | unique => "unique"
  | plain => "index"
  | fulltext => "fulltext"
  | spatial => "spatial"

def Index.Kind.all : List Index.Kind :=
  [primary, unique, plain, fulltext, spatial]

inductive Direction where
  | ascending
  | descending
  deriving DecidableEq, Repr

namespace Direction

def name : Direction → String
  | ascending => "ASC"
  | descending => "DESC"

def ofText (s : String) : Except Refusal Direction :=
  match upper s with
  | "ASC" => .ok .ascending
  | "DESC" => .ok .descending
  | other => .error (.badDirection other)

end Direction

/-- One column of an index; `length` is how many of its leading characters count, and all do if it
is zero. -/
structure IndexColumn where
  name : String
  length : Option Int := none
  direction : Option Direction := none
  deriving DecidableEq, Repr

structure Index where
  name : String
  kind : Index.Kind := .plain
  columns : List IndexColumn := []
  expression : Option String := none
  condition : Option String := none
  method : Option String := none
  comment : Option String := none
  /-- The dialect it was read from. -/
  origin : Option Dialect := none
  deriving DecidableEq, Repr

def given : Option String → Bool
  | some s => !s.isEmpty
  | none => false

namespace Index

def columnNames (i : Index) : List String :=
  i.columns.map (·.name)

def isUnique (i : Index) : Bool :=
  i.kind == .primary || i.kind == .unique

def methods : Dialect → List String
  | .postgresql => ["btree", "hash", "gist", "gin", "spgist", "brin"]
  | .mysql => ["btree", "hash"]
  | .sqlite => []

def allowsCondition (target : Dialect) : Bool :=
  target != .mysql

def allowsPrefixLength (target : Dialect) : Bool :=
  target == .mysql

/-- Whether `target` can express the kind of the index. Full-text indexes exist on MySQL and on the
dialect they were read from, spatial ones everywhere but on SQLite. -/
def isSupportedBy (i : Index) (target : Dialect) : Bool :=
  match i.kind with
  | .fulltext => target == .mysql || i.origin == some target
  | .spatial => target != .sqlite
  | _ => true

def hasPrefixLength (i : Index) : Bool :=
  i.columns.any fun c => (c.length.getD 0) != 0

def complaints (i : Index) (target : Dialect) : List String :=
  (if i.isSupportedBy target then [] else
    [upper i.kind.name ++ " indexes are not supported by " ++ target.label]) ++
  (if given i.condition && !allowsCondition target then
    ["Partial index predicate (WHERE) is not supported by " ++ target.label] else []) ++
  (match i.method with
    | some m => if m.isEmpty || (methods target).contains (lower m) then [] else
      [s!"Index method '{m}' is not supported by {target.label}"]
    | none => []) ++
  (if i.hasPrefixLength && !allowsPrefixLength target then
    ["Index prefix lengths are not supported by " ++ target.label] else [])

end Index

end SqlFerry
