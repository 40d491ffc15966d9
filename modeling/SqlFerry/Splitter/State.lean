import SqlFerry.Statement
import SqlFerry.Dialect

/-!
# The state of a splitter

What a splitter knows between two characters: the lexical mode it is in, the statement it is
building, the delimiter in force, and the characters it holds back until later ones decide them.
-/

namespace SqlFerry

open Text

namespace Splitter

structure SizeLimit where
  bound : Option Int
  text : String
  deriving DecidableEq, Repr

namespace SizeLimit

def ofInt (n : Int) : SizeLimit :=
  ⟨some n, toString n⟩

def isExceededBy (l : SizeLimit) (n : Nat) : Bool :=
  l.bound.any (· < (n : Int))

end SizeLimit

/-- How to split: a dialect, or none for a permissive mix of all; whether comments stay in the
statements; and how many characters a statement may have. -/
structure Options where
  dialect : Option Dialect
  keepComments : Bool := false
  maxSize : SizeLimit := .ofInt (100 * 1024 * 1024)
  deriving DecidableEq, Repr

namespace Options

variable (o : Options)

def isMysql : Bool := o.dialect == some .mysql
def isGeneric : Bool := o.dialect.isNone
def backticks : Bool := o.dialect != some .postgresql
def brackets : Bool := o.dialect == some .sqlite
def dollarQuotes : Bool := o.isGeneric || o.dialect == some .postgresql
def hashComments : Bool := o.isMysql
def delimiterDirective : Bool := o.isGeneric || o.isMysql
def executableComments : Bool := o.isGeneric || o.isMysql

end Options

inductive Mark where
  | single
  | double
  | backtick
  | bracket
  deriving DecidableEq, Repr

def Mark.closing : Mark → Char
  | single => '\''
  | double => '"'
  | backtick => '`'
  | bracket => ']'

inductive Mode where
  | normal
  /-- Inside quotes; with `escapes` a backslash protects the character after it. -/
  | quoted (mark : Mark) (escapes : Bool)
  | lineComment
  /-- Inside a block comment, which stays in the statement if `kept`. -/
  | blockComment (kept : Bool)
  | dollarQuoted (tag : Chars)
  deriving DecidableEq, Repr

structure Draft where
  /-- The text so far, the last character first. -/
  out : Chars := []
  /-- How many characters count towards the limit. -/
  size : Nat := 0
  start : Option Nat := none
  line : Nat := 1
  trailingSpace : Bool := true
  afterComment : Bool := false
  /-- The words of the header in upper case, the last first. -/
  header : List String := []
  /-- Whether a `BEGIN` opens a block here, once the header tells. -/
  compound : Option Bool := none
  depth : Nat := 0
  /-- An `END` whose meaning the next word or delimiter decides. -/
  pendingEnd : Bool := false
  routine : Bool := false
  lastWord : Chars := []
  /-- The offset after the last word. -/
  lastWordEnd : Option Nat := none
  deriving DecidableEq, Repr

structure Statistics where
  statements : Nat := 0
  characters : Nat := 0
  commentsRemoved : Nat := 0
  delimiterChanges : Nat := 0
  routineBodies : Nat := 0
  deriving DecidableEq, Repr

end Splitter

structure Splitter where
  mode : Splitter.Mode := .normal
  draft : Splitter.Draft := {}
  delimiter : Chars := [';']
  /-- The characters not yet decided. -/
  held : Chars := []
  /-- The offset of the first character held. -/
  offset : Nat := 0
  line : Nat := 1
  index : Nat := 0
  /-- Where the quote or comment was opened that the mode is in. -/
  openOffset : Nat := 0
  openLine : Nat := 1
  statistics : Splitter.Statistics := {}
  deriving DecidableEq, Repr

end SqlFerry
