import SqlFerry.Value.Real

/-!
# Options on command lines

Words that begin with a dash are options, by their full names or by any beginning of a long name
that no other name has. A value follows its option as the next word, after an equals sign, or right
after a short name. Short options without values may share a word.
-/

namespace SqlFerry.CommandLine

open Text

inductive OptionKind where
  | flag
  | text
  | oneOf (choices : List String)
  | number
  | whole
  | version
  | help
  deriving DecidableEq, Repr

/-- An option: its names with their dashes, the first of which stands for it. -/
structure Opt where
  names : List String
  kind : OptionKind := .text
  deriving DecidableEq, Repr

namespace Opt

def key (o : Opt) : String :=
  o.names.headD ""

def takesValue (o : Opt) : Bool :=
  match o.kind with
  | .flag | .version | .help => false
  | .text | .oneOf _ | .number | .whole => true

end Opt

inductive Stop where
  | usage
  | version
  | help (text : String)
  deriving DecidableEq, Repr

abbrev Given := List (String × String)

namespace Given

def has (g : Given) (key : String) : Bool :=
  g.any (·.1 == key)

def text? (g : Given) (key : String) : Option String :=
  g.lookup key

def filled? (g : Given) (key : String) : Option String :=
  (g.lookup key).filter (!·.isEmpty)

end Given

/-- The options that may be given; `hasCommand` says that a command follows them. -/
structure Grammar where
  options : List Opt
  required : List String := []
  /-- Pairs of options that exclude each other. -/
  exclusive : List (String × String) := []
  hasCommand : Bool := false
  /-- What is said when help is asked for. -/
  helpText : String

namespace Grammar

variable (g : Grammar)

def named? (name : String) : Option Opt :=
  g.options.find? (·.names.contains name)

/-- What a word is. Other options may come after an option in the same word, unless it is alone. -/
inductive Word where
  | plain
  | option (o : Opt) (isAlone : Bool) (value : Option String)
  | unknown

/-- A minus sign, digits, and perhaps a point among them or before them; a line end may follow. -/
private def isNegativeNumber (cs : Chars) : Bool :=
  match if cs.getLast? == some '\n' then cs.dropLast else cs with
  | '-' :: ds => match splitOn ['.'] ds with
    | [a] => !a.isEmpty && a.all isDecimal
    | [a, b] => a.all isDecimal && !b.isEmpty && b.all isDecimal
    | _ => false
  | _ => false

private def candidates (cs : Chars) : List Word :=
  if startsWith ['-', '-'] cs then
    let (name, value) := match cut? ['='] cs with
      | some (name, value) => (name, some (String.ofList value))
      | none => (cs, none)
    g.options.flatMap fun o =>
      (o.names.filter fun n => startsWith name n.toList).map fun _ => .option o true value
  else match g.named? (String.ofList (cs.take 2)) with
    | some o => [.option o false (String.ofList (cs.drop 2))]
    | none => []

def classify (w : String) : Except Stop Word :=
  let cs := w.toList
  if cs.head? != some '-' || w == "-" then .ok .plain
  else match g.named? w, (cut? ['='] cs).bind fun (n, v) =>
      (g.named? (String.ofList n)).map fun o => (o, String.ofList v) with
    | some o, _ => .ok (.option o true none)
    | none, some (o, v) => .ok (.option o true v)
    | none, none => match g.candidates cs with
      | [word] => .ok word
      | _ :: _ :: _ => .error .usage
      | [] => .ok (if isNegativeNumber cs || cs.contains ' ' then .plain else .unknown)

structure Found where
  options : List (Opt × Option String)
  /-- Whether something comes after them that means nothing. -/
  strange : Bool := false

/-- The options of a word of short ones. A value may come after an equals sign. -/
def shortOptions : Opt → Chars → Except Stop Found
  | o, [] => .ok { options := [(o, none)] }
  | o, c :: cs =>
    if o.takesValue then
      .ok { options := [(o, some (String.ofList (if c == '=' then cs else c :: cs)))] }
    else if c == '=' || c == '-' then .error .usage
    else match g.named? (String.ofList ['-', c]) with
      | some next => do
        let found ← shortOptions next cs
        return { found with options := (o, none) :: found.options }
      | none => .ok { options := [(o, none)], strange := true }

def optionsOf (o : Opt) (isAlone : Bool) (value : Option String) : Except Stop Found :=
  match value with
  | none => .ok { options := [(o, none)] }
  | some v =>
    if o.takesValue then .ok { options := [(o, some v)] }
    else if isAlone || v.isEmpty then .error .usage
    else g.shortOptions o v.toList

private def isFit (kind : OptionKind) (value : String) : Bool :=
  match kind with
  | .oneOf choices => choices.contains value
  | .number => (Value.floatOf? value).isSome
  | .whole => (Value.readWhole value).isOk
  | _ => true

/-- Takes an option down, if it fits and nothing before excludes it. -/
def accept (given : Given) (o : Opt) (value : String) : Except Stop Given :=
  let excluded := g.exclusive.any fun (a, b) =>
    (o.key == a && given.has b) || (o.key == b && given.has a)
  match o.kind with
  | .version => .error .version
  | .help => .error (.help g.helpText)
  | kind => if isFit kind value && !excluded then .ok ((o.key, value) :: given) else .error .usage

private def acceptAll (given : Given) : List (Opt × Option String) → Except Stop Given
  | [] => .ok given
  | (o, value) :: rest => do acceptAll (← g.accept given o (value.getD "")) rest

structure Reading where
  given : Given := []
  strange : Bool := false

private def nextValue (rest : List String) : Except Stop (String × List String) :=
  match rest with
  | v :: rest => do
    match ← g.classify v with
    | .plain => if v == "--" then throw .usage else return (v, rest)
    | _ => throw .usage
  | [] => .error .usage

private theorem nextValue_length {rest : List String} {v : String} {more : List String}
    (h : g.nextValue rest = .ok (v, more)) : more.length < rest.length := by
  unfold nextValue at h
  cases rest with
  | nil => simp at h
  | cons w ws =>
    simp only [bind, Except.bind] at h
    split at h
    · simp at h
    · split at h
      · split at h
        · simp [throw, throwThe, MonadExceptOf.throw] at h
        · simp only [pure, Except.pure, Except.ok.injEq, Prod.mk.injEq] at h
          obtain ⟨-, rfl⟩ := h
          simp
      · simp [throw, throwThe, MonadExceptOf.throw] at h

def readWords (r : Reading) (words : List String) : Except Stop (Reading × List String) :=
  match words with
  | [] => .ok (r, [])
  | w :: rest =>
    if w == "--" then .error .usage
    else match g.classify w with
      | .error e => .error e
      | .ok .plain =>
        if g.hasCommand then .ok (r, w :: rest) else readWords { r with strange := true } rest
      | .ok .unknown => readWords { r with strange := true } rest
      | .ok (.option o isAlone value) =>
        match g.optionsOf o isAlone value with
        | .error e => .error e
        | .ok { options := found, strange } =>
          let r := { r with strange := r.strange || strange }
          let lacking := match found.getLast? with
            | some (last, none) => last.takesValue
            | _ => false
          if lacking then
            match h : g.nextValue rest with
            | .error e => .error e
            | .ok (v, more) =>
              have := g.nextValue_length h
              let found := found.dropLast ++ (found.getLast?.map fun (o, _) => (o, some v)).toList
              match g.acceptAll r.given found with
              | .error e => .error e
              | .ok given => readWords { r with given } more
          else match g.acceptAll r.given found with
            | .error e => .error e
            | .ok given => readWords { r with given } rest
termination_by words.length

/-- Reads options as `readWords` does, if all words make sense by themselves. -/
def read (words : List String) : Except Stop (Reading × List String) := do
  let _ ← (words.takeWhile (· != "--")).mapM g.classify
  g.readWords {} words

end Grammar

end SqlFerry.CommandLine
