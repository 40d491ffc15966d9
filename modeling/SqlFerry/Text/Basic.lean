import SqlFerry.Text.Char

/-!
# Cutting and joining text

Texts are read as lists of characters, so that offsets count characters. Trimming and splitting use
the blanks and line ends of `Text.Char`.
-/

namespace SqlFerry.Text

abbrev Chars := List Char

def trimLeft (cs : Chars) : Chars :=
  cs.dropWhile isBlank

def trimRight (cs : Chars) : Chars :=
  (cs.reverse.dropWhile isBlank).reverse

def trim (cs : Chars) : Chars :=
  trimRight (trimLeft cs)

/-- What stands between white space on both sides. -/
def trimSpace (cs : Chars) : Chars :=
  ((cs.dropWhile isWhiteSpace).reverse.dropWhile isWhiteSpace).reverse

def strip (s : String) : String :=
  String.ofList (trim s.toList)

def after? : (p cs : Chars) → Option Chars
  | [], cs => some cs
  | _ :: _, [] => none
  | a :: p, c :: cs => if a == c then after? p cs else none

def startsWith (p cs : Chars) : Bool :=
  (after? p cs).isSome

def endsWith (p cs : Chars) : Bool :=
  startsWith p.reverse cs.reverse

def cut? (sep : Chars) : Chars → Option (Chars × Chars)
  | [] => if sep.isEmpty then some ([], []) else none
  | c :: cs =>
    match after? sep (c :: cs) with
    | some rest => some ([], rest)
    | none => (cut? sep cs).map fun (a, b) => (c :: a, b)

theorem length_after? {p cs rest : Chars} (h : after? p cs = some rest) :
    rest.length + p.length = cs.length := by
  induction p generalizing cs with
  | nil => simp_all [after?]
  | cons a p ih =>
    cases cs with
    | nil => simp [after?] at h
    | cons c cs =>
      simp only [after?] at h
      split at h
      · have := ih h
        simp only [List.length_cons]
        omega
      · cases h

theorem length_cut? {sep cs a b : Chars} (h : cut? sep cs = some (a, b)) :
    a.length + sep.length + b.length = cs.length := by
  induction cs generalizing a b with
  | nil =>
    simp only [cut?] at h
    split at h
    · simp_all
    · cases h
  | cons c cs ih =>
    simp only [cut?] at h
    split at h
    · next rest hr =>
      cases h
      have := length_after? hr
      simp_all
      omega
    · obtain ⟨⟨a', b'⟩, hc, he⟩ := Option.map_eq_some_iff.1 h
      cases he
      have := ih hc
      simp only [List.length_cons]
      omega

theorem startsWith_iff {p cs : Chars} : startsWith p cs = true ↔ p <+: cs := by
  induction p generalizing cs with
  | nil => simp [startsWith, after?]
  | cons a p ih =>
    cases cs with
    | nil => simp [startsWith, after?]
    | cons c cs =>
      by_cases h : a = c
      · simpa [startsWith, after?, h] using ih
      · simp [startsWith, after?, h]

def hasPart (part cs : Chars) : Bool :=
  (cut? part cs).isSome

def contains (s part : String) : Bool :=
  hasPart part.toList s.toList

def find? (part cs : Chars) : Option Nat :=
  (cut? part cs).map fun p => p.1.length

def splitOnFuel (sep : Chars) : Nat → Chars → List Chars
  | 0, cs => [cs]
  | n + 1, cs =>
    match cut? sep cs with
    | some (a, b) => a :: splitOnFuel sep n b
    | none => [cs]

/-- The pieces between the occurrences of a non-empty separator. -/
def splitOn (sep cs : Chars) : List Chars :=
  splitOnFuel sep cs.length cs

def count (part cs : Chars) : Nat :=
  (splitOn part cs).length - 1

def replace (old new cs : Chars) : Chars :=
  new.intercalate (splitOn old cs)

def replaceIn (s old new : String) : String :=
  String.ofList (replace old.toList new.toList s.toList)

def words (cs : Chars) : List Chars :=
  let step (c : Char) (acc : Chars × List Chars) : Chars × List Chars :=
    if isBlank c then ([], if acc.1.isEmpty then acc.2 else acc.1 :: acc.2)
    else (c :: acc.1, acc.2)
  let (run, found) := cs.foldr step ([], [])
  if run.isEmpty then found else run :: found

def oneLine (s : String) : String :=
  " ".intercalate ((words s.toList).map String.ofList)

/-- The lines with the characters that end them; a return followed by a line feed is one end. -/
def linesWithEnds (cs : Chars) : List Chars :=
  let step (c : Char) (acc : Bool × Chars × List Chars) : Bool × Chars × List Chars :=
    let (afterFeed, line, done) := acc
    let close := if line.isEmpty then done else line :: done
    if c == '\r' && afterFeed then (false, c :: line, done)
    else if isLineEnd c then (c == '\n', [c], close)
    else (false, c :: line, done)
  let (_, line, done) := cs.foldr step (false, [], [])
  if line.isEmpty then done else line :: done

private def dropEnd (line : Chars) : Chars :=
  match line.reverse with
  | '\n' :: '\r' :: rest => rest.reverse
  | c :: rest => if isLineEnd c then rest.reverse else line
  | [] => []

def lines (cs : Chars) : List Chars :=
  (linesWithEnds cs).map dropEnd

def joinWith (sep : String) (parts : List String) : String :=
  sep.intercalate parts

def slice (cs : Chars) (start stop : Nat) : Chars :=
  (cs.drop start).take (stop - start)

/-- The first `n` items; a number below zero leaves out as many at the end. -/
def upTo {α : Type} (n : Int) (xs : List α) : List α :=
  if n < 0 then xs.take (xs.length - n.natAbs) else xs.take n.toNat

end SqlFerry.Text
