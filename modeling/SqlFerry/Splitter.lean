import SqlFerry.Splitter.Step

/-!
# Splitting scripts into statements

A splitter reads a script in chunks and returns the statements that each chunk completes. It takes
tokens off the characters at hand and holds back what later characters have to decide, so that the
statements do not depend on where the chunks were cut. A failed call leaves a fresh splitter.
-/

namespace SqlFerry.Splitter

open Text

def received (s : Splitter) (n : Nat) : Splitter :=
  { s with statistics := { s.statistics with characters := s.statistics.characters + n } }

def advance (s : Splitter) (taken : Chars) : Splitter :=
  { s with offset := s.offset + taken.length, line := s.line + taken.count '\n' }

def drain (o : Options) (base : Nat) (final : Bool) :
    (fuel : Nat) → Splitter → (held : Chars) → List Statement →
      Except Fault (Splitter × List Statement)
  | 0, s, held, done => .ok ({ s with held }, done)
  | _ + 1, s, [], done => .ok ({ s with held := [] }, done)
  | n + 1, s, c :: rest, done => do
    match ← step o base final s c rest with
    | .hold => return ({ s with held := c :: rest }, done)
    | .take extra s more =>
      drain o base final n (s.advance (c :: rest.take extra)) (rest.drop extra)
        (more.toList ++ done)

/-- Takes tokens off `held` until a step waits. The statements found come before those in `done`,
the latest first. -/
def scan (o : Options) (base : Nat) (final : Bool) (s : Splitter) (held : Chars)
    (done : List Statement) : Except Fault (Splitter × List Statement) :=
  drain o base final held.length s held done

def push (o : Options) (s : Splitter) (chunk : Chars) :
    Except Fault (Splitter × List Statement) :=
  scan o s.offset false (s.received chunk.length) (s.held ++ chunk) []

/-- The characters that `s` has not decided end the script: they are decided as they stand, and what
remains is the last statement. -/
def close (o : Options) (s : Splitter) : Except Fault (Splitter × List Statement) := do
  let (s, done) ← scan o s.offset true s s.held []
  match s.mode with
  | .normal | .lineComment =>
    let (s, last) := s.emit none
    return ({ statistics := s.statistics }, last.toList ++ done)
  | mode => .error (.unterminated mode s.openOffset s.openLine)

def outcome : Except Fault (Splitter × List Statement) →
    Splitter × Except Fault (List Statement)
  | .ok (s, done) => (s, .ok done.reverse)
  | .error e => ({}, .error e)

def reset (_ : Splitter) : Splitter :=
  {}

def feed (o : Options) (s : Splitter) (chunk : Chars) :
    Splitter × Except Fault (List Statement) :=
  outcome (push o s chunk)

/-- Ends the script and returns the statement that was under way. The statistics stay, all else is
as in a fresh splitter. -/
def finish (o : Options) (s : Splitter) : Splitter × Except Fault (List Statement) :=
  outcome (close o s)

def stream (o : Options) (s : Splitter) : (chunks : List Chars) →
    Splitter × Except Fault (List Statement)
  | [] => finish o s
  | chunk :: rest =>
    match feed o s chunk with
    | (s, .error e) => (s, .error e)
    | (s, .ok found) =>
      let (s, more) := stream o s rest
      (s, more.map (found ++ ·))

def parse (o : Options) (script : Chars) : Splitter × Except Fault (List Statement) :=
  match feed o {} script with
  | (s, .error e) => (s, .error e)
  | (s, .ok found) =>
    match finish o s with
    | (s, .ok last) => (s, .ok (found ++ last))
    | (s, .error e) => (s, .error e)

def statements (dialect : Option Dialect) (script : String) : Except Fault (List Statement) :=
  (parse { dialect } script.toList).2

section Scan

variable {o : Options} {base : Nat} {final : Bool} {s : Splitter} {held rest : Chars} {c : Char}
  {done : List Statement}

/-- As many steps as there are characters are enough. -/
theorem drain_congr {n m : Nat} (hn : held.length ≤ n) (hm : held.length ≤ m) :
    drain o base final n s held done = drain o base final m s held done := by
  induction n generalizing m s held done with
  | zero =>
    cases List.length_eq_zero_iff.1 (Nat.le_zero.1 hn)
    cases m <;> rfl
  | succ n ih =>
    cases held with
    | nil => cases m <;> rfl
    | cons c rest =>
      cases m with
      | zero => simp at hm
      | succ m =>
        simp only [List.length_cons] at hn hm
        simp only [drain]
        congr 1
        funext move
        cases move with
        | hold => rfl
        | take extra s more =>
          apply ih
          · simp only [List.length_drop]
            omega
          · simp only [List.length_drop]
            omega

@[simp]
theorem scan_nil : scan o base final s [] done = .ok ({ s with held := [] }, done) := rfl

theorem scan_cons : scan o base final s (c :: rest) done = (do
    match ← step o base final s c rest with
    | .hold => return ({ s with held := c :: rest }, done)
    | .take extra s more =>
      scan o base final (s.advance (c :: rest.take extra)) (rest.drop extra)
        (more.toList ++ done)) := by
  unfold scan
  rw [List.length_cons, drain]
  congr 1
  funext move
  cases move with
  | hold => rfl
  | take extra s more =>
    apply drain_congr
    · simp only [List.length_drop]
      omega
    · exact Nat.le_refl _

end Scan

end SqlFerry.Splitter
