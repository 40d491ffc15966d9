import SqlFerry.Proofs.Splitter.Final
import SqlFerry.Proofs.Splitter.Reading

/-!
# Why a script cannot be split

What makes a script fail is found by scanning it once to its end. However the script is cut into
chunks, the call that comes upon it reports the same fault, but for the offset of a statement that
begins the script and is too long: that is given as the place where the call began to read.
-/

namespace SqlFerry.Splitter

open Text

variable {o : Options} {base : Nat} {s t next : Splitter} {c : Char} {cs rest more held : Chars}
  {done found : List Statement} {e : Fault}

/-- A fault as it is reported by a call that began to read at `base`. -/
def Fault.seenFrom (base : Nat) : Fault → Fault
  | oversized limit offset line => oversized limit (if offset = 0 then base else offset) line
  | unterminated mode offset line => unterminated mode offset line

def unclosed? (s : Splitter) : Option Fault :=
  match s.mode with
  | .normal | .lineComment => none
  | mode => some (.unterminated mode s.openOffset s.openLine)

def flaw? : Except Fault (Splitter × List Statement) → Option Fault
  | .error e => some e
  | .ok (t, _) => t.unclosed?

def culprit? (o : Options) (s : Splitter) (held : Chars) : Option Fault :=
  flaw? (scan o 0 true s held [])

def fault? (a : Splitter × Except Fault (List Statement)) : Option Fault :=
  match a.2 with
  | .error e => some e
  | .ok _ => none

def lastFrom (o : Options) (s : Splitter) : (chunks : List Chars) → Nat
  | [] => s.offset
  | chunk :: rest =>
    match push o s chunk with
    | .error _ => s.offset
    | .ok (t, _) => lastFrom o t rest

theorem fault?_eq_some {a : Splitter × Except Fault (List Statement)} :
    fault? a = some e ↔ a.2 = .error e := by
  unfold fault?
  cases a.2 <;> simp

/-! ## Where the text at hand begins -/

theorem overflow_seenFrom (o : Options) (base : Nat) (s : Splitter) :
    (s.overflow o 0).seenFrom base = s.overflow o base := by
  unfold overflow Fault.seenFrom
  dsimp only
  congr 1
  generalize Option.getD _ 0 = n
  cases n <;> rfl

def retagMove (base : Nat) (held : Chars) (n : Nat) : Except Fault Move → Except Fault Move
  | .error e => .error (e.seenFrom base)
  | .ok .hold => .ok .hold
  | .ok (.take extra next more) => .ok (.take extra (next.retag held n) more)

theorem Token.act_retag (o : Options) (base : Nat) (s : Splitter) (held : Chars) (n : Nat)
    (c : Char) (rest : Chars) (t : Token) :
    t.act o base (s.retag held n) c rest = retagMove base held n (t.act o 0 s c rest) := by
  unfold Token.act
  rw [show setsDelimiter o (s.retag held n) c t = setsDelimiter o s c t from rfl,
    show (s.retag held n).draft.size = s.draft.size from rfl,
    show (s.retag held n).overflow o base = s.overflow o base from rfl]
  split
  · unfold delimiterLine
    simp only [Bool.not_true, Bool.and_false, Bool.false_eq_true, if_false]
    cases words (((c :: rest).takeWhile (· != '\n')).drop "DELIMITER".length) <;> rfl
  · split
    · rw [retagMove, overflow_seenFrom]
    · cases t <;> rfl

/-- Where the text at hand begins, what is held back and how many characters were counted changes
nothing in a step but the fault. -/
theorem step_retag (hk : o.keepComments = false) (base : Nat) (s : Splitter) (held : Chars)
    (n : Nat) (c : Char) (rest : Chars) :
    step o base true (s.retag held n) c rest = retagMove base held n (step o 0 true s c rest) := by
  by_cases hmode : s.mode = .normal
  · have hplace : (s.retag held n).atPlace c rest = (s.atPlace c rest).retag held n := rfl
    rw [step_outside hk hmode, step_outside (s := s.retag held n) hk hmode]
    dsimp only
    rw [hplace, emit_retag, Token.act_retag,
      show (s.retag held n).settled c rest = s.settled c rest from rfl]
    split <;> rfl
  · rw [step_inside hk hmode, step_inside (s := s.retag held n) hk hmode]
    unfold actPiece
    rw [show (s.retag held n).draft.size = s.draft.size from rfl,
      show (s.retag held n).mode = s.mode from rfl,
      show (s.retag held n).overflow o base = s.overflow o base from rfl]
    split
    · rw [retagMove, overflow_seenFrom]
    · rfl

theorem scan_retag (hk : o.keepComments = false) (base : Nat) (s : Splitter) (held : Chars)
    (n : Nat) (cs : Chars) (done : List Statement) :
    scan o base true (s.retag held n) cs done = match scan o 0 true s cs done with
      | .error e => .error (e.seenFrom base)
      | .ok (t, found) => .ok (t.retag [] n, found) := by
  apply scan_induction (motive := fun s cs done r =>
    scan o base true (s.retag held n) cs done = match r with
      | .error e => .error (e.seenFrom base)
      | .ok (t, found) => .ok (t.retag [] n, found))
  case nil =>
    intro s done
    rfl
  case error =>
    intro s c rest done e hs
    rw [scan_cons, step_retag hk, hs]
    rfl
  case hold =>
    intro s c rest done hs
    rcases step_eq_take_or_overflow hk 0 s c rest with ⟨extra, next, more, h⟩ | ⟨-, h⟩
    · cases hs.symm.trans h
    · cases hs.symm.trans h
  case take =>
    intro s c rest done extra next more hs ih
    rw [scan_cons, step_retag hk, hs]
    exact ih

theorem culprit?_retag (hk : o.keepComments = false) (s : Splitter) (held : Chars) (n : Nat)
    (cs : Chars) : culprit? o (s.retag held n) cs = culprit? o s cs := by
  have hseen (e : Fault) : e.seenFrom 0 = e := by
    cases e with
    | unterminated mode offset line => rfl
    | oversized limit offset line => cases offset <;> rfl
  unfold culprit?
  rw [scan_retag hk]
  cases scan o 0 true s cs [] with
  | error e => exact congrArg some (hseen e)
  | ok r => rfl

/-! ## More characters -/

theorem eq_overflow_of_step (hk : o.keepComments = false)
    (h : step o base true s c rest = .error e) : e = s.overflow o base := by
  rcases step_eq_take_or_overflow hk base s c rest with ⟨extra, next, more, htake⟩ | ⟨-, hover⟩
  · cases h.symm.trans htake
  · cases h.symm.trans hover
    rfl

theorem step_error_append (hk : o.keepComments = false)
    (h : step o base false s c rest = .error e) (more : Chars) :
    step o base true s c (rest ++ more) = .error e := by
  have he : e = s.overflow o base := by
    rcases step_final o base s c rest with hhold | heq
    · cases h.symm.trans hhold
    · exact eq_overflow_of_step hk (heq.trans h)
  have hext := step_extends o base base s s.held 0 c rest more
  rw [h, show s.retag s.held 0 = s from rfl] at hext
  generalize hr : step o base false s c (rest ++ more) = r at hext
  cases hext with
  | error _ e' =>
    rcases step_final o base s c (rest ++ more) with hhold | heq
    · cases hr.symm.trans hhold
    · rw [heq, hr, he, eq_overflow_of_step hk (heq.trans hr)]

theorem step_take_append {extra : Nat} {st : Option Statement}
    (h : step o base false s c rest = .ok (.take extra next st)) (more : Chars) :
    extra ≤ rest.length ∧ step o base true s c (rest ++ more) = .ok (.take extra next st) := by
  have hext := step_extends o base base s s.held 0 c rest more
  rw [h, show s.retag s.held 0 = s from rfl] at hext
  have hheld : next.retag s.held 0 = next := by rw [← held_of_step h]; rfl
  generalize hr : step o base false s c (rest ++ more) = r at hext
  cases hext with
  | take _ _ _ hl =>
    refine ⟨hl, ?_⟩
    rcases step_final o base s c (rest ++ more) with hhold | heq
    · cases hr.symm.trans hhold
    · rw [heq, hr, hheld]

/-- A scan that ends the script goes on where the scan that expected more waits, and fails where
that one fails. -/
theorem scan_append_final (hk : o.keepComments = false) (base : Nat) (s : Splitter)
    (held more : Chars) (done : List Statement) : scan o base true s (held ++ more) done =
      (scan o base false s held done).bind fun r =>
        scan o base true { r.1 with held := s.held } (r.1.held ++ more) r.2 := by
  suffices h : ∀ before, s.held = before → scan o base true s (held ++ more) done =
      (scan o base false s held done).bind fun r =>
        scan o base true { r.1 with held := before } (r.1.held ++ more) r.2 from h _ rfl
  intro before
  apply scan_induction (motive := fun s held done r => s.held = before →
    scan o base true s (held ++ more) done = r.bind fun r =>
      scan o base true { r.1 with held := before } (r.1.held ++ more) r.2)
  case nil =>
    rintro s done rfl
    rfl
  case error =>
    intro s c rest done e hs _
    rw [List.cons_append, scan_cons, step_error_append hk hs]
    rfl
  case hold =>
    rintro s c rest done _ rfl
    rfl
  case take =>
    intro s c rest done extra next st hs ih hb
    obtain ⟨hl, htake⟩ := step_take_append hs more
    rw [List.cons_append, scan_cons, htake]
    simp only [bind, Except.bind]
    rw [List.take_append_of_le_length hl, List.drop_append_of_le_length hl]
    exact ih ((held_of_step hs).trans hb)

/-! ## Calls -/

theorem culprit?_done (o : Options) (s : Splitter) (held : Chars) (done : List Statement) :
    flaw? (scan o 0 true s held done) = culprit? o s held := by
  rw [culprit?, ← List.nil_append done, scan_done]
  cases scan o 0 true s held [] <;> rfl

theorem fault?_finish (hk : o.keepComments = false) (s : Splitter) :
    fault? (finish o s) = (culprit? o s s.held).map (·.seenFrom s.offset) := by
  have hscan := scan_retag hk s.offset s s.held 0 s.held []
  rw [show s.retag s.held 0 = s from rfl] at hscan
  rw [finish, close, hscan, culprit?]
  cases scan o 0 true s s.held [] with
  | error e => rfl
  | ok r =>
    obtain ⟨t, last⟩ := r
    have hmode : (t.retag [] 0).mode = t.mode := rfl
    cases ht : t.mode <;> simp only [bind, Except.bind, hmode, ht, flaw?, unclosed?] <;> rfl

/-- A chunk that is read leaves what is wrong with the script to be found. -/
theorem culprit?_of_push (hk : o.keepComments = false) {chunk : Chars}
    (h : push o s chunk = .ok (t, found)) (more : Chars) :
    culprit? o s (s.held ++ (chunk ++ more)) = culprit? o t (t.held ++ more) := by
  have hmoved := scan_moved (o := o) s.offset 0 (s.received chunk.length) (s.held ++ chunk) s.held
    [] []
  rw [show scan o s.offset false (s.received chunk.length) (s.held ++ chunk) [] = .ok (t, found)
    from h] at hmoved
  have hscan : scan o 0 false (s.received chunk.length) (s.held ++ chunk) [] = .ok (t, found) := by
    revert hmoved
    change (scan o 0 false (s.received chunk.length) (s.held ++ chunk) []).toOption = _ → _
    cases scan o 0 false (s.received chunk.length) (s.held ++ chunk) [] with
    | error e => rintro ⟨⟩
    | ok r => rintro ⟨⟩; simp
  have hfinal := scan_append_final hk 0 (s.received chunk.length) (s.held ++ chunk) more []
  rw [hscan] at hfinal
  rw [← List.append_assoc, ← culprit?_retag hk s s.held chunk.length,
    ← culprit?_retag hk t s.held 0, ← culprit?_done o _ (t.held ++ more) found, culprit?]
  exact congrArg flaw? hfinal

/-- What is wrong with a chunk that is not read is wrong with the script. -/
theorem culprit?_of_push_error (hk : o.keepComments = false) {chunk : Chars}
    (h : push o s chunk = .error e) (more : Chars) :
    (culprit? o s (s.held ++ (chunk ++ more))).map (·.seenFrom s.offset) = some e := by
  have hfinal := scan_append_final hk s.offset (s.received chunk.length)
    (s.held ++ chunk) more []
  rw [show scan o s.offset false (s.received chunk.length) (s.held ++ chunk) [] = .error e from h]
    at hfinal
  have hscan := scan_retag hk s.offset s s.held chunk.length (s.held ++ chunk ++ more) []
  rw [show s.retag s.held chunk.length = s.received chunk.length from rfl, hfinal] at hscan
  rw [← List.append_assoc, culprit?]
  cases hr : scan o 0 true s (s.held ++ chunk ++ more) [] with
  | error e' =>
    rw [hr] at hscan
    cases hscan
    rfl
  | ok r =>
    rw [hr] at hscan
    cases hscan

/-- However a script is cut into chunks, what is reported is what is wrong with it, as the last call
sees it. -/
theorem fault?_stream (hk : o.keepComments = false) (s : Splitter) (chunks : List Chars) :
    fault? (stream o s chunks) =
      (culprit? o s (s.held ++ chunks.flatten)).map (·.seenFrom (lastFrom o s chunks)) := by
  induction chunks generalizing s with
  | nil =>
    rw [List.flatten_nil, List.append_nil]
    exact fault?_finish hk s
  | cons chunk rest ih =>
    rw [List.flatten_cons, stream_cons, lastFrom]
    cases hpush : push o s chunk with
    | error e => exact (culprit?_of_push_error hk hpush rest.flatten).symm
    | ok r =>
      obtain ⟨t, found⟩ := r
      dsimp only
      rw [culprit?_of_push hk hpush, ← ih t]
      unfold fault?
      dsimp only
      cases (stream o t rest).2 <;> rfl

end SqlFerry.Splitter
