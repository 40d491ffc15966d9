import SqlFerry.Proofs.Splitter.Final

/-!
# Scripts behind statements

What a script is split into does not depend on what stands before it, once a statement ends there:
its statements are those of the script alone, and only their places and their numbers are others.
-/

namespace SqlFerry

open Text

structure Shift where
  chars : Nat
  lines : Nat
  statements : Nat

def Statement.shift (k : Shift) (st : Statement) : Statement :=
  { st with
    index := st.index + k.statements, start := st.start + k.chars, stop := st.stop + k.chars
    line := st.line + k.lines }

namespace Splitter

variable {k : Shift}

/-! ## Drafts -/

/-- The draft of the same text further behind. What has not begun is nowhere. -/
def Draft.shift (k : Shift) (d : Draft) : Draft :=
  { d with
    start := d.start.map (· + k.chars)
    line := if d.start.isSome then d.line + k.lines else d.line
    lastWordEnd := d.lastWordEnd.map (· + k.chars) }

section Draft

variable (d : Draft)

theorem Draft.shift_push (cs : Chars) : (d.push cs).shift k = (d.shift k).push cs := rfl

theorem Draft.shift_note (cs : Chars) : (d.note cs).shift k = (d.shift k).note cs := rfl

theorem Draft.shift_pushBlank (c : Char) : (d.pushBlank c).shift k = (d.shift k).pushBlank c := by
  simp only [Draft.pushBlank, show (d.shift k).out = d.out from rfl,
    show (d.shift k).afterComment = d.afterComment from rfl]
  split <;> rfl

theorem Draft.shift_gap : d.gap.shift k = (d.shift k).gap := by
  simp only [Draft.gap, show (d.shift k).out = d.out from rfl,
    show (d.shift k).trailingSpace = d.trailingSpace from rfl]
  split <;> rfl

theorem Draft.shift_readHeader (word : String) :
    (d.readHeader word).shift k = (d.shift k).readHeader word := by
  simp only [Draft.readHeader, show (d.shift k).header = d.header from rfl]
  split <;> rfl

theorem Draft.shift_openBlock (word : String) :
    (d.openBlock word).shift k = (d.shift k).openBlock word := by
  unfold Draft.openBlock
  split
  · rfl
  · split <;> rfl

theorem Draft.shift_nest (word : String) : (d.nest word).shift k = (d.shift k).nest word := by
  unfold Draft.nest
  rw [← Draft.shift_readHeader]
  generalize d.readHeader word = d
  simp only [show (d.shift k).compound = d.compound from rfl,
    show (d.shift k).pendingEnd = d.pendingEnd from rfl]
  split
  · rfl
  · split
    · split
      · rfl
      · split
        · rfl
        · exact Draft.shift_openBlock _ word
    · exact Draft.shift_openBlock d word

theorem Draft.shift_settle : (d.shift k).settle = (d.settle.1.shift k, d.settle.2) := by
  unfold Draft.settle
  simp only [show (d.shift k).compound = d.compound from rfl,
    show (d.shift k).pendingEnd = d.pendingEnd from rfl]
  split
  · rfl
  · split <;> rfl

end Draft

/-! ## Splitters -/

/-- Whether the second splitter is the first, further behind in its script. What was held back or
counted and where a quote was opened may be anything. -/
structure ShiftedBy (k : Shift) (s t : Splitter) : Prop where
  mode : t.mode = s.mode
  draft : t.draft = s.draft.shift k
  delimiter : t.delimiter = s.delimiter
  offset : t.offset = s.offset + k.chars
  line : t.line = s.line + k.lines
  index : t.index = s.index + k.statements

inductive Shifts (k : Shift) : Except Fault Splitter → Except Fault Splitter → Prop where
  | ok {s t : Splitter} (h : ShiftedBy k s t) : Shifts k (.ok s) (.ok t)
  | error (e e' : Fault) : Shifts k (.error e) (.error e')

inductive Moves (k : Shift) : Except Fault Move → Except Fault Move → Prop where
  | hold : Moves k (.ok .hold) (.ok .hold)
  | take (extra : Nat) {s t : Splitter} (done : Option Statement) (h : ShiftedBy k s t) :
    Moves k (.ok (.take extra s done)) (.ok (.take extra t (done.map (·.shift k))))
  | error (e e' : Fault) : Moves k (.error e) (.error e')

namespace Moves

theorem bind {x y : Except Fault Splitter} {f g : Splitter → Except Fault Move}
    (h : Shifts k x y) (hf : ∀ s t, ShiftedBy k s t → Moves k (f s) (g t)) :
    Moves k (x >>= f) (y >>= g) := by
  cases h with
  | ok h => exact hf _ _ h
  | error e e' => exact .error e e'

theorem ite {p : Prop} [Decidable p] {a b a' b' : Except Fault Move} (hp : p → Moves k a a')
    (hn : ¬p → Moves k b b') : Moves k (if p then a else b) (if p then a' else b') := by
  split
  · exact hp ‹_›
  · exact hn ‹_›

end Moves

namespace ShiftedBy

variable {s t : Splitter} {mode : Mode} {d : Draft} {cs : Chars}

theorem withDraft (h : ShiftedBy k s t) (d : Draft) :
    ShiftedBy k { s with draft := d } { t with draft := d.shift k } :=
  ⟨h.mode, rfl, h.delimiter, h.offset, h.line, h.index⟩

theorem withMode (h : ShiftedBy k s t) (mode : Mode) :
    ShiftedBy k { s with mode } { t with mode } :=
  ⟨rfl, h.draft, h.delimiter, h.offset, h.line, h.index⟩

theorem markOpen (h : ShiftedBy k s t) : ShiftedBy k s.markOpen t.markOpen :=
  ⟨h.mode, h.draft, h.delimiter, h.offset, h.line, h.index⟩

theorem advance (h : ShiftedBy k s t) (taken : Chars) :
    ShiftedBy k (s.advance taken) (t.advance taken) :=
  ⟨h.mode, h.draft, h.delimiter,
    by simp only [Splitter.advance, h.offset]; omega,
    by simp only [Splitter.advance, h.line]; omega, h.index⟩

end ShiftedBy

section Step

variable (o : Options) (base base' : Nat) {s t : Splitter} (h : ShiftedBy k s t) (c : Char)
  (rest cs : Chars)

include h

theorem append_shift : Shifts k (append o base s cs) (append o base' t cs) := by
  unfold append
  simp only [h.draft, ← Draft.shift_push,
    show ((s.draft.push cs).shift k).size = (s.draft.push cs).size from rfl]
  split
  · exact .error _ _
  · exact .ok (h.withDraft _)

theorem token_shift : Shifts k (token o base s cs) (token o base' t cs) := by
  have hdraft : (if t.draft.start.isNone then
        { t.draft with start := some t.offset, line := t.line } else t.draft) =
      (if s.draft.start.isNone then
        { s.draft with start := some s.offset, line := s.line } else s.draft).shift k := by
    rw [h.draft, h.offset, h.line]
    cases hstart : s.draft.start with
    | none => simp [Draft.shift, hstart]
    | some n => simp [Draft.shift, hstart]
  unfold token
  simp only [hdraft]
  exact append_shift o base base' (h.withDraft _) cs

theorem emit_shift (terminator : Option Chars) :
    ShiftedBy k (s.emit terminator).1 (t.emit terminator).1 ∧
      (t.emit terminator).2 = (s.emit terminator).2.map (·.shift k) := by
  have htext : t.draft.text = s.draft.text := by rw [h.draft]; rfl
  have hstart : t.draft.start = s.draft.start.map (· + k.chars) := by rw [h.draft]; rfl
  have hroutine : t.draft.routine = s.draft.routine := by rw [h.draft]; rfl
  unfold emit
  simp only [htext, hstart, hroutine]
  cases hs : s.draft.start with
  | none => exact ⟨⟨h.mode, rfl, h.delimiter, h.offset, h.line, h.index⟩, rfl⟩
  | some start =>
    have hline : t.draft.line = s.draft.line + k.lines := by
      rw [h.draft]
      simp [Draft.shift, hs]
    cases s.draft.text with
    | nil => exact ⟨⟨h.mode, rfl, h.delimiter, h.offset, h.line, h.index⟩, rfl⟩
    | cons x text =>
      refine ⟨⟨h.mode, rfl, h.delimiter, h.offset, h.line, ?_⟩, ?_⟩
      · simp only [Option.map_some, h.index]
        omega
      · simp only [Option.map_some, h.index, h.offset, hline]
        rfl

theorem openQuote_shift (mark : Mark) (escapes : Bool) :
    Moves k (openQuote o base s mark escapes c) (openQuote o base' t mark escapes c) :=
  .bind (token_shift o base base' h.markOpen [c]) fun _ _ h => .take 0 none (h.withMode _)

theorem plain_shift : Moves k (do return .take 0 (← token o base s [c]) none)
    (do return .take 0 (← token o base' t [c]) none) :=
  .bind (token_shift o base base' h [c]) fun _ _ h => .take 0 none h

theorem openLineComment_shift (marker : Chars) :
    Moves k (.ok (openLineComment o s marker)) (.ok (openLineComment o t marker)) := by
  unfold openLineComment
  refine .take _ none ⟨rfl, ?_, h.delimiter, h.offset, h.line, h.index⟩
  dsimp only [countComment]
  rw [h.draft]
  split <;> rfl

theorem openPlainComment_shift :
    Moves k (.ok (openPlainComment o s)) (.ok (openPlainComment o t)) := by
  unfold openPlainComment
  refine .take _ none ⟨rfl, ?_, h.delimiter, h.offset, h.line, h.index⟩
  dsimp only [countComment, Splitter.markOpen]
  rw [h.draft]
  split <;> rfl

theorem openBlockComment_shift (final : Bool) :
    Moves k (openBlockComment o base final s rest) (openBlockComment o base' final t rest) := by
  unfold openBlockComment
  refine .ite (fun _ => ?_) fun _ => openPlainComment_shift o h
  cases rest with
  | nil =>
    cases final with
    | true => exact openPlainComment_shift o h
    | false => exact .hold
  | cons x rest =>
    exact .ite (fun _ => .bind (token_shift o base base' h.markOpen _) fun _ _ h =>
      .take 2 none (h.withMode _)) fun _ => openPlainComment_shift o h

theorem delimiterLine_shift (final : Bool) (held : Chars) :
    Moves k (.ok (delimiterLine final s held)) (.ok (delimiterLine final t held)) := by
  unfold delimiterLine
  dsimp only
  split
  · exact .hold
  · cases words ((held.takeWhile (· != '\n')).drop "DELIMITER".length) with
    | nil => exact .take _ none h
    | cons delimiter _ => exact .take _ none ⟨h.mode, h.draft, rfl, h.offset, h.line, h.index⟩

theorem readWord_shift (final : Bool) :
    Moves k (readWord o base final s c rest) (readWord o base' final t c rest) := by
  have hstart : t.draft.start.isNone = s.draft.start.isNone := by
    rw [h.draft]
    cases hs : s.draft.start <;> simp [Draft.shift, hs]
  unfold readWord
  refine .ite (fun _ => .hold) fun _ => ?_
  rw [hstart]
  refine .ite (fun _ => delimiterLine_shift h final _) fun _ =>
    .bind (token_shift o base base' h _) fun s t h => ?_
  refine .take _ none ⟨h.mode, ?_, h.delimiter, h.offset, h.line, h.index⟩
  dsimp only
  rw [Draft.shift_nest, h.draft, h.offset]
  congr 1
  simp only [Draft.shift, Option.map_some, Draft.mk.injEq, true_and, Option.some.injEq]
  omega

theorem stringEscapes_shift : stringEscapes o t = stringEscapes o s := by
  have hend : (t.draft.lastWordEnd == some t.offset) = (s.draft.lastWordEnd == some s.offset) := by
    rw [h.draft, h.offset, Bool.eq_iff_iff]
    cases hs : s.draft.lastWordEnd <;> simp [Draft.shift, hs]
  have hlast : t.draft.lastWord = s.draft.lastWord := by rw [h.draft]; rfl
  unfold stringEscapes
  rw [hend, hlast]

theorem readToken_shift (final : Bool) :
    Moves k (readToken o base final s c rest) (readToken o base' final t c rest) := by
  unfold readToken
  refine .ite (fun _ => readWord_shift o base base' h c rest final) fun _ => ?_
  refine .ite (fun _ => .take 0 none ?_) fun _ => ?_
  · rw [h.draft, ← Draft.shift_pushBlank]
    exact h.withDraft _
  rw [stringEscapes_shift o h]
  refine .ite (fun _ => openQuote_shift o base base' h c _ _) fun _ => ?_
  refine .ite (fun _ => openQuote_shift o base base' h c _ _) fun _ => ?_
  refine .ite (fun _ => openQuote_shift o base base' h c _ _) fun _ => ?_
  refine .ite (fun _ => openQuote_shift o base base' h c _ _) fun _ => ?_
  have hplain := plain_shift o base base' h c
  refine .ite (fun _ => ?dash) fun _ => ?_
  case dash =>
    cases rest with
    | nil => cases final <;> [exact .hold; exact hplain]
    | cons x rest => exact .ite (fun _ => openLineComment_shift o h _) fun _ => hplain
  refine .ite (fun _ => ?slash) fun _ => ?_
  case slash =>
    cases rest with
    | nil => cases final <;> [exact .hold; exact hplain]
    | cons x rest =>
      exact .ite (fun _ => openBlockComment_shift o base base' h rest final) fun _ => hplain
  refine .ite (fun _ => openLineComment_shift o h _) fun _ => ?_
  refine .ite (fun _ => ?dollar) fun _ => hplain
  case dollar =>
    cases dollarTag? rest with
    | none => exact .ite (fun _ => .hold) fun _ => hplain
    | some tag =>
      refine .bind (token_shift o base base' h.markOpen tag) fun _ _ h => .take _ none ?_
      refine ⟨rfl, ?_, h.delimiter, h.offset, h.line, h.index⟩
      dsimp only
      rw [h.draft]
      rfl

theorem emit_moves (extra : Chars → Nat) (terminator : Option Chars) :
    Moves k (.ok (match s.emit terminator with | (s, done) => .take (extra s.delimiter) s done))
      (.ok (match t.emit terminator with | (t, done) => .take (extra t.delimiter) t done)) := by
  obtain ⟨hfresh, hdone⟩ := emit_shift h terminator
  revert hfresh hdone
  generalize s.emit terminator = a
  generalize t.emit terminator = b
  obtain ⟨s, done⟩ := a
  obtain ⟨t, _⟩ := b
  rintro hfresh rfl
  dsimp only
  rw [hfresh.delimiter]
  exact .take _ done hfresh

theorem stepNormal_shift (final : Bool) :
    Moves k (stepNormal o base final s c rest) (stepNormal o base' final t c rest) := by
  unfold stepNormal
  rw [h.delimiter, h.draft, Draft.shift_settle]
  refine .ite (fun _ => .ite (fun _ => ?_) fun _ => emit_moves h (·.length - 1) _) fun _ =>
    .ite (fun _ => .hold) fun _ => readToken_shift o base base' h c rest final
  obtain ⟨draft, closed⟩ := s.draft.settle
  have hsettled : ShiftedBy k { s with draft }
      { t with draft := draft.shift k, delimiter := s.delimiter } :=
    ⟨h.mode, rfl, rfl, h.offset, h.line, h.index⟩
  cases closed with
  | true => exact emit_moves hsettled (fun _ => 0) _
  | false => exact readToken_shift o base base' hsettled c rest final

theorem stepQuoted_shift (final : Bool) (mark : Mark) (escapes : Bool) :
    Moves k (stepQuoted o base final s mark escapes c rest)
      (stepQuoted o base' final t mark escapes c rest) := by
  have htake (cs : Chars) (extra : Nat) (f : Splitter → Splitter)
      (hf : ∀ s t, ShiftedBy k s t → ShiftedBy k (f s) (f t)) :
      Moves k (do return .take extra (f (← append o base s cs)) none)
        (do return .take extra (f (← append o base' t cs)) none) :=
    .bind (append_shift o base base' h cs) fun _ _ h => .take extra none (hf _ _ h)
  have hplain (cs : Chars) (extra : Nat) := htake cs extra id fun _ _ h => h
  have hclose := htake [c] 0 (fun s => { s with mode := .normal }) fun _ _ h => h.withMode _
  unfold stepQuoted
  refine .ite (fun _ => ?_) fun _ => .ite (fun _ => ?_) fun _ => hplain [c] 0
  · cases rest with
    | nil => cases final <;> [exact .hold; exact hplain [c] 0]
    | cons x rest => exact hplain [c, x] 1
  · cases rest with
    | nil => cases final <;> [exact .hold; exact hclose]
    | cons x rest => exact .ite (fun _ => hplain [c, x] 1) fun _ => hclose

theorem stepLineComment_shift :
    Moves k (.ok (stepLineComment o s c)) (.ok (stepLineComment o t c)) := by
  unfold stepLineComment
  split
  · refine .take 0 none ⟨rfl, ?_, h.delimiter, h.offset, h.line, h.index⟩
    dsimp only
    rw [Draft.shift_pushBlank, h.draft]
    split
    · rfl
    · rw [Draft.shift_gap]
  · split
    · refine .take 0 none ?_
      rw [h.draft, ← Draft.shift_note]
      exact h.withDraft _
    · exact .take 0 none h

theorem appendIf_shift (kept : Bool) :
    Shifts k (appendIf o base s kept cs) (appendIf o base' t kept cs) := by
  unfold appendIf
  split
  · exact append_shift o base base' h cs
  · exact .ok h

theorem stepBlockComment_shift (final kept : Bool) :
    Moves k (stepBlockComment o base final s kept c rest)
      (stepBlockComment o base' final t kept c rest) := by
  have hplain : Moves k (do return .take 0 (← appendIf o base s kept [c]) none)
      (do return .take 0 (← appendIf o base' t kept [c]) none) :=
    .bind (appendIf_shift o base base' h [c] kept) fun _ _ h => .take 0 none h
  unfold stepBlockComment
  refine .ite (fun _ => ?_) fun _ => hplain
  cases rest with
  | nil => cases final <;> [exact .hold; exact hplain]
  | cons x rest =>
    refine .ite (fun _ => ?_) fun _ => hplain
    refine .bind (appendIf_shift o base base' h [c, x] kept) fun s t h => .take 1 none ?_
    refine ⟨rfl, ?_, h.delimiter, h.offset, h.line, h.index⟩
    dsimp only
    rw [h.draft]
    split
    · rfl
    · rw [Draft.shift_gap]

theorem stepDollarQuoted_shift (final : Bool) (tag : Chars) :
    Moves k (stepDollarQuoted o base final s tag c rest)
      (stepDollarQuoted o base' final t tag c rest) := by
  unfold stepDollarQuoted
  exact .ite (fun _ => .bind (append_shift o base base' h tag) fun _ _ h =>
      .take _ none (h.withMode _)) fun _ => .ite (fun _ => .hold) fun _ =>
    .bind (append_shift o base base' h [c]) fun _ _ h => .take 0 none h

/-- A step further behind is the same step. -/
theorem step_shift (final : Bool) :
    Moves k (step o base final s c rest) (step o base' final t c rest) := by
  unfold step
  rw [h.mode]
  cases s.mode with
  | normal => exact stepNormal_shift o base base' h c rest final
  | quoted mark escapes => exact stepQuoted_shift o base base' h c rest final mark escapes
  | lineComment => exact stepLineComment_shift o h c
  | blockComment kept => exact stepBlockComment_shift o base base' h c rest final kept
  | dollarQuoted tag => exact stepDollarQuoted_shift o base base' h c rest final tag

end Step

/-! ## Scans -/

/-- Both scans fail, or the second finds `done₀` and then what the first finds, further behind. -/
inductive Scans (k : Shift) (done₀ : List Statement) :
    Except Fault (Splitter × List Statement) → Except Fault (Splitter × List Statement) →
      Prop where
  | ok {s t : Splitter} (done : List Statement) (h : ShiftedBy k s t) :
    Scans k done₀ (.ok (s, done)) (.ok (t, done.map (·.shift k) ++ done₀))
  | error (e e' : Fault) : Scans k done₀ (.error e) (.error e')

theorem scan_shift (o : Options) (final : Bool) (base base' : Nat) {s t : Splitter}
    (h : ShiftedBy k s t) (held : Chars) (done done₀ : List Statement) :
    Scans k done₀ (scan o base final s held done)
      (scan o base' final t held (done.map (·.shift k) ++ done₀)) := by
  revert t
  apply scan_induction (motive := fun s held done r => ∀ {t}, ShiftedBy k s t →
    Scans k done₀ r (scan o base' final t held (done.map (·.shift k) ++ done₀)))
  case nil =>
    intro s done t h
    exact .ok done ⟨h.mode, h.draft, h.delimiter, h.offset, h.line, h.index⟩
  case error =>
    intro s c rest done e hs t h
    have hmove := step_shift o base base' h c rest final
    rw [hs] at hmove
    rw [scan_cons]
    generalize step o base' final t c rest = r at hmove ⊢
    cases hmove
    exact .error _ _
  case hold =>
    intro s c rest done hs t h
    have hmove := step_shift o base base' h c rest final
    rw [hs] at hmove
    rw [scan_cons]
    generalize step o base' final t c rest = r at hmove ⊢
    cases hmove
    exact .ok done ⟨h.mode, h.draft, h.delimiter, h.offset, h.line, h.index⟩
  case take =>
    intro s c rest done extra next more hs ih t h
    have hmove := step_shift o base base' h c rest final
    rw [hs] at hmove
    rw [scan_cons]
    generalize step o base' final t c rest = r at hmove ⊢
    cases hmove with
    | take _ _ h =>
      have hscan := ih (h.advance (c :: rest.take extra))
      rw [List.map_append] at hscan
      simp only [bind, Except.bind, ← List.append_assoc]
      convert hscan using 4
      cases more <;> rfl

theorem ending_shift {s t : Splitter} (h : ShiftedBy k s t) :
    t.ending? = s.ending?.map (·.map (·.shift k)) := by
  rw [ending?, ending?, h.mode, (emit_shift h none).2]
  cases s.mode <;> rfl

theorem ended_shift {s t : Splitter} (h : ShiftedBy k s t) (done : List Statement)
    (st : Statement) : ended? (t, done.map (·.shift k) ++ [st]) =
      (ended? (s, done)).map fun found => st :: found.map (·.shift k) := by
  rw [ended?, ended?, ending_shift h]
  cases s.ending? with
  | none => rfl
  | some last => cases last <;> simp

/-- Where a first statement ends, the script behind it is split as it is alone. -/
theorem parse_append {o : Options} {first rest : Chars} {st : Statement}
    (h : ∀ base held, ∃ t, ShiftedBy k {} t ∧
      scan o base true (({} : Splitter).retag held (first ++ rest).length) (first ++ rest) [] =
        scan o base true t rest [st]) :
    (parse o (first ++ rest)).2.toOption =
      (parse o rest).2.toOption.map fun found => st :: found.map (·.shift k) := by
  obtain ⟨base, held, hwhole⟩ := parse_eq_scan o (first ++ rest)
  obtain ⟨base', held', hrest⟩ := parse_eq_scan o rest
  obtain ⟨t, ht, hscan⟩ := h base held
  have hshift : ShiftedBy k (({} : Splitter).retag held' rest.length) t :=
    ⟨ht.mode, ht.draft, ht.delimiter, ht.offset, ht.line, ht.index⟩
  have hscans := scan_shift o true base' base hshift rest [] [st]
  rw [hwhole, hscan, hrest]
  rw [List.map_nil, List.nil_append] at hscans
  generalize scan o base' true (({} : Splitter).retag held' rest.length) rest [] = x at hscans ⊢
  generalize scan o base true t rest [st] = y at hscans ⊢
  cases hscans with
  | ok done h => exact ended_shift h done st
  | error e e' => rfl

end Splitter

end SqlFerry
