import Mathlib.Data.Bool.AllAny
import SqlFerry.Proofs.Splitter.Lexemes
import SqlFerry.Proofs.Splitter.Tokens

/-!
# Everything that a step can do

Reading a script that is known to its end, a splitter closes a statement, obeys a `DELIMITER` line,
takes a token or takes a piece of a quoted text or a comment; or it stops at a text that is too
long. What a whole scan does follows by induction along these.
-/

namespace SqlFerry.Splitter

open Text

variable {o : Options} {s t next : Splitter} {c : Char} {cs rest : Chars} {base : Nat}
  {more : Option Statement}

structure IsSound (s : Splitter) : Prop where
  delimiter : s.delimiter ≠ []
  tag : s.mode ≠ .dollarQuoted []

inductive Reads (o : Options) (s : Splitter) (c : Char) (cs rest : Chars) :
    Splitter → Option Statement → Prop where
  | close (hmode : s.mode = .normal) (htext : s.delimiter = c :: cs)
    (hends : (s.settled c (cs ++ rest)).2 = true) :
    Reads o s c cs rest ((s.atPlace c (cs ++ rest)).emit (some s.delimiter)).1
      ((s.atPlace c (cs ++ rest)).emit (some s.delimiter)).2
  | direct (delimiter : Chars) (changes : Nat) (hmode : s.mode = .normal)
    (hstart : s.draft.start = none) (hdelimiter : delimiter ≠ []) :
    Reads o s c cs rest { s with
      delimiter, statistics := { s.statistics with delimiterChanges := changes } } none
  | token (t : Token) (hmode : s.mode = .normal)
    (hends : (s.settled c (cs ++ rest)).2 = false)
    (ht : tokenAt o (stringEscapes o (s.atPlace c (cs ++ rest))) c (cs ++ rest) = t)
    (htext : t.text c = c :: cs) (hset : setsDelimiter o s c t = false)
    (hfits : t.isText = true →
      o.maxSize.isExceededBy (s.draft.size + (c :: cs).length) = false) :
    Reads o s c cs rest (t.read (s.atPlace c (cs ++ rest)) c) none
  | piece (last : Bool) (hmode : s.mode ≠ .normal)
    (hp : pieceAt s.mode c (cs ++ rest) = (c :: cs, last))
    (hfits : s.mode.isText = true →
      o.maxSize.isExceededBy (s.draft.size + (c :: cs).length) = false) :
    Reads o s c cs rest (s.readPiece (c :: cs, last)) none

/-! ## The place -/

/-- At a place nothing changes but the blocks. -/
theorem atPlace_eq (s : Splitter) (c : Char) (rest : Chars) : ∃ depth pendingEnd,
    s.atPlace c rest = { s with draft := { s.draft with depth, pendingEnd } } := by
  obtain ⟨depth, pendingEnd, h⟩ := s.draft.settle_eq
  unfold atPlace settled
  split
  · split
    · exact ⟨depth, pendingEnd, by rw [h]⟩
    · exact ⟨s.draft.depth, s.draft.pendingEnd, rfl⟩
  · exact ⟨s.draft.depth, s.draft.pendingEnd, rfl⟩

/-- Only a semicolon changes anything there. -/
theorem atPlace_of_ne (hc : c ≠ ';') (rest : Chars) : s.atPlace c rest = s := by
  unfold atPlace settled
  split
  · next hd =>
    split
    · next h =>
      rw [beq_iff_eq.1 h, startsWith_iff, List.cons_prefix_cons] at hd
      exact absurd hd.1.symm hc
    · rfl
  · rfl

theorem settled_of_semicolon (h : s.delimiter = [';']) (c : Char) (rest : Chars) :
    s.settled c rest = if c = ';' then s.draft.settle else (s.draft, false) := by
  have hstarts : startsWith [';'] (c :: rest) = (c == ';') := by
    by_cases hc : c = ';'
    · subst hc
      rfl
    · simp [startsWith, after?, hc, Ne.symm hc]
  rw [settled, h, hstarts]
  by_cases hc : c = ';' <;> simp [hc]

theorem startsWith_of_settled (h : (s.settled c rest).2 = true) :
    s.delimiter <+: c :: rest := by
  unfold settled at h
  split at h
  · next hd => exact startsWith_iff.1 hd
  · cases h

theorem setsDelimiter_atPlace (o : Options) (s : Splitter) (c x : Char) (rest : Chars)
    (t : Token) : setsDelimiter o (s.atPlace x rest) c t = setsDelimiter o s c t := by
  obtain ⟨depth, pendingEnd, h⟩ := s.atPlace_eq x rest
  rw [h]
  rfl

theorem overflow_atPlace (o : Options) (base : Nat) (s : Splitter) (c : Char) (rest : Chars) :
    (s.atPlace c rest).overflow o base = s.overflow o base := by
  obtain ⟨depth, pendingEnd, h⟩ := s.atPlace_eq c rest
  rw [h]
  unfold overflow
  split
  · unfold Draft.begin
    dsimp only
    split <;> rfl
  · rfl

theorem atPlace_size (s : Splitter) (c : Char) (rest : Chars) :
    (s.atPlace c rest).draft.size = s.draft.size := by
  obtain ⟨depth, pendingEnd, h⟩ := s.atPlace_eq c rest
  rw [h]

/-! ## Steps -/

theorem tokenAt_semicolon (o : Options) (escapes : Bool) (rest : Chars) :
    tokenAt o escapes ';' rest = .symbol := by
  simp [tokenAt, show isWordStart ';' = false by decide, show isBlank ';' = false by decide]

theorem word_of_tokenAt {escapes : Bool} {others : Chars}
    (ht : tokenAt o escapes c rest = .word others) :
    isWordStart c = true ∧ others = rest.takeWhile isWordPart := by
  unfold tokenAt at ht
  by_cases hc : isWordStart c = true
  · rw [if_pos hc] at ht
    cases ht
    exact ⟨hc, rfl⟩
  · rw [if_neg hc] at ht
    repeat' split at ht
    all_goals cases ht

theorem isBlank_of_tokenAt {escapes : Bool} (ht : tokenAt o escapes c rest = .blank) :
    isBlank c = true := by
  by_contra hc
  unfold tokenAt at ht
  rw [if_neg hc] at ht
  repeat' split at ht
  all_goals cases ht

theorem dollar_of_tokenAt {escapes : Bool} {tag : Chars}
    (ht : tokenAt o escapes c rest = .dollar tag) : dollarTag? rest = some tag := by
  unfold tokenAt at ht
  repeat' split at ht
  all_goals cases ht
  assumption

theorem isWordStart_of_setsDelimiter {t : Token} {escapes : Bool}
    (ht : tokenAt o escapes c rest = t) (h : setsDelimiter o s c t = true) :
    isWordStart c = true := by
  cases t with
  | word others => exact (word_of_tokenAt ht).1
  | blank | quote mark escapes | executable | dollar tag | lineComment marker | blockComment
  | symbol => cases h

theorem start_of_setsDelimiter {t : Token} (h : setsDelimiter o s c t = true) :
    s.draft.start = none := by
  cases t with
  | word others =>
    simp only [setsDelimiter, Bool.and_eq_true, Option.isNone_iff_eq_none] at h
    exact h.1.2
  | blank | quote mark escapes | executable | dollar tag | lineComment marker | blockComment
  | symbol => cases h

/-- A `DELIMITER` line is taken up to its end, and sets no empty delimiter. -/
theorem delimiterLine_eq (hs : s.delimiter ≠ []) (cs : Chars) :
    ∃ delimiter changes, delimiter ≠ [] ∧ delimiterLine true s cs =
      .take ((cs.takeWhile (· != '\n')).length - 1) { s with
        delimiter, statistics := { s.statistics with delimiterChanges := changes } } none := by
  unfold delimiterLine
  simp only [Bool.not_true, Bool.and_false, Bool.false_eq_true, if_false]
  cases hwords : words ((cs.takeWhile (· != '\n')).drop "DELIMITER".length) with
  | nil => exact ⟨s.delimiter, s.statistics.delimiterChanges, hs, rfl⟩
  | cons delimiter others =>
    exact ⟨delimiter, s.statistics.delimiterChanges + 1,
      (solid_of_mem_words (hwords ▸ List.mem_cons_self)).1, rfl⟩

/-- A step that takes a token does one of four things. -/
theorem reads_of_step (hk : o.keepComments = false) (hs : s.IsSound) {extra : Nat}
    (h : step o base true s c rest = .ok (.take extra next more)) :
    ∃ cs after, rest = cs ++ after ∧ extra = cs.length ∧ Reads o s c cs after next more := by
  -- every text at hand is what stands before the rest
  have hcut {text : Chars} (hp : text <+: c :: rest) (hne : text ≠ []) :
      ∃ cs after, rest = cs ++ after ∧ text.length - 1 = cs.length ∧ text = c :: cs := by
    obtain ⟨x, cs, rfl⟩ := List.exists_cons_of_ne_nil hne
    obtain ⟨rfl, after, rfl⟩ := List.cons_prefix_cons.1 hp
    exact ⟨cs, after, rfl, rfl, rfl⟩
  by_cases hmode : s.mode = .normal
  · rw [step_outside hk hmode] at h
    dsimp only at h
    split at h
    · next hends =>
      cases h
      obtain ⟨cs, after, rfl, hlength, htext⟩ := hcut (startsWith_of_settled hends) hs.delimiter
      exact ⟨cs, after, rfl, hlength, .close hmode htext hends⟩
    · next hends =>
      obtain ⟨hopens, hne⟩ :=
        text_tokenAt o (stringEscapes o (s.atPlace c rest)) c rest
      generalize ht : tokenAt o (stringEscapes o (s.atPlace c rest)) c rest = t at h hopens hne
      unfold Token.act at h
      rw [setsDelimiter_atPlace, atPlace_size] at h
      split at h
      · next hset =>
        have hword := isWordStart_of_setsDelimiter ht hset
        have hc : c ≠ ';' := by
          rintro rfl
          exact absurd hword (by decide)
        have hline : (c :: rest).takeWhile (· != '\n') ≠ [] := by
          have hfeed : c ≠ '\n' := by
            rintro rfl
            exact absurd hword (by decide)
          simp [hfeed]
        rw [atPlace_of_ne hc] at h
        obtain ⟨delimiter, changes, hdelimiter, heq⟩ := delimiterLine_eq hs.delimiter (c :: rest)
        rw [heq] at h
        cases h
        obtain ⟨cs, after, rfl, hlength, -⟩ := hcut (List.takeWhile_prefix _) hline
        exact ⟨cs, after, rfl, hlength,
          .direct delimiter changes hmode (start_of_setsDelimiter hset) hdelimiter⟩
      · next hset =>
        split at h
        · cases h
        · next hfits =>
          cases h
          obtain ⟨cs, after, rfl, hlength, htext⟩ := hcut hopens hne
          refine ⟨cs, after, rfl, hlength,
            .token t hmode (by simpa using hends) ht htext (by simpa using hset) ?_⟩
          intro hisText
          rw [← htext]
          simpa [hisText] using hfits
  · rw [step_inside hk hmode, actPiece] at h
    obtain ⟨hopens, hne⟩ := text_pieceAt hs.tag c rest
    generalize hp : pieceAt s.mode c rest = piece at h hopens hne
    obtain ⟨text, last⟩ := piece
    split at h
    · cases h
    · next hfits =>
      cases h
      obtain ⟨cs, after, rfl, hlength, rfl⟩ := hcut hopens hne
      exact ⟨cs, after, rfl, hlength,
        .piece last hmode hp fun htext => by simpa [htext] using hfits⟩

/-- A step never waits, and it fails only where a text is too long. -/
theorem step_eq_take_or_overflow (hk : o.keepComments = false) (base : Nat) (s : Splitter)
    (c : Char) (rest : Chars) :
    (∃ extra next more, step o base true s c rest = .ok (.take extra next more)) ∨
      (s.mode = .normal ∨ s.mode.isText = true) ∧
        step o base true s c rest = .error (s.overflow o base) := by
  by_cases hmode : s.mode = .normal
  · rw [step_outside hk hmode]
    dsimp only
    split
    · exact .inl ⟨_, _, _, rfl⟩
    · unfold Token.act
      split
      · refine .inl ?_
        unfold delimiterLine
        simp only [Bool.not_true, Bool.and_false, Bool.false_eq_true, if_false]
        exact ⟨_, _, _, rfl⟩
      · split
        · exact .inr ⟨.inl hmode, by rw [overflow_atPlace]⟩
        · exact .inl ⟨_, _, _, rfl⟩
  · rw [step_inside hk hmode, actPiece]
    split
    · next h => exact .inr ⟨.inr (Bool.and_eq_true_iff.1 h).1, rfl⟩
    · exact .inl ⟨_, _, _, rfl⟩

/-! ## What a step keeps -/

/-- Closing a statement leaves a fresh draft and counts what it closed. -/
theorem emit_fst (s : Splitter) (terminator : Option Chars) : ∃ statistics,
    (s.emit terminator).1 = { s with
      draft := {}, openOffset := 0, openLine := 1
      index := s.index + (s.emit terminator).2.toList.length, statistics } ∧
    statistics.commentsRemoved = s.statistics.commentsRemoved := by
  unfold emit
  dsimp only
  split <;> exact ⟨_, rfl, rfl⟩

theorem eq_of_emit {terminator : Option Chars} {st : Statement}
    (h : (s.emit terminator).2 = some st) : ∃ start, s.draft.start = some start ∧
      st = {
        text := String.ofList s.draft.text, index := s.index, start, stop := s.offset
        line := s.draft.line, terminator := terminator.map String.ofList
        inRoutine := s.draft.routine } := by
  unfold emit at h
  dsimp only at h
  split at h
  · cases h
  · cases h
  · next start x xs hstart htext =>
    cases h
    exact ⟨start, hstart, by rw [htext]⟩

theorem emit_snd_of_text {n : Nat} {terminator : Option Chars} (hstart : s.draft.start = some n)
    (htext : s.draft.text ≠ []) : (s.emit terminator).2 = some {
      text := String.ofList s.draft.text, index := s.index, start := n, stop := s.offset
      line := s.draft.line, terminator := terminator.map String.ofList
      inRoutine := s.draft.routine } := by
  obtain ⟨x, xs, hcons⟩ := List.exists_cons_of_ne_nil htext
  unfold emit
  simp only [hstart, hcons]

section Keeps

variable (s : Splitter) (c : Char) (t : Token)

@[simp]
theorem Token.read_delimiter : (t.read s c).delimiter = s.delimiter := by
  cases t <;> rfl

@[simp]
theorem Token.read_offset : (t.read s c).offset = s.offset := by
  cases t <;> rfl

@[simp]
theorem Token.read_line : (t.read s c).line = s.line := by
  cases t <;> rfl

@[simp]
theorem Token.read_index : (t.read s c).index = s.index := by
  cases t <;> rfl

structure Adds (s : Splitter) (cs : Chars) (d : Draft) : Prop where
  out : d.out = cs.reverse ++ s.draft.out
  size : d.size = s.draft.size + cs.length
  start : d.start = some (s.draft.start.getD s.offset)
  line : d.line = if s.draft.start.isNone then s.line else s.draft.line
  trailingSpace : d.trailingSpace = false
  afterComment : d.afterComment = false

theorem Token.read_adds {t : Token} (ht : t.isText = true) (s : Splitter) (c : Char) :
    s.Adds (t.text c) (t.read s c).draft := by
  have hpush (cs : Chars) : s.Adds cs ((s.draft.begin s.offset s.line).push cs) :=
    ⟨by simp [Draft.push], by simp [Draft.push], s.draft.begin_start_eq _ _,
      s.draft.begin_line_eq _ _, rfl, rfl⟩
  cases t with
  | word others =>
    obtain ⟨header, compound, depth, pendingEnd, routine, hnest⟩ :=
      Draft.nest_eq { (s.draft.begin s.offset s.line).push (c :: others) with
        lastWord := c :: others, lastWordEnd := some (s.offset + (c :: others).length) }
        (upperWord (c :: others))
    have h := hpush (c :: others)
    rw [Token.read, Token.text]
    dsimp only
    rw [hnest]
    exact ⟨h.out, h.size, h.start, h.line, h.trailingSpace, h.afterComment⟩
  | dollar tag =>
    have h := hpush tag
    exact ⟨h.out, h.size, h.start, h.line, h.trailingSpace, h.afterComment⟩
  | quote mark escapes | executable | symbol => exact hpush _
  | blank | lineComment marker | blockComment => cases ht

/-- No statement begins with what adds no text. -/
theorem Token.read_start {t : Token} (hgap : t.isText = false) (s : Splitter) (c : Char) :
    (t.read s c).draft.start = s.draft.start := by
  cases t with
  | blank =>
    simp only [Token.read, Draft.pushBlank]
    split <;> rfl
  | lineComment marker | blockComment => rfl
  | word others | quote mark escapes | executable | dollar tag | symbol => cases hgap

theorem readPiece_start (s : Splitter) (piece : Chars × Bool) :
    (s.readPiece piece).draft.start = s.draft.start := by
  unfold readPiece Draft.gap
  dsimp only
  split
  · rfl
  · split
    · split <;> rfl
    · rfl

theorem readPiece_adds (hmode : s.mode.isText = true) (hstart : s.draft.start.isSome = true)
    (piece : Chars × Bool) : s.Adds piece.1 (s.readPiece piece).draft := by
  obtain ⟨n, hn⟩ := Option.isSome_iff_exists.1 hstart
  have hdraft : (s.readPiece piece).draft = s.draft.push piece.1 := by
    simp [readPiece, hmode]
  rw [hdraft]
  exact ⟨rfl, rfl, by rw [hn]; exact hn, by simp [hn, Draft.push], rfl, rfl⟩

end Keeps

theorem Token.read_statistics {t : Token} (ht : t.isText = true ∨ t = .blank) (s : Splitter)
    (c : Char) : (t.read s c).statistics = s.statistics := by
  cases t with
  | lineComment marker | blockComment => simp [Token.isText] at ht
  | word others | blank | quote mark escapes | executable | dollar tag | symbol => rfl

theorem Token.read_mode {t : Token} (ht : t.isText = true ∨ t = .blank) (hs : s.mode = .normal)
    (c : Char) : (t.read s c).mode = .normal ∨ (t.read s c).mode.isText = true := by
  cases t with
  | lineComment marker | blockComment => simp [Token.isText] at ht
  | word others | blank | symbol => exact .inl hs
  | quote mark escapes | executable | dollar tag => exact .inr rfl

/-- A token that begins with a blank is one. -/
theorem not_isBlank_of_tokenAt {t : Token} {escapes : Bool}
    (ht : tokenAt o escapes c rest = t) (hne : t ≠ .blank) : isBlank c = false := by
  rw [Bool.eq_false_iff]
  intro hc
  apply hne
  rw [← ht, tokenAt, if_neg (by simp [isWordStart_of_isBlank hc]), if_pos hc]

theorem not_isBlank_of_isWordPart (hc : isWordPart c = true) : isBlank c = false := by
  rcases Bool.or_eq_true_iff.1 hc with htag | hdollar
  · exact not_isBlank_of_isTagChar htag
  · rw [eq_of_beq hdollar]
    decide

theorem not_isBlank_of_tag {tag : Chars} (h : dollarTag? rest = some tag) :
    ∀ c ∈ tag, isBlank c = false := by
  obtain ⟨after, -, rfl⟩ := eq_of_dollarTag? h
  refine List.forall_mem_append.2 ⟨List.forall_mem_cons.2 ⟨by decide, fun x hx => ?_⟩,
    List.forall_mem_singleton.2 (by decide)⟩
  exact not_isBlank_of_isTagChar (List.mem_takeWhile_imp hx)

/-- No text of a token has a blank in it. -/
theorem not_isBlank_of_mem_text {t : Token} {escapes : Bool}
    (ht : tokenAt o escapes c rest = t) (hisText : t.isText = true) :
    ∀ x ∈ t.text c, isBlank x = false := by
  have hc : isBlank c = false := not_isBlank_of_tokenAt ht (by rintro rfl; cases hisText)
  cases t with
  | word others =>
    obtain ⟨-, rfl⟩ := word_of_tokenAt ht
    exact List.forall_mem_cons.2
      ⟨hc, fun x hx => not_isBlank_of_isWordPart (List.mem_takeWhile_imp hx)⟩
  | dollar tag => exact not_isBlank_of_tag (dollar_of_tokenAt ht)
  | executable =>
    exact List.all_iff_forall_prop.1 (show ['/', '*', '!'].all (isBlank · = false) = true by decide)
  | quote mark escapes | symbol => exact List.forall_mem_singleton.2 hc
  | blank | lineComment marker | blockComment => cases hisText

theorem isSound_fresh (held : Chars) (n : Nat) : IsSound (({} : Splitter).retag held n) :=
  ⟨List.cons_ne_nil _ _, by rintro ⟨⟩⟩

theorem IsSound.advance (h : s.IsSound) (cs : Chars) : (s.advance cs).IsSound :=
  ⟨h.delimiter, h.tag⟩

namespace Reads

theorem offset_eq (h : Reads o s c cs rest next more) : next.offset = s.offset := by
  cases h with
  | close hmode htext hends =>
    obtain ⟨statistics, hemit, -⟩ := (s.atPlace c (cs ++ rest)).emit_fst (some s.delimiter)
    rw [hemit]
    rfl
  | direct delimiter changes hmode hstart hdelimiter => rfl
  | token t hmode hends ht htext hset hfits => exact t.read_offset _ _
  | piece last hmode hp hfits => rfl

theorem line_eq (h : Reads o s c cs rest next more) : next.line = s.line := by
  cases h with
  | close hmode htext hends =>
    obtain ⟨statistics, hemit, -⟩ := (s.atPlace c (cs ++ rest)).emit_fst (some s.delimiter)
    rw [hemit]
    rfl
  | direct delimiter changes hmode hstart hdelimiter => rfl
  | token t hmode hends ht htext hset hfits => exact t.read_line _ _
  | piece last hmode hp hfits => rfl

theorem index_eq (h : Reads o s c cs rest next more) :
    next.index = s.index + more.toList.length := by
  cases h with
  | close hmode htext hends =>
    obtain ⟨statistics, hemit, -⟩ := (s.atPlace c (cs ++ rest)).emit_fst (some s.delimiter)
    rw [hemit]
    rfl
  | direct delimiter changes hmode hstart hdelimiter => rfl
  | token t hmode hends ht htext hset hfits => exact t.read_index _ _
  | piece last hmode hp hfits => rfl

/-- A statement begins with the first text of it that is read, and ends where it is closed. -/
theorem start_cases (h : Reads o s c cs rest next more) :
    next.draft.start = none ∨ next.draft.start = some (s.draft.start.getD s.offset) := by
  have hsame (hsame : next.draft.start = s.draft.start) :
      next.draft.start = none ∨ next.draft.start = some (s.draft.start.getD s.offset) := by
    rw [hsame]
    cases s.draft.start with
    | none => exact .inl rfl
    | some n => exact .inr rfl
  cases h with
  | close hmode htext hends => exact .inl (by rw [emit_draft])
  | direct delimiter changes hmode hstart hdelimiter => exact .inl hstart
  | token t hmode hends ht htext hset hfits =>
    obtain ⟨depth, pendingEnd, heq⟩ := s.atPlace_eq c (cs ++ rest)
    rw [heq] at hsame ⊢
    by_cases hisText : t.isText = true
    · exact .inr (t.read_adds hisText _ c).start
    · exact hsame (Token.read_start (by simpa using hisText) _ c)
  | piece last hmode hp hfits => exact hsame (readPiece_start s _)

/-- A statement is found where the delimiter closes it. -/
theorem closes {st : Statement} (h : Reads o s c cs rest next (some st)) :
    s.mode = .normal ∧ s.delimiter = c :: cs ∧ next.draft = {} ∧
      ((s.atPlace c (cs ++ rest)).emit (some s.delimiter)).2 = some st := by
  generalize hmore : some st = more at h
  cases h with
  | close hmode htext hends => exact ⟨hmode, htext, emit_draft _ _, rfl⟩
  | direct | token | piece => cases hmore

theorem sound (h : Reads o s c cs rest next more) (hs : s.IsSound) : next.IsSound := by
  cases h with
  | close hmode htext hends =>
    obtain ⟨statistics, hemit, -⟩ := (s.atPlace c (cs ++ rest)).emit_fst (some s.delimiter)
    rw [hemit]
    exact ⟨hs.delimiter, hs.tag⟩
  | direct delimiter changes hmode hstart hdelimiter => exact ⟨hdelimiter, hs.tag⟩
  | token t hmode hends ht htext hset hfits =>
    refine ⟨by rw [Token.read_delimiter]; exact hs.delimiter, ?_⟩
    cases t with
    | dollar tag =>
      rintro ⟨⟩
      cases htext
    | word others | blank | symbol => exact hs.tag
    | quote mark escapes | executable | lineComment marker | blockComment => rintro ⟨⟩
  | piece last hmode hp hfits =>
    refine ⟨hs.delimiter, ?_⟩
    cases last with
    | true => rintro ⟨⟩
    | false => exact hs.tag

end Reads

/-! ## Scans -/

/-- Induction along a scan to the end of the script: its end, a text that is too long, and a step
that reads the characters `c :: cs`. -/
theorem scan_reads (hk : o.keepComments = false)
    {motive : Splitter → Chars → List Statement → Except Fault (Splitter × List Statement) → Prop}
    (nil : ∀ s done, motive s [] done (.ok ({ s with held := [] }, done)))
    (overflow : ∀ s c rest done, (s.mode = .normal ∨ s.mode.isText = true) →
      step o base true s c rest = .error (s.overflow o base) →
      motive s (c :: rest) done (.error (s.overflow o base)))
    (read : ∀ s c cs rest done next more r, s.IsSound → Reads o s c cs rest next more →
      motive (next.advance (c :: cs)) rest (more.toList ++ done) r →
      motive s (c :: cs ++ rest) done r)
    (hs : s.IsSound) (held : Chars) (done : List Statement) :
    motive s held done (scan o base true s held done) := by
  revert hs
  apply scan_induction (motive := fun s held done r => s.IsSound → motive s held done r)
  case nil =>
    intro s done _
    exact nil s done
  case error =>
    intro s c rest done e hstep _
    rcases step_eq_take_or_overflow hk base s c rest with ⟨extra, next, more, htake⟩ | ⟨hmode, h⟩
    · rw [hstep] at htake
      cases htake
    · rw [hstep] at h
      cases h
      exact overflow s c rest done hmode hstep
  case hold =>
    intro s c rest done hstep _
    rcases step_eq_take_or_overflow hk base s c rest with ⟨extra, next, more, h⟩ | ⟨-, h⟩
    · rw [hstep] at h
      cases h
    · rw [hstep] at h
      cases h
  case take =>
    intro s c rest done extra next more hstep ih hs
    obtain ⟨cs, after, rfl, rfl, hreads⟩ := reads_of_step hk hs hstep
    rw [List.take_left, List.drop_left] at ih ⊢
    exact read s c cs after done next more _ hs hreads (ih ((hreads.sound hs).advance _))

end SqlFerry.Splitter
