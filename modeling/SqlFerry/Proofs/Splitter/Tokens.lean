import SqlFerry.Proofs.Splitter.Groups

/-!
# What stands at a place

Once a script is known to its end, what a splitter reads next outside of quotes and comments is told
by the characters there, but for the strings of PostgreSQL, and so is every piece of a quoted text
or a comment. Here the comments are those that are left out. A step adds the text of what stands
there or refuses it for its size, and in nothing else does a step fail.
-/

namespace SqlFerry.Splitter

open Text

inductive Token where
  | word (others : Chars)
  | blank
  | quote (mark : Mark) (escapes : Bool)
  | executable
  | dollar (tag : Chars)
  | lineComment (marker : Chars)
  | blockComment
  | symbol
  deriving DecidableEq

/-- What begins with `c`, which `rest` follows; `escapes` tells whether a backslash would escape in
a string. -/
def tokenAt (o : Options) (escapes : Bool) (c : Char) (rest : Chars) : Token :=
  if isWordStart c then .word (rest.takeWhile isWordPart)
  else if isBlank c then .blank
  else if c == '\'' then .quote .single escapes
  else if c == '"' then .quote .double o.isMysql
  else if c == '\x60' && o.backticks then .quote .backtick false
  else if c == '[' && o.brackets then .quote .bracket false
  else if c == '-' && rest.head? == some '-' then .lineComment ['-', '-']
  else if c == '/' && rest.head? == some '*' then
    if o.executableComments && rest.tail.head? == some '!' then .executable else .blockComment
  else if c == '#' && o.hashComments then .lineComment ['#']
  else if c == '$' && o.dollarQuotes then
    match dollarTag? rest with
    | some tag => .dollar tag
    | none => .symbol
  else .symbol

namespace Token

def text (c : Char) : Token → Chars
  | word others => c :: others
  | executable => ['/', '*', '!']
  | dollar tag => tag
  | lineComment marker => marker
  | blockComment => ['/', '*']
  | blank | quote _ _ | symbol => [c]

def isText : Token → Bool
  | word _ | quote _ _ | executable | dollar _ | symbol => true
  | blank | lineComment _ | blockComment => false

def read (s : Splitter) (c : Char) (t : Token) : Splitter :=
  let cs := t.text c
  let draft := (s.draft.begin s.offset s.line).push cs
  match t with
  | word _ =>
    let draft := { draft with lastWord := cs, lastWordEnd := some (s.offset + cs.length) }
    { s with draft := draft.nest (upperWord cs) }
  | blank => { s with draft := s.draft.pushBlank c }
  | quote mark escapes => { s.markOpen with draft, mode := .quoted mark escapes }
  | executable => { s.markOpen with draft, mode := .blockComment true }
  | dollar tag =>
    { s.markOpen with draft := { draft with routine := true }, mode := .dollarQuoted tag }
  | lineComment _ => { s.countComment with mode := .lineComment }
  | blockComment => { s.markOpen.countComment with mode := .blockComment false }
  | symbol => { s with draft }

end Token

def Mode.isText : Mode → Bool
  | normal | lineComment => false
  | quoted _ _ | dollarQuoted _ => true
  | blockComment kept => kept

def pieceAt (mode : Mode) (c : Char) (rest : Chars) : Chars × Bool :=
  match mode with
  | .normal => ([c], false)
  | .quoted mark escapes =>
    if escapes && c == '\\' then (c :: rest.take 1, false)
    else if c == mark.closing then
      if rest.head? == some c then ([c, c], false) else ([c], true)
    else ([c], false)
  | .lineComment => ([c], c == '\n')
  | .blockComment _ =>
    if c == '*' && rest.head? == some '/' then (['*', '/'], true) else ([c], false)
  | .dollarQuoted tag => if startsWith tag (c :: rest) then (tag, true) else ([c], false)

def readPiece (s : Splitter) (piece : Chars × Bool) : Splitter :=
  { s with
    mode := if piece.2 then .normal else s.mode
    draft :=
      if s.mode.isText then s.draft.push piece.1 else if piece.2 then s.draft.gap else s.draft }

/-! ## Texts that are too long -/

def overflow (o : Options) (base : Nat) (s : Splitter) : Fault :=
  let d := if s.mode = .normal then s.draft.begin s.offset s.line else s.draft
  .oversized o.maxSize (if d.start.getD 0 = 0 then base else d.start.getD 0) d.line

variable {o : Options} {s t : Splitter} {c : Char} {rest cs : Chars} {base : Nat}

theorem append_eq_ite (o : Options) (base : Nat) (s : Splitter) (cs : Chars) :
    append o base s cs =
      if o.maxSize.isExceededBy (s.draft.size + cs.length) then
        .error (.oversized o.maxSize
          (if s.draft.start.getD 0 = 0 then base else s.draft.start.getD 0) s.draft.line)
      else .ok { s with draft := s.draft.push cs } := by
  have hsize : (s.draft.push cs).size = s.draft.size + cs.length := rfl
  have hstart : (s.draft.push cs).start = s.draft.start := rfl
  have hline : (s.draft.push cs).line = s.draft.line := rfl
  simp only [append, hsize, hstart, hline]
  cases s.draft.start <;> rfl

theorem token_eq_ite (hs : s.mode = .normal) (base : Nat) (cs : Chars) :
    token o base s cs =
      if o.maxSize.isExceededBy (s.draft.size + cs.length) then .error (s.overflow o base)
      else .ok { s with draft := (s.draft.begin s.offset s.line).push cs } := by
  rw [token, overflow, if_pos hs]
  refine (append_eq_ite o base { s with draft := s.draft.begin s.offset s.line } cs).trans ?_
  simp only [Draft.begin_size]

theorem append_eq_overflow (hs : s.mode ≠ .normal) (base : Nat) (cs : Chars) :
    append o base s cs =
      if o.maxSize.isExceededBy (s.draft.size + cs.length) then .error (s.overflow o base)
      else .ok { s with draft := s.draft.push cs } := by
  rw [append_eq_ite, overflow, if_neg hs]

/-! ## Steps -/

def setsDelimiter (o : Options) (s : Splitter) (c : Char) : Token → Bool
  | .word others =>
    o.delimiterDirective && s.draft.start.isNone && upperWord (c :: others) == "DELIMITER"
  | _ => false

theorem token_bind (hs : s.mode = .normal) (base : Nat) (cs : Chars)
    (f : Splitter → Except Fault Move) :
    token o base s cs >>= f =
      if o.maxSize.isExceededBy (s.draft.size + cs.length) then .error (s.overflow o base)
      else f { s with draft := (s.draft.begin s.offset s.line).push cs } := by
  rw [token_eq_ite hs]
  split <;> rfl

theorem append_bind (hs : s.mode ≠ .normal) (base : Nat) (cs : Chars)
    (f : Splitter → Except Fault Move) :
    append o base s cs >>= f =
      if o.maxSize.isExceededBy (s.draft.size + cs.length) then .error (s.overflow o base)
      else f { s with draft := s.draft.push cs } := by
  rw [append_eq_overflow hs]
  split <;> rfl

/-- What a step does with a token: it reads the token, unless this sets the delimiter or makes the
statement too long. -/
def Token.act (o : Options) (base : Nat) (s : Splitter) (c : Char) (rest : Chars) (t : Token) :
    Except Fault Move :=
  if setsDelimiter o s c t then .ok (delimiterLine true s (c :: rest))
  else if t.isText && o.maxSize.isExceededBy (s.draft.size + (t.text c).length) then
    .error (s.overflow o base)
  else .ok (.take ((t.text c).length - 1) (t.read s c) none)

/-- Outside of quotes and comments a splitter acts on the token that stands there. -/
theorem readToken_eq (hk : o.keepComments = false) (hs : s.mode = .normal) (base : Nat) (c : Char)
    (rest : Chars) : readToken o base true s c rest =
      (tokenAt o (stringEscapes o s) c rest).act o base s c rest := by
  have hword : readWord o base true s c rest =
      (Token.word (rest.takeWhile isWordPart)).act o base s c rest := by
    simp only [readWord, Bool.not_true, Bool.and_false, Bool.false_eq_true, if_false,
      token_bind hs]
    rfl
  have hquote (mark : Mark) (escapes : Bool) : openQuote o base s mark escapes c =
      (Token.quote mark escapes).act o base s c rest := by
    rw [openQuote, token_bind (s := s.markOpen) hs]
    rfl
  have hplain : (do return .take 0 (← token o base s [c]) none : Except Fault Move) =
      Token.symbol.act o base s c rest := by
    rw [token_bind hs]
    rfl
  have hline (marker : Chars) : (.ok (openLineComment o s marker) : Except Fault Move) =
      (Token.lineComment marker).act o base s c rest := by
    simp [openLineComment, hk, Token.act, setsDelimiter, Token.isText, Token.read, Token.text,
      countComment]
  have hcomment : (.ok (openPlainComment o s) : Except Fault Move) =
      Token.blockComment.act o base s c rest := by
    simp [openPlainComment, hk, Token.act, setsDelimiter, Token.isText, Token.read, Token.text,
      countComment, markOpen]
  have hblock (after : Chars) : openBlockComment o base true s after =
      (if o.executableComments && after.head? == some '!' then Token.executable
        else .blockComment).act o base s c rest := by
    unfold openBlockComment
    cases o.executableComments with
    | false => exact hcomment
    | true =>
      cases after with
      | nil => exact hcomment
      | cons x after =>
        simp only [if_true, List.head?_cons, Bool.true_and, token_bind (s := s.markOpen) hs]
        by_cases hx : x = '!'
        · subst hx
          rfl
        · simp only [beq_eq_false_iff_ne.2 hx, Option.some_beq_some, Bool.false_eq_true, if_false]
          exact hcomment
  -- Both go through the same cases in the same order.
  unfold readToken tokenAt
  simp only [apply_ite (Token.act o base s c rest), hplain]
  refine if_congr Iff.rfl hword ?_
  refine if_congr Iff.rfl rfl ?_
  refine if_congr Iff.rfl (hquote _ _) ?_
  refine if_congr Iff.rfl (hquote _ _) ?_
  refine if_congr Iff.rfl (hquote _ _) ?_
  refine if_congr Iff.rfl (hquote _ _) ?_
  cases hdash : c == '-' with
  | true =>
    obtain rfl := beq_iff_eq.1 hdash
    cases rest with
    | nil => rfl
    | cons x rest =>
      cases hx : x == '-' with
      | true => simpa [hx, pure, Except.pure] using hline _
      | false => simp [hx]
  | false =>
  cases hslash : c == '/' with
  | true =>
    obtain rfl := beq_iff_eq.1 hslash
    cases rest with
    | nil => rfl
    | cons x rest =>
      cases hx : x == '*' with
      | true => simpa [hx, apply_ite (Token.act o base s '/' (x :: rest))] using hblock rest
      | false => simp [hx]
  | false =>
  simp only [Bool.false_and, Bool.false_eq_true, if_false]
  refine if_congr Iff.rfl (hline _) (if_congr Iff.rfl ?_ rfl)
  cases dollarTag? rest with
  | none => rfl
  | some tag =>
    simp only [token_bind (s := s.markOpen) hs]
    rfl

def actPiece (o : Options) (base : Nat) (s : Splitter) (piece : Chars × Bool) :
    Except Fault Move :=
  if s.mode.isText && o.maxSize.isExceededBy (s.draft.size + piece.1.length) then
    .error (s.overflow o base)
  else .ok (.take (piece.1.length - 1) (s.readPiece piece) none)

/-- A text that goes on behind the characters `cs`. -/
theorem stay_eq (hs : s.mode ≠ .normal) (htext : s.mode.isText = true) (base : Nat) (cs : Chars) :
    (do return .take (cs.length - 1) (← append o base s cs) none : Except Fault Move) =
      s.actPiece o base (cs, false) := by
  rw [append_bind hs, actPiece, htext, Bool.true_and]
  simp [readPiece, htext, pure, Except.pure]

/-- A text that ends with the characters `cs`. -/
theorem close_eq (hs : s.mode ≠ .normal) (htext : s.mode.isText = true) (base : Nat) (cs : Chars) :
    (do return .take (cs.length - 1) { (← append o base s cs) with mode := .normal } none :
      Except Fault Move) = s.actPiece o base (cs, true) := by
  rw [append_bind hs, actPiece, htext, Bool.true_and]
  simp [readPiece, htext, pure, Except.pure]

theorem stepQuoted_eq {mark : Mark} {escapes : Bool} (hmode : s.mode = .quoted mark escapes)
    (base : Nat) (c : Char) (rest : Chars) : stepQuoted o base true s mark escapes c rest =
      s.actPiece o base (pieceAt (.quoted mark escapes) c rest) := by
  have hs : s.mode ≠ .normal := by rw [hmode]; rintro ⟨⟩
  have htext : s.mode.isText = true := by rw [hmode]; rfl
  have hone := stay_eq (o := o) hs htext base [c]
  have htwo (n : Char) := stay_eq (o := o) hs htext base [c, n]
  have hlast := close_eq (o := o) hs htext base [c]
  simp only [List.length_cons, List.length_nil, Nat.add_one_sub_one, Nat.zero_add]
    at hone htwo hlast
  simp only [stepQuoted, pieceAt, apply_ite (s.actPiece o base), hone, htwo, hlast]
  refine if_congr Iff.rfl ?_ (if_congr Iff.rfl ?_ rfl)
  · cases rest <;> rfl
  · cases rest with
    | nil => rfl
    | cons n rest =>
      cases hn : n == c with
      | true => simp [beq_iff_eq.1 hn]
      | false => simp [hn]

theorem stepLineComment_eq (hk : o.keepComments = false) (hmode : s.mode = .lineComment)
    (base : Nat) (c : Char) (rest : Chars) : .ok (stepLineComment o s c) =
      s.actPiece o base (pieceAt .lineComment c rest) := by
  have htext : s.mode.isText = false := by rw [hmode]; rfl
  simp only [stepLineComment, hk, Bool.false_eq_true, if_false, pieceAt, actPiece, htext,
    Bool.false_and, Draft.Holds.pushBlank_gap, readPiece]
  by_cases hend : (c == '\n') = true
  · simp only [hend, if_true]
    rfl
  · simp only [hend]
    rfl

/-- Comments that databases execute are text. -/
theorem stepBlockComment_eq_of_kept (hmode : s.mode = .blockComment true) (base : Nat) (c : Char)
    (rest : Chars) : stepBlockComment o base true s true c rest =
      s.actPiece o base (pieceAt (.blockComment true) c rest) := by
  have hs : s.mode ≠ .normal := by rw [hmode]; rintro ⟨⟩
  have htext : s.mode.isText = true := by rw [hmode]; rfl
  have hone := stay_eq (o := o) hs htext base [c]
  have hlast := close_eq (o := o) hs htext base ['*', '/']
  simp only [List.length_cons, List.length_nil, Nat.add_one_sub_one, Nat.zero_add] at hone hlast
  simp only [stepBlockComment, appendIf, if_true, pieceAt, apply_ite (s.actPiece o base), hone]
  cases hstar : c == '*' with
  | false => rfl
  | true =>
    obtain rfl := beq_iff_eq.1 hstar
    cases rest with
    | nil => rfl
    | cons n rest =>
      cases hn : n == '/' with
      | true =>
        obtain rfl := beq_iff_eq.1 hn
        exact hlast
      | false => simp [hn]

theorem stepBlockComment_eq (hmode : s.mode = .blockComment false) (base : Nat) (c : Char)
    (rest : Chars) : stepBlockComment o base true s false c rest =
      s.actPiece o base (pieceAt (.blockComment false) c rest) := by
  have htext : s.mode.isText = false := by rw [hmode]; rfl
  simp only [stepBlockComment, appendIf, Bool.false_eq_true, if_false, pieceAt, actPiece, htext,
    Bool.false_and, readPiece]
  by_cases hstar : c = '*'
  · subst hstar
    cases rest with
    | nil => rfl
    | cons n rest =>
      by_cases hn : n = '/'
      · subst hn
        rfl
      · simp [hn, bind, Except.bind, pure, Except.pure]
  · simp [hstar, bind, Except.bind, pure, Except.pure]

theorem stepDollarQuoted_eq {tag : Chars} (hmode : s.mode = .dollarQuoted tag) (base : Nat)
    (c : Char) (rest : Chars) : stepDollarQuoted o base true s tag c rest =
      s.actPiece o base (pieceAt (.dollarQuoted tag) c rest) := by
  have hs : s.mode ≠ .normal := by rw [hmode]; rintro ⟨⟩
  have htext : s.mode.isText = true := by rw [hmode]; rfl
  have hone := stay_eq (o := o) hs htext base [c]
  have hlast := close_eq (o := o) hs htext base tag
  simp only [List.length_cons, List.length_nil, Nat.add_one_sub_one, Nat.zero_add] at hone
  simp only [stepDollarQuoted, pieceAt, apply_ite (s.actPiece o base), hone, hlast,
    Bool.not_true, Bool.false_and, Bool.false_eq_true, if_false]

/-- Inside of quotes and comments a splitter acts on the piece that stands there. -/
theorem step_inside (hk : o.keepComments = false) (hs : s.mode ≠ .normal) (base : Nat) (c : Char)
    (rest : Chars) :
    step o base true s c rest = s.actPiece o base (pieceAt s.mode c rest) := by
  unfold step
  cases hmode : s.mode with
  | normal => exact absurd hmode hs
  | quoted mark escapes => exact stepQuoted_eq hmode base c rest
  | lineComment => exact stepLineComment_eq hk hmode base c rest
  | blockComment kept =>
    cases kept with
    | true => exact stepBlockComment_eq_of_kept hmode base c rest
    | false => exact stepBlockComment_eq hmode base c rest
  | dollarQuoted tag => exact stepDollarQuoted_eq hmode base c rest

/-- The draft where `c` stands outside of quotes and comments, and whether the delimiter stands
there and ends the statement. A semicolon that ends none counts for the blocks. -/
def settled (s : Splitter) (c : Char) (rest : Chars) : Draft × Bool :=
  if startsWith s.delimiter (c :: rest) then
    if s.delimiter == [';'] then s.draft.settle else (s.draft, true)
  else (s.draft, false)

def atPlace (s : Splitter) (c : Char) (rest : Chars) : Splitter :=
  { s with draft := (s.settled c rest).1 }

/-- Outside of quotes and comments a splitter ends the statement or acts on the token that stands
there. -/
theorem step_outside (hk : o.keepComments = false) (hs : s.mode = .normal) (base : Nat) (c : Char)
    (rest : Chars) :
    step o base true s c rest =
      let t := s.atPlace c rest
      if (s.settled c rest).2 then
        .ok (.take (s.delimiter.length - 1) (t.emit (some s.delimiter)).1
          (t.emit (some s.delimiter)).2)
      else (tokenAt o (stringEscapes o t) c rest).act o base t c rest := by
  dsimp only
  rw [← readToken_eq hk (s := s.atPlace c rest) hs]
  have hstep : step o base true s c rest = stepNormal o base true s c rest := by
    simp only [step, hs]
  simp only [hstep, stepNormal, atPlace, settled, Bool.not_true, Bool.false_and,
    Bool.false_eq_true, if_false]
  by_cases hd : startsWith s.delimiter (c :: rest) = true
  · simp only [if_pos hd]
    by_cases hsemicolon : (s.delimiter == [';']) = true
    · simp only [if_pos hsemicolon]
      cases s.draft.settle with
      | mk d ends =>
        cases ends with
        | true =>
          rw [beq_iff_eq.1 hsemicolon]
          rfl
        | false => rfl
    · simp only [if_neg hsemicolon, if_true, emit_delimiter]
  · simp only [if_neg hd, Bool.false_eq_true, if_false]

/-! ## The characters that are read -/

theorem eq_of_dollarTag? {tag : Chars} (h : dollarTag? rest = some tag) :
    ∃ after, rest = rest.takeWhile isTagChar ++ '$' :: after ∧
      tag = '$' :: rest.takeWhile isTagChar ++ ['$'] := by
  have hsplit := List.takeWhile_append_dropWhile (p := isTagChar) (l := rest)
  unfold dollarTag? at h
  dsimp only at h
  cases hafter : rest.dropWhile isTagChar with
  | nil =>
    rw [hafter] at h
    cases h
  | cons n after =>
    simp only [hafter, Option.ite_none_left_eq_some, Option.some.injEq, Bool.or_eq_true,
      bne_iff_ne, ne_eq, not_or, not_not] at h
    rw [hafter, h.1.1] at hsplit
    exact ⟨after, hsplit.symm, h.2.symm⟩

/-- What stands at a place are characters at hand, at least one. -/
theorem text_tokenAt (o : Options) (escapes : Bool) (c : Char) (rest : Chars) :
    (tokenAt o escapes c rest).text c <+: c :: rest ∧ (tokenAt o escapes c rest).text c ≠ [] := by
  have hone : [c] <+: c :: rest ∧ [c] ≠ [] := ⟨⟨rest, rfl⟩, by simp⟩
  have htwo (a b : Char) (h : (c == a && rest.head? == some b) = true) : [a, b] <+: c :: rest := by
    simp only [Bool.and_eq_true, beq_iff_eq] at h
    obtain ⟨rfl, hb⟩ := h
    obtain ⟨after, rfl⟩ := List.head?_eq_some_iff.1 hb
    exact ⟨after, rfl⟩
  unfold tokenAt
  split
  · exact ⟨List.cons_prefix_cons.2 ⟨rfl, List.takeWhile_prefix _⟩, by simp [Token.text]⟩
  iterate 5
    split
    · exact hone
  split
  · next h => exact ⟨htwo _ _ h, by simp [Token.text]⟩
  split
  · next h =>
    split
    · next hbang =>
      simp only [Bool.and_eq_true, beq_iff_eq] at h hbang
      obtain ⟨rfl, hstar⟩ := h
      obtain ⟨after, rfl⟩ := List.head?_eq_some_iff.1 hstar
      obtain ⟨after, rfl⟩ := List.head?_eq_some_iff.1 hbang.2
      exact ⟨⟨after, rfl⟩, by simp [Token.text]⟩
    · exact ⟨htwo _ _ h, by simp [Token.text]⟩
  split
  · next h =>
    simp only [Bool.and_eq_true, beq_iff_eq] at h
    obtain ⟨rfl, -⟩ := h
    exact hone
  split
  · next h =>
    simp only [Bool.and_eq_true, beq_iff_eq] at h
    obtain ⟨rfl, -⟩ := h
    split
    · next tag htag =>
      obtain ⟨after, hrest, rfl⟩ := eq_of_dollarTag? htag
      refine ⟨⟨after, ?_⟩, by simp [Token.text]⟩
      conv_rhs => rw [hrest]
      simp [Token.text]
    · exact hone
  · exact hone

/-- The same holds of a piece; a dollar quote has a tag. -/
theorem text_pieceAt {mode : Mode} (hmode : mode ≠ .dollarQuoted []) (c : Char) (rest : Chars) :
    (pieceAt mode c rest).1 <+: c :: rest ∧ (pieceAt mode c rest).1 ≠ [] := by
  have hone : [c] <+: c :: rest ∧ [c] ≠ [] := ⟨⟨rest, rfl⟩, by simp⟩
  cases mode with
  | normal | lineComment => exact hone
  | quoted mark escapes =>
    dsimp only [pieceAt]
    split
    · exact ⟨List.cons_prefix_cons.2 ⟨rfl, List.take_prefix 1 rest⟩, by simp⟩
    · split
      · split
        · next h =>
          obtain ⟨after, rfl⟩ := List.head?_eq_some_iff.1 (beq_iff_eq.1 h)
          exact ⟨⟨after, rfl⟩, by simp⟩
        · exact hone
      · exact hone
  | blockComment kept =>
    dsimp only [pieceAt]
    split
    · next h =>
      simp only [Bool.and_eq_true, beq_iff_eq] at h
      obtain ⟨rfl, hslash⟩ := h
      obtain ⟨after, rfl⟩ := List.head?_eq_some_iff.1 hslash
      exact ⟨⟨after, rfl⟩, by simp⟩
    · exact hone
  | dollarQuoted tag =>
    dsimp only [pieceAt]
    split
    · next h => exact ⟨startsWith_iff.1 h, fun hnil => hmode (congrArg _ hnil)⟩
    · exact hone

end SqlFerry.Splitter
