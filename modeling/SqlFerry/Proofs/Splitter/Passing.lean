import SqlFerry.Proofs.Splitter.Final
import SqlFerry.Proofs.Sql.Quoting

/-!
# Reading one token

Which characters a splitter passes in one token or one comment, and in which state it goes on. In
none of them is a statement completed, and where the size stays within the limit none is refused.
-/

namespace SqlFerry.Splitter

open Text

def Passes (o : Options) (s : Splitter) (cs rest : Chars) (t : Splitter) : Prop :=
  ∀ base done, scan o base true s (cs ++ rest) done = scan o base true t rest done

namespace SizeLimit

variable {l : SizeLimit} {n m : Nat}

theorem isExceededBy_mono (hnm : n ≤ m) (h : l.isExceededBy m = false) :
    l.isExceededBy n = false := by
  unfold isExceededBy at h ⊢
  cases hl : l.bound with
  | none => rfl
  | some b =>
    rw [hl] at h
    simp only [Option.any_some, decide_eq_false_iff_not] at h ⊢
    omega

theorem isExceededBy_mono' (hnm : n ≤ m) (h : l.isExceededBy n = true) :
    l.isExceededBy m = true := by
  rw [← Bool.not_eq_false] at h ⊢
  exact fun hm => h (isExceededBy_mono hnm hm)

end SizeLimit

def Draft.begin (d : Draft) (offset line : Nat) : Draft :=
  if d.start.isNone then { d with start := some offset, line } else d

section Draft

variable (d : Draft) (offset line : Nat) (a b : Chars)

@[simp]
theorem Draft.begin_out : (d.begin offset line).out = d.out := by
  unfold Draft.begin
  split <;> rfl

@[simp]
theorem Draft.begin_size : (d.begin offset line).size = d.size := by
  unfold Draft.begin
  split <;> rfl

@[simp]
theorem Draft.begin_header : (d.begin offset line).header = d.header := by
  unfold Draft.begin
  split <;> rfl

@[simp]
theorem Draft.begin_compound : (d.begin offset line).compound = d.compound := by
  unfold Draft.begin
  split <;> rfl

@[simp]
theorem Draft.begin_routine : (d.begin offset line).routine = d.routine := by
  unfold Draft.begin
  split <;> rfl

@[simp]
theorem Draft.begin_lastWordEnd : (d.begin offset line).lastWordEnd = d.lastWordEnd := by
  unfold Draft.begin
  split <;> rfl

theorem Draft.begin_start : (d.begin offset line).start.isSome = true := by
  unfold Draft.begin
  cases h : d.start <;> simp [h]

theorem Draft.push_push : (d.push a).push b = d.push (a ++ b) := by
  simp [Draft.push, Nat.add_assoc]

end Draft

def goTo (s : Splitter) (mode : Mode) (draft : Draft) (read : Chars) : Splitter :=
  { s with mode, draft }.advance read

section GoTo

variable (s : Splitter) (mode mode' : Mode) (draft draft' : Draft) (a b : Chars)

@[simp]
theorem goTo_mode : (s.goTo mode draft a).mode = mode := rfl

@[simp]
theorem goTo_draft : (s.goTo mode draft a).draft = draft := rfl

@[simp]
theorem goTo_delimiter : (s.goTo mode draft a).delimiter = s.delimiter := rfl

@[simp]
theorem goTo_offset : (s.goTo mode draft a).offset = s.offset + a.length := rfl

theorem goTo_goTo :
    (s.goTo mode draft a).goTo mode' draft' b = s.goTo mode' draft' (a ++ b) := by
  simp [goTo, advance, Nat.add_assoc]

theorem goTo_self : s.goTo s.mode s.draft [] = s := rfl

end GoTo

variable {o : Options} {s t u : Splitter} {a b cs rest : Chars} {c : Char}

namespace Passes

theorem of_step (cs : Chars) (t : Splitter)
    (h : ∀ base, step o base true s c (cs ++ rest) = .ok (.take cs.length t none)) :
    Passes o s (c :: cs) rest (t.advance (c :: cs)) := by
  intro base done
  rw [List.cons_append, scan_cons, h]
  simp [bind, Except.bind]

theorem trans (h : Passes o s a (b ++ rest) t) (h' : Passes o t b rest u) :
    Passes o s (a ++ b) rest u := by
  intro base done
  rw [List.append_assoc, h base done, h' base done]

theorem trans_nil (h : Passes o s a b t) (h' : Passes o t b [] u) : Passes o s (a ++ b) [] u :=
  trans (by rwa [List.append_nil]) h'

theorem nil (s : Splitter) : Passes o s [] rest s :=
  fun _ _ => rfl

end Passes

theorem append_eq (cs : Chars) (base : Nat)
    (h : o.maxSize.isExceededBy (s.draft.size + cs.length) = false) :
    append o base s cs = .ok { s with draft := s.draft.push cs } := by
  have hsize : (s.draft.push cs).size = s.draft.size + cs.length := rfl
  simp only [append, hsize, h, Bool.false_eq_true, if_false]

theorem token_eq (cs : Chars) (base : Nat)
    (h : o.maxSize.isExceededBy (s.draft.size + cs.length) = false) :
    token o base s cs =
      .ok { s with draft := (s.draft.begin s.offset s.line).push cs } := by
  rw [token]
  exact append_eq (s := { s with draft := s.draft.begin s.offset s.line }) cs base
    (by simpa using h)

/-! ## Quoted texts -/

theorem closing_ne_backslash (mark : Mark) : mark.closing ≠ '\\' := by
  cases mark <;> decide

section Quoted

variable {mark : Mark} {escapes : Bool}

theorem passes_unit (h : Sql.InQuotes mark.closing escapes cs) (rest : Chars)
    (hs : s.mode = .quoted mark escapes)
    (hsize : o.maxSize.isExceededBy (s.draft.size + cs.length) = false) :
    Passes o s cs rest (s.goTo s.mode (s.draft.push cs) cs) := by
  cases h with
  | one c hc he =>
    refine .of_step [] { s with draft := s.draft.push [c] } fun base => ?_
    have hesc : (escapes && c == '\\') = false := by
      simpa using he
    simp only [step, hs, stepQuoted, hesc, beq_eq_false_iff_ne.2 hc, append_eq _ _ hsize,
      Bool.false_eq_true, if_false]
    rfl
  | doubled =>
    refine .of_step [mark.closing]
      { s with draft := s.draft.push [mark.closing, mark.closing] } fun base => ?_
    simp only [step, hs, stepQuoted, beq_eq_false_iff_ne.2 (closing_ne_backslash mark),
      Bool.and_false, Bool.false_eq_true, if_false, beq_self_eq_true, if_true, List.cons_append,
      append_eq _ _ hsize]
    rfl
  | escaped c he =>
    refine .of_step [c] { s with draft := s.draft.push ['\\', c] } fun base => ?_
    simp only [step, hs, stepQuoted, he, beq_self_eq_true, Bool.and_self, if_true,
      List.cons_append, append_eq _ _ hsize]
    rfl

theorem passes_quoted {units : List Chars} (draft : Draft) (pre rest : Chars)
    (hunits : ∀ u ∈ units, Sql.InQuotes mark.closing escapes u)
    (hs : s.mode = .quoted mark escapes) (hd : s.draft = draft.push pre)
    (hsize : o.maxSize.isExceededBy (draft.size + (pre ++ units.flatten).length) = false) :
    Passes o s units.flatten rest
      (s.goTo s.mode (draft.push (pre ++ units.flatten)) units.flatten) := by
  induction units generalizing s pre with
  | nil =>
    rw [List.flatten_nil, List.append_nil, ← hd, goTo_self]
    exact .nil s
  | cons u units ih =>
    have hunit := hunits u List.mem_cons_self
    have hsize' : o.maxSize.isExceededBy (s.draft.size + u.length) = false := by
      refine SizeLimit.isExceededBy_mono ?_ hsize
      rw [hd]
      simp only [Draft.push, List.flatten_cons, List.length_append]
      omega
    have first := passes_unit hunit (units.flatten ++ rest) hs hsize'
    rw [hd, Draft.push_push] at first
    have others := ih (s := s.goTo s.mode (draft.push (pre ++ u)) u) (pre ++ u)
      (fun u hu => hunits u (List.mem_cons_of_mem _ hu)) hs rfl
      (by simpa only [List.flatten_cons, List.append_assoc] using hsize)
    rw [goTo_goTo] at others
    rw [List.flatten_cons, ← List.append_assoc]
    exact first.trans others

theorem passes_open (rest : Chars)
    (hopen : ∀ base, step o base true s c rest = openQuote o base s mark escapes c)
    (hsize : o.maxSize.isExceededBy (s.draft.size + 1) = false) :
    Passes o s [c] rest (s.markOpen.goTo (.quoted mark escapes)
      ((s.draft.begin s.offset s.line).push [c]) [c]) := by
  refine .of_step [] { s.markOpen with
    mode := .quoted mark escapes
    draft := (s.draft.begin s.offset s.line).push [c] } fun base => ?_
  rw [List.nil_append, hopen, openQuote, token_eq _ _ hsize]
  rfl

theorem passes_close (rest : Chars) (hs : s.mode = .quoted mark escapes)
    (hrest : rest.head? ≠ some mark.closing)
    (hsize : o.maxSize.isExceededBy (s.draft.size + 1) = false) :
    Passes o s [mark.closing] rest
      (s.goTo .normal (s.draft.push [mark.closing]) [mark.closing]) := by
  refine .of_step [] { s with
    mode := .normal, draft := s.draft.push [mark.closing] } fun base => ?_
  have happend := append_eq [mark.closing] base hsize
  simp only [step, hs, stepQuoted, List.nil_append,
    beq_eq_false_iff_ne.2 (closing_ne_backslash mark), Bool.and_false, Bool.false_eq_true,
    if_false, beq_self_eq_true, if_true, happend]
  cases rest with
  | nil => rfl
  | cons n rest =>
    have hn : (n == mark.closing) = false := by simpa using hrest
    simp only [hn, Bool.false_eq_true, if_false]
    rfl

/-- A text in quotes is passed as a whole, up to a quote that no other follows. -/
theorem passes_enclosed {units : List Chars}
    (hopen : ∀ base after, step o base true s c after = openQuote o base s mark escapes c)
    (hunits : ∀ u ∈ units, Sql.InQuotes mark.closing escapes u)
    (hrest : rest.head? ≠ some mark.closing)
    (hcs : cs = c :: units.flatten ++ [mark.closing])
    (hsize : o.maxSize.isExceededBy (s.draft.size + cs.length) = false) :
    Passes o s cs rest
      (s.markOpen.goTo .normal ((s.draft.begin s.offset s.line).push cs) cs) := by
  have hlength : cs.length = units.flatten.length + 2 := by simp [hcs]
  have hbegin : (s.draft.begin s.offset s.line).size = s.draft.size := Draft.begin_size _ _ _
  have opening := passes_open (o := o) (units.flatten ++ ([mark.closing] ++ rest))
    (fun base => hopen base _) (SizeLimit.isExceededBy_mono (by omega) hsize)
  have body := passes_quoted (o := o) (s := s.markOpen.goTo (.quoted mark escapes)
      ((s.draft.begin s.offset s.line).push [c]) [c])
    (s.draft.begin s.offset s.line) [c] ([mark.closing] ++ rest) hunits rfl rfl
    (SizeLimit.isExceededBy_mono (by
      simp only [List.length_append, List.length_singleton]; omega) hsize)
  rw [goTo_goTo] at body
  have closing := passes_close (o := o) (s := s.markOpen.goTo (.quoted mark escapes)
      ((s.draft.begin s.offset s.line).push ([c] ++ units.flatten)) ([c] ++ units.flatten)) rest
    rfl hrest (SizeLimit.isExceededBy_mono (by
      simp only [goTo_draft, Draft.push, List.length_append, List.length_singleton]; omega) hsize)
  rw [goTo_goTo, goTo_draft, Draft.push_push] at closing
  rw [hcs, ← List.singleton_append (l := units.flatten)]
  exact (opening.trans body).trans closing

end Quoted

/-! ## Words, symbols and blanks -/

/-- The characters that can begin something else than a token of one character, but for the dash,
which does so only before another one. -/
def openers (d : Dialect) : Chars :=
  ['\'', '"', '\x60', '/', '#', '$'] ++ if d = .sqlite then ['['] else []

def Options.isSymbol (o : Options) (c : Char) : Bool :=
  !(c == ';' || isWordStart c || isBlank c || c == '\'' || c == '"' ||
    (c == '\x60' && o.backticks) || (c == '[' && o.brackets) || (c == '#' && o.hashComments) ||
    (c == '$' && o.dollarQuotes))

theorem isWordStart_of_isBlank (hc : isBlank c = true) : isWordStart c = false := by
  have hne : (c == '_') = false := by
    rw [beq_eq_false_iff_ne]
    rintro rfl
    exact absurd hc (by decide)
  have hn : c.val.toNat = c.toNat := rfl
  simp only [isBlank] at hc
  simp only [isWordStart, isAsciiLetter, Char.le_def, UInt32.le_iff_toNat_le, hn, hne]
  split at hc <;> simp at hc ⊢ <;> omega

theorem not_isBlank_of_isTagChar (hc : isTagChar c = true) : isBlank c = false := by
  rw [Bool.eq_false_iff]
  intro hblank
  have hstart := isWordStart_of_isBlank hblank
  rw [isTagChar, hstart, Bool.false_or, isAsciiDigit] at hc
  have hn : c.val.toNat = c.toNat := rfl
  simp only [isBlank, Char.le_def, UInt32.le_iff_toNat_le, hn] at hblank hc
  split at hblank <;> simp at hblank hc <;> omega

section Normal

variable (hs : s.mode = .normal) (hd : s.delimiter = [';'])

include hs hd

theorem step_normal (hc : c ≠ ';') (base : Nat) :
    step o base true s c rest = readToken o base true s c rest := by
  have hstart : startsWith [';'] (c :: rest) = false := by
    simp [startsWith, after?, hc.symm]
  simp only [step, hs, stepNormal, hd, hstart, Bool.false_eq_true, if_false, Bool.not_true,
    Bool.false_and]

theorem passes_symbol (hc : o.isSymbol c = true) (hdash : c = '-' → rest.head? ≠ some '-')
    (hslash : c = '/' → rest.head? ≠ some '*')
    (hsize : o.maxSize.isExceededBy (s.draft.size + 1) = false) :
    Passes o s [c] rest
      (s.goTo .normal ((s.draft.begin s.offset s.line).push [c]) [c]) := by
  simp only [Options.isSymbol, Bool.not_eq_true', Bool.or_eq_false_iff] at hc
  obtain ⟨⟨⟨⟨⟨⟨⟨⟨hsemicolon, hword⟩, hblank⟩, hsingle⟩, hdouble⟩, hbacktick⟩, hbracket⟩, hhash⟩,
    hdollar⟩ := hc
  refine .of_step [] { s with
    mode := .normal, draft := (s.draft.begin s.offset s.line).push [c] } fun base => ?_
  rw [step_normal hs hd (beq_eq_false_iff_ne.1 hsemicolon)]
  simp only [readToken, hword, hblank, hsingle, hdouble, hbacktick, hbracket, hhash, hdollar,
    Bool.false_eq_true, if_false, token_eq [c] _ hsize, hs]
  split
  · next hc =>
    cases rest with
    | nil => rfl
    | cons n rest =>
      have hn : (n == '-') = false := by simpa using hdash (beq_iff_eq.1 hc)
      simp only [List.nil_append, hn, Bool.false_eq_true, if_false]
      rfl
  · split
    · next hc =>
      cases rest with
      | nil => rfl
      | cons n rest =>
        have hn : (n == '*') = false := by simpa using hslash (beq_iff_eq.1 hc)
        simp only [List.nil_append, hn, Bool.false_eq_true, if_false]
        rfl
    · rfl

theorem passes_blank (hc : isBlank c = true) :
    Passes o s [c] rest (s.goTo .normal (s.draft.pushBlank c) [c]) := by
  have hne : c ≠ ';' := by
    rintro rfl
    exact absurd hc (by decide)
  have hword := isWordStart_of_isBlank hc
  refine .of_step [] { s with
    mode := .normal, draft := s.draft.pushBlank c } fun base => ?_
  rw [step_normal hs hd hne]
  simp only [readToken, hword, hc, Bool.false_eq_true, if_false, if_true, ← hs]
  rfl

/-- A word is passed as a whole; it is then the last word, and counts for the nesting of blocks. -/
theorem passes_word (hc : isWordStart c = true) (hcs : ∀ x ∈ cs, isWordPart x = true)
    (hrest : ∀ x ∈ rest.head?, isWordPart x = false)
    (hdelimiter : s.draft.start = none → upperWord (c :: cs) ≠ "DELIMITER")
    (hsize : o.maxSize.isExceededBy (s.draft.size + (c :: cs).length) = false) :
    Passes o s (c :: cs) rest (s.goTo .normal
      (({ (s.draft.begin s.offset s.line).push (c :: cs) with
        lastWord := c :: cs, lastWordEnd := some (s.offset + (c :: cs).length) } : Draft).nest
          (upperWord (c :: cs))) (c :: cs)) := by
  have hne : c ≠ ';' := by
    rintro rfl
    exact absurd hc (by decide)
  have htake : (cs ++ rest).takeWhile isWordPart = cs := by
    rw [List.takeWhile_append_of_pos hcs]
    cases rest with
    | nil => simp
    | cons x rest => simp [hrest x rfl]
  refine .of_step cs { s with
    mode := .normal
    draft := ({ (s.draft.begin s.offset s.line).push (c :: cs) with
      lastWord := c :: cs, lastWordEnd := some (s.offset + (c :: cs).length) } : Draft).nest
        (upperWord (c :: cs)) } fun base => ?_
  have hdirective : (s.draft.start.isNone && upperWord (c :: cs) == "DELIMITER") = false := by
    cases hstart : s.draft.start with
    | none => simpa using hdelimiter hstart
    | some n => rfl
  rw [step_normal hs hd hne]
  simp only [readToken, hc, if_true, readWord, htake, Bool.not_true, Bool.and_false,
    Bool.false_eq_true, if_false, Bool.and_assoc, hdirective, token_eq _ _ hsize, hs]
  rfl

/-! ## Comments -/

theorem passes_lineComment (hk : o.keepComments = false) (hcs : '\n' ∉ cs) :
    Passes o s (['-', '-'] ++ cs ++ ['\n']) rest (s.countComment.goTo .normal
      (s.draft.gap.pushBlank '\n') (['-', '-'] ++ cs ++ ['\n'])) := by
  have opening : Passes o s ['-', '-'] (cs ++ (['\n'] ++ rest))
      (s.countComment.goTo .lineComment s.draft ['-', '-']) := by
    refine .of_step ['-'] { s.countComment with
      mode := .lineComment, draft := s.draft } fun base => ?_
    rw [step_normal hs hd (by decide)]
    simp [readToken, openLineComment, hk, countComment, isWordStart, isAsciiLetter, isBlank]
    rfl
  have content (cs : Chars) (hcs : '\n' ∉ cs) (t : Splitter) (ht : t.mode = .lineComment)
      (rest : Chars) : Passes o t cs rest (t.goTo t.mode t.draft cs) := by
    induction cs generalizing t with
    | nil => exact .nil t
    | cons c cs ih =>
      have first : Passes o t [c] (cs ++ rest) (t.goTo t.mode t.draft [c]) := by
        refine .of_step [] t fun base => ?_
        have hc : (c == '\n') = false := by
          rw [beq_eq_false_iff_ne]
          rintro rfl
          exact hcs List.mem_cons_self
        simp only [step, ht, stepLineComment, hc, hk, Bool.false_eq_true, if_false]
        rfl
      have others := ih (fun h => hcs (List.mem_cons_of_mem _ h)) (t.goTo t.mode t.draft [c]) ht
      rw [goTo_goTo] at others
      exact first.trans others
  have closing (t : Splitter) (ht : t.mode = .lineComment) :
      Passes o t ['\n'] rest (t.goTo .normal (t.draft.gap.pushBlank '\n') ['\n']) := by
    refine .of_step [] { t with
      mode := .normal, draft := t.draft.gap.pushBlank '\n' } fun base => ?_
    simp only [step, ht, stepLineComment, hk, Bool.false_eq_true, if_false, beq_self_eq_true,
      if_true]
    rfl
  have body := opening.trans (content cs hcs _ rfl (['\n'] ++ rest))
  rw [goTo_goTo] at body
  have whole := body.trans (closing _ rfl)
  rw [goTo_goTo] at whole
  exact whole

theorem passes_blockComment (hk : o.keepComments = false) (hcs : ¬['*', '/'] <:+: cs)
    (hbang : cs.head? ≠ some '!') :
    Passes o s (['/', '*'] ++ cs ++ ['*', '/']) rest (s.markOpen.countComment.goTo .normal
      s.draft.gap (['/', '*'] ++ cs ++ ['*', '/'])) := by
  have opening : Passes o s ['/', '*'] (cs ++ (['*', '/'] ++ rest))
      (s.markOpen.countComment.goTo (.blockComment false) s.draft ['/', '*']) := by
    refine .of_step ['*'] { s.markOpen.countComment with
      mode := .blockComment false, draft := s.draft } fun base => ?_
    rw [step_normal hs hd (by decide)]
    have hplain : openPlainComment o s = .take 1 { s.markOpen.countComment with
        mode := .blockComment false, draft := s.draft } none := by
      simp [openPlainComment, hk, markOpen, countComment]
    have hopen : openBlockComment o base true s (cs ++ (['*', '/'] ++ rest)) =
        .ok (openPlainComment o s) := by
      unfold openBlockComment
      split
      · cases cs with
        | nil => rfl
        | cons c cs =>
          have hc : (c == '!') = false := by simpa using hbang
          simp only [List.cons_append, hc, Bool.false_eq_true, if_false]
          rfl
      · rfl
    have hread : readToken o base true s '/' (['*'] ++ (cs ++ (['*', '/'] ++ rest))) =
        openBlockComment o base true s (cs ++ (['*', '/'] ++ rest)) := by
      simp [readToken, isWordStart, isAsciiLetter, isBlank]
    rw [hread, hopen, hplain]
    rfl
  have content (cs : Chars) (hcs : ¬['*', '/'] <:+: cs) (t : Splitter)
      (ht : t.mode = .blockComment false) (rest : Chars) :
      Passes o t cs (['*', '/'] ++ rest) (t.goTo t.mode t.draft cs) := by
    induction cs generalizing t with
    | nil => exact .nil t
    | cons c cs ih =>
      have first : Passes o t [c] (cs ++ (['*', '/'] ++ rest)) (t.goTo t.mode t.draft [c]) := by
        refine .of_step [] t fun base => ?_
        simp only [step, ht, stepBlockComment, appendIf, List.nil_append]
        split
        · next hc =>
          obtain rfl := beq_iff_eq.1 hc
          -- a slash behind the star would end the comment inside its content
          cases cs with
          | nil => rfl
          | cons n cs =>
            have hn : (n == '/') = false := by
              rw [beq_eq_false_iff_ne]
              rintro rfl
              exact hcs ⟨[], cs, rfl⟩
            simp only [List.cons_append, hn, Bool.false_eq_true, if_false]
            rfl
        · rfl
      have others := ih (fun h => hcs (h.trans (List.suffix_cons c cs).isInfix))
        (t.goTo t.mode t.draft [c]) ht
      rw [goTo_goTo] at others
      exact first.trans others
  have closing (t : Splitter) (ht : t.mode = .blockComment false) :
      Passes o t ['*', '/'] rest (t.goTo .normal t.draft.gap ['*', '/']) := by
    refine .of_step ['/'] { t with
      mode := .normal, draft := t.draft.gap } fun base => ?_
    simp only [step, ht, stepBlockComment, beq_self_eq_true, if_true, List.cons_append]
    rfl
  have body := opening.trans (content cs hcs _ rfl rest)
  rw [goTo_goTo] at body
  have whole := body.trans (closing _ rfl)
  rw [goTo_goTo] at whole
  exact whole

end Normal

end SqlFerry.Splitter
