import SqlFerry.Proofs.Splitter.Passing

/-!
# Lexemes

The words, quoted texts, symbols and blanks that the text of a statement is put together from, in
the dialects without dollar quotes, and how a splitter reads them one after another: it adds their
text to the statement, and their words and semicolons open and close blocks.
-/

namespace SqlFerry.Splitter

open Text

def Mark.opening : Mark → Char
  | bracket => '['
  | m => m.closing

def Options.escapesIn (o : Options) : Mark → Bool
  | .single | .double => o.isMysql
  | .backtick | .bracket => false

/-- A quoted text comes as the units that stand for its characters. -/
inductive Lexeme where
  | word (first : Char) (others : Chars)
  | quoted (mark : Mark) (units : List Chars)
  | symbol (c : Char)
  | blank (c : Char)
  | semicolon
  deriving DecidableEq

namespace Lexeme

def text : Lexeme → Chars
  | word c cs => c :: cs
  | quoted m units => m.opening :: units.flatten ++ [m.closing]
  | symbol c | blank c => [c]
  | semicolon => [';']

def word? : Lexeme → Option String
  | word c cs => some (upperWord (c :: cs))
  | _ => none

def isBlank : Lexeme → Bool
  | blank _ => true
  | _ => false

def IsWhole (o : Options) : Lexeme → Prop
  | word c cs => isWordStart c = true ∧ ∀ x ∈ cs, isWordPart x = true
  | quoted m units => (m = .bracket → o.brackets = true) ∧
    ∀ u ∈ units, Sql.InQuotes m.closing (o.escapesIn m) u
  | symbol c => o.isSymbol c = true
  | blank c => Text.isBlank c = true
  | semicolon => True

instance (o : Options) (l : Lexeme) : Decidable (l.IsWhole o) :=
  match l with
  | word c cs => decidable_of_iff (isWordStart c && cs.all isWordPart) (by simp [IsWhole])
  | quoted m _ => inferInstanceAs (Decidable ((m = .bracket → _) ∧ _))
  | symbol _ | blank _ => inferInstanceAs (Decidable (_ = _))
  | semicolon => inferInstanceAs (Decidable True)

def EndsBefore (next : Option Char) : Lexeme → Prop
  | word _ _ => ∀ x ∈ next, isWordPart x = false
  | quoted m _ => next ≠ some m.closing
  | symbol c => (c = '-' → next ≠ some '-') ∧ (c = '/' → next ≠ some '*')
  | blank _ | semicolon => True

instance (l : Lexeme) (next : Option Char) : Decidable (l.EndsBefore next) :=
  match l with
  | word _ _ => decidable_of_iff (next.all fun x => !isWordPart x)
      (by cases next <;> simp [EndsBefore])
  | quoted m _ => inferInstanceAs (Decidable (next ≠ some m.closing))
  | symbol c => inferInstanceAs
      (Decidable ((c = '-' → next ≠ some '-') ∧ (c = '/' → next ≠ some '*')))
  | blank _ | semicolon => inferInstanceAs (Decidable True)

def turn (l : Lexeme) (d : Draft) : Draft :=
  match l with
  | word c cs => d.nest (upperWord (c :: cs))
  | semicolon => d.settle.1
  | quoted _ _ | symbol _ | blank _ => d

end Lexeme

def lexText (ls : List Lexeme) : Chars :=
  ls.flatMap Lexeme.text

def Readable (o : Options) : List Lexeme → Prop
  | [] => True
  | l :: ls => l.IsWhole o ∧ l.EndsBefore (lexText ls).head? ∧ Readable o ls

instance (o : Options) : (ls : List Lexeme) → Decidable (Readable o ls)
  | [] => inferInstanceAs (Decidable True)
  | _ :: ls =>
    have : Decidable (Readable o ls) := instDecidableReadable o ls
    inferInstanceAs (Decidable (_ ∧ _ ∧ _))

@[simp]
theorem lexText_cons (l : Lexeme) (ls : List Lexeme) : lexText (l :: ls) = l.text ++ lexText ls :=
  rfl

@[simp]
theorem lexText_append (a b : List Lexeme) : lexText (a ++ b) = lexText a ++ lexText b :=
  List.flatMap_append

theorem Lexeme.text_ne_nil (l : Lexeme) : l.text ≠ [] := by
  cases l <;> simp [Lexeme.text]

theorem Readable.isWhole {o : Options} {ls : List Lexeme} (h : Readable o ls) :
    ∀ l ∈ ls, l.IsWhole o := by
  induction ls with
  | nil => simp
  | cons l ls ih => exact List.forall_mem_cons.2 ⟨h.1, ih h.2.2⟩

/-- The characters of a word are no blanks. -/
theorem Lexeme.not_isBlank_of_word {o : Options} {l : Lexeme} (h : l.IsWhole o)
    (hl : l.word?.isSome = true) : ∀ c ∈ l.text, Text.isBlank c = false := by
  cases l with
  | word c cs =>
    refine List.forall_mem_cons.2 ⟨?_, fun x hx => ?_⟩
    · exact not_isBlank_of_isTagChar (by rw [isTagChar, h.1, Bool.true_or])
    · rcases Bool.or_eq_true_iff.1 (h.2 x hx) with htag | hdollar
      · exact not_isBlank_of_isTagChar htag
      · rw [eq_of_beq hdollar]
        decide
  | quoted m units | symbol c | blank c | semicolon => cases hl

/-! ## Blocks -/

def Draft.blocks (d : Draft) : Draft where
  header := d.header
  compound := d.compound
  depth := d.depth
  pendingEnd := d.pendingEnd
  routine := d.routine

section Blocks

variable (d : Draft) (w : String) (offset line : Nat)

theorem Draft.begin_start_eq :
    (d.begin offset line).start = some (d.start.getD offset) := by
  unfold Draft.begin
  cases hstart : d.start <;> simp [hstart]

theorem Draft.begin_line_eq :
    (d.begin offset line).line = if d.start.isNone then line else d.line := by
  unfold Draft.begin
  split <;> rfl

theorem Draft.blocks_begin : (d.begin offset line).blocks = d.blocks := by
  unfold Draft.begin
  split <;> rfl

/-- A word changes nothing but the blocks. -/
theorem Draft.nest_eq : ∃ header compound depth pendingEnd routine,
    d.nest w = { d with header, compound, depth, pendingEnd, routine } := by
  have hheader : ∃ header compound, d.readHeader w = { d with header, compound } := by
    unfold Draft.readHeader
    split
    · exact ⟨_, _, rfl⟩
    · exact ⟨d.header, d.compound, rfl⟩
  have hopen (d : Draft) : ∃ depth pendingEnd routine,
      d.openBlock w = { d with depth, pendingEnd, routine } := by
    unfold Draft.openBlock
    split
    · exact ⟨_, d.pendingEnd, _, rfl⟩
    · split
      · exact ⟨d.depth, _, d.routine, rfl⟩
      · exact ⟨d.depth, d.pendingEnd, d.routine, rfl⟩
  obtain ⟨header, compound, hheader⟩ := hheader
  unfold Draft.nest
  rw [hheader]
  dsimp only
  split
  · exact ⟨header, compound, d.depth, d.pendingEnd, d.routine, rfl⟩
  · split
    · split
      · exact ⟨header, compound, d.depth, false, d.routine, rfl⟩
      · split
        · exact ⟨header, compound, _, false, d.routine, rfl⟩
        · obtain ⟨depth, pendingEnd, routine, hopen⟩ := hopen _
          exact ⟨header, compound, depth, pendingEnd, routine, hopen⟩
    · obtain ⟨depth, pendingEnd, routine, hopen⟩ := hopen _
      exact ⟨header, compound, depth, pendingEnd, routine, hopen⟩

theorem Draft.blocks_openBlock : (d.openBlock w).blocks = d.blocks.openBlock w := by
  unfold Draft.openBlock
  split
  · rfl
  · split <;> rfl

theorem Draft.blocks_nest : (d.nest w).blocks = d.blocks.nest w := by
  have hheader : (d.readHeader w).blocks = d.blocks.readHeader w := by
    simp only [Draft.readHeader, show d.blocks.header = d.header from rfl]
    split <;> rfl
  unfold Draft.nest
  rw [← hheader]
  generalize d.readHeader w = d
  simp only [show d.blocks.compound = d.compound from rfl,
    show d.blocks.pendingEnd = d.pendingEnd from rfl]
  split
  · rfl
  · split
    · split
      · rfl
      · split
        · rfl
        · exact Draft.blocks_openBlock _ w
    · exact Draft.blocks_openBlock d w

/-- A semicolon changes nothing but the blocks. -/
theorem Draft.settle_eq : ∃ depth pendingEnd, d.settle.1 = { d with depth, pendingEnd } := by
  unfold Draft.settle
  split
  · exact ⟨d.depth, d.pendingEnd, rfl⟩
  · split
    · exact ⟨d.depth - 1, false, rfl⟩
    · exact ⟨d.depth, d.pendingEnd, rfl⟩

theorem Draft.blocks_settle : d.blocks.settle = (d.settle.1.blocks, d.settle.2) := by
  unfold Draft.settle
  simp only [show d.blocks.compound = d.compound from rfl,
    show d.blocks.pendingEnd = d.pendingEnd from rfl]
  split
  · rfl
  · split <;> rfl

end Blocks

/-! ## The statement at the front -/

structure Spells (s : Splitter) (pre : Chars) : Prop where
  mode : s.mode = .normal
  delimiter : s.delimiter = [';']
  offset : s.offset = pre.length
  line : s.line = 1 + pre.count '\n'
  index : s.index = 0
  out : s.draft.out = pre.reverse
  size : s.draft.size ≤ pre.length
  start : s.draft.start = if pre.isEmpty then none else some 0
  firstLine : s.draft.line = 1
  afterComment : s.draft.afterComment = false

namespace Spells

variable {o : Options} {s t : Splitter} {pre cs rest : Chars} {l : Lexeme}

theorem retag (held : Chars) (n : Nat) : Spells (({} : Splitter).retag held n) [] :=
  ⟨rfl, rfl, rfl, rfl, rfl, rfl, le_rfl, rfl, rfl, rfl⟩

/-- A token or a blank adds its text, whatever else it changes. -/
theorem add (h : Spells s pre) (hcs : cs ≠ []) {u : Splitter} {d : Draft}
    (hu : u.delimiter = s.delimiter ∧ u.offset = s.offset ∧ u.line = s.line ∧ u.index = s.index)
    (hout : d.out = cs.reverse ++ s.draft.out) (hsize : d.size ≤ s.draft.size + cs.length)
    (hstart : d.start = some (s.draft.start.getD s.offset))
    (hline : d.line = if s.draft.start.isNone then s.line else s.draft.line)
    (hafter : d.afterComment = false) : Spells (u.goTo .normal d cs) (pre ++ cs) where
  mode := rfl
  delimiter := hu.1.trans h.delimiter
  offset := by rw [goTo_offset, hu.2.1, h.offset, List.length_append]
  line := by
    rw [show (u.goTo .normal d cs).line = u.line + cs.count '\n' from rfl, hu.2.2.1, h.line,
      List.count_append, Nat.add_assoc]
  index := hu.2.2.2.trans h.index
  out := by rw [goTo_draft, hout, h.out, List.reverse_append]
  size := by
    have := h.size
    rw [goTo_draft, List.length_append]
    omega
  start := by
    have hempty : (pre ++ cs).isEmpty = false := by simp [hcs]
    rw [goTo_draft, hstart, h.start, h.offset, hempty]
    cases pre <;> rfl
  firstLine := by
    rw [goTo_draft, hline, h.start, h.line, h.firstLine]
    cases pre <;> rfl
  afterComment := hafter

theorem fits (h : Spells s pre) (hsize : o.maxSize.isExceededBy (pre ++ cs).length = false) :
    o.maxSize.isExceededBy (s.draft.size + cs.length) = false := by
  refine SizeLimit.isExceededBy_mono ?_ hsize
  have := h.size
  rw [List.length_append]
  omega

/-- A quoted text opens a quote in the dialects without dollar quotes. -/
theorem step_quoted (h : Spells s pre) (ho : o.dialect = some .mysql ∨ o.dialect = some .sqlite)
    {m : Mark} (hm : m = .bracket → o.brackets = true) (base : Nat) (after : Chars) :
    step o base true s m.opening after = openQuote o base s m (o.escapesIn m) m.opening := by
  have hdollar : stringEscapes o s = o.isMysql := by
    unfold stringEscapes Options.isMysql
    rcases ho with ho | ho <;> rw [ho] <;> rfl
  have hbackticks : o.backticks = true := by
    unfold Options.backticks
    rcases ho with ho | ho <;> rw [ho] <;> rfl
  rw [step_normal h.mode h.delimiter (by cases m <;> decide)]
  cases m with
  | single =>
    simp [readToken, isWordStart, isAsciiLetter, Text.isBlank, Mark.opening, Mark.closing,
      Options.escapesIn, hdollar]
  | double =>
    simp [readToken, isWordStart, isAsciiLetter, Text.isBlank, Mark.opening, Mark.closing,
      Options.escapesIn]
  | backtick =>
    simp [readToken, isWordStart, isAsciiLetter, Text.isBlank, Mark.opening, Mark.closing,
      Options.escapesIn, hbackticks]
  | bracket =>
    simp [readToken, isWordStart, isAsciiLetter, Text.isBlank, Mark.opening, Options.escapesIn,
      hm rfl]

theorem passes_semicolon (h : Spells s pre) (hopen : s.draft.settle.2 = false)
    (hsize : o.maxSize.isExceededBy (s.draft.size + 1) = false) :
    Passes o s [';'] rest
      (s.goTo .normal ((s.draft.settle.1.begin s.offset s.line).push [';']) [';']) := by
  obtain ⟨depth, pendingEnd, hsettle⟩ := s.draft.settle_eq
  refine .of_step [] { s with
    mode := .normal, draft := (s.draft.settle.1.begin s.offset s.line).push [';'] } fun base => ?_
  have hstart : startsWith s.delimiter (';' :: rest) = true := by
    simp [h.delimiter, startsWith, after?]
  have hpair : s.draft.settle = (s.draft.settle.1, false) := by rw [← hopen]
  have hstep : step o base true s ';' rest =
      readToken o base true { s with draft := s.draft.settle.1 } ';' rest := by
    conv_lhs => rw [step, h.mode]
    dsimp only
    rw [stepNormal, if_pos hstart, if_pos (by rw [h.delimiter]; rfl), hpair]
  have hread : readToken o base true { s with draft := s.draft.settle.1 } ';' rest =
      (do return .take 0 (← token o base { s with draft := s.draft.settle.1 } [';']) none) := by
    simp [readToken, isWordStart, isAsciiLetter, Text.isBlank]
  have htoken := token_eq (o := o) (s := { s with draft := s.draft.settle.1 }) [';'] base
    (by rw [hsettle]; exact hsize)
  rw [List.nil_append, hstep, hread, htoken, ← h.mode]
  rfl

/-- One lexeme is passed as a whole. A semicolon must not end the statement, and the first lexeme is
a word that sets no delimiter. -/
theorem passes (h : Spells s pre) (ho : o.dialect = some .mysql ∨ o.dialect = some .sqlite)
    (hl : l.IsWhole o) (hends : l.EndsBefore rest.head?)
    (hfirst : pre = [] → ∃ w ∈ l.word?, w ≠ "DELIMITER")
    (hopen : l = .semicolon → s.draft.settle.2 = false)
    (hsize : o.maxSize.isExceededBy (pre ++ l.text).length = false) :
    ∃ t, Passes o s l.text rest t ∧ Spells t (pre ++ l.text) ∧
      t.draft.blocks = l.turn s.draft.blocks := by
  have hfits := h.fits hsize
  have hbegin := s.draft.blocks_begin s.offset s.line
  cases l with
  | word c cs =>
    have hdelimiter : s.draft.start = none → upperWord (c :: cs) ≠ "DELIMITER" := by
      rw [h.start]
      cases pre with
      | nil =>
        obtain ⟨w, hw, hne⟩ := hfirst rfl
        cases hw
        exact fun _ => hne
      | cons x pre => rintro ⟨⟩
    refine ⟨_, passes_word h.mode h.delimiter hl.1 hl.2 hends hdelimiter hfits, ?_, ?_⟩
    · generalize hd : ({ (s.draft.begin s.offset s.line).push (c :: cs) with
        lastWord := c :: cs, lastWordEnd := some (s.offset + (c :: cs).length) } : Draft) = d
      obtain ⟨header, compound, depth, pendingEnd, routine, hnest⟩ :=
        d.nest_eq (upperWord (c :: cs))
      rw [hnest, ← hd]
      exact h.add (by simp) ⟨rfl, rfl, rfl, rfl⟩ (by simp [Draft.push]) (by simp [Draft.push])
        (s.draft.begin_start_eq ..) (s.draft.begin_line_eq ..) rfl
    · rw [goTo_draft, Draft.blocks_nest, ← hbegin]
      rfl
  | quoted m units =>
    exact ⟨_, passes_enclosed (fun base after => h.step_quoted ho hl.1 base after) hl.2 hends rfl
      hfits, h.add (Lexeme.text_ne_nil _) ⟨rfl, rfl, rfl, rfl⟩ (by simp [Draft.push])
        (by simp [Draft.push]) (s.draft.begin_start_eq ..) (s.draft.begin_line_eq ..) rfl, hbegin⟩
  | symbol c =>
    exact ⟨_, passes_symbol h.mode h.delimiter hl hends.1 hends.2 hfits,
      h.add (Lexeme.symbol c).text_ne_nil ⟨rfl, rfl, rfl, rfl⟩ (by simp [Draft.push, Lexeme.text])
        (by simp [Draft.push, Lexeme.text]) (s.draft.begin_start_eq ..) (s.draft.begin_line_eq ..)
        rfl, hbegin⟩
  | blank c =>
    -- At the front a blank would not be kept, but the first lexeme is a word.
    have hpre : pre ≠ [] := by
      intro hnil
      obtain ⟨w, hw, -⟩ := hfirst hnil
      cases hw
    have hstart : s.draft.start = some 0 := by rw [h.start, if_neg (by simpa using hpre)]
    have hpush : s.draft.pushBlank c =
        { s.draft with out := c :: s.draft.out, trailingSpace := true } :=
      if_neg (by simpa [h.afterComment, h.out] using hpre)
    refine ⟨_, passes_blank h.mode h.delimiter hl, ?_, ?_⟩
    · rw [hpush]
      exact h.add (Lexeme.blank c).text_ne_nil ⟨rfl, rfl, rfl, rfl⟩ rfl (Nat.le_add_right _ _)
        (by rw [hstart]; rfl) (by rw [hstart]; rfl) h.afterComment
    · rw [goTo_draft, hpush]
      rfl
  | semicolon =>
    obtain ⟨depth, pendingEnd, hsettle⟩ := s.draft.settle_eq
    refine ⟨_, h.passes_semicolon (hopen rfl) hfits, ?_, ?_⟩
    · refine h.add Lexeme.semicolon.text_ne_nil ⟨rfl, rfl, rfl, rfl⟩ ?_ ?_
        ((s.draft.settle.1.begin_start_eq ..).trans (by rw [hsettle]))
        ((s.draft.settle.1.begin_line_eq ..).trans (by rw [hsettle])) rfl
      · simp [Draft.push, hsettle, Lexeme.text]
      · simp [Draft.push, hsettle, Lexeme.text]
    · rw [goTo_draft, Lexeme.turn, Draft.blocks_settle]
      exact s.draft.settle.1.blocks_begin ..

end Spells

/-! ## Statements of lexemes -/

/-- The draft that is left of one after lexemes, as far as its blocks are concerned. -/
def Draft.read (d : Draft) (ls : List Lexeme) : Draft :=
  ls.foldl (fun d l => l.turn d) d

/-- Whether no semicolon among the lexemes ends the statement. -/
def Draft.StaysOpen (d : Draft) : List Lexeme → Prop
  | [] => True
  | l :: ls => (l = .semicolon → d.settle.2 = false) ∧ (l.turn d).StaysOpen ls

theorem Draft.read_append (d : Draft) (a b : List Lexeme) :
    d.read (a ++ b) = (d.read a).read b :=
  List.foldl_append

theorem Draft.staysOpen_append (d : Draft) (a b : List Lexeme) :
    d.StaysOpen (a ++ b) ↔ d.StaysOpen a ∧ (d.read a).StaysOpen b := by
  induction a generalizing d with
  | nil => simp [Draft.StaysOpen, Draft.read]
  | cons l a ih =>
    rw [List.cons_append, Draft.StaysOpen, Draft.StaysOpen, ih, and_assoc]
    rfl

/-- The lexemes of a statement are passed one after another, up to the semicolon that ends it. -/
theorem Spells.passes_all {o : Options} {s : Splitter} {pre : Chars} {ls : List Lexeme}
    (h : Spells s pre) (ho : o.dialect = some .mysql ∨ o.dialect = some .sqlite)
    (hread : Readable o (ls ++ [.semicolon]))
    (hfirst : pre = [] → ∀ l ∈ ls.head?, ∃ w ∈ l.word?, w ≠ "DELIMITER")
    (hopen : s.draft.blocks.StaysOpen ls)
    (hsize : o.maxSize.isExceededBy (pre ++ lexText ls).length = false) (rest : Chars) :
    ∃ t, Passes o s (lexText ls) (';' :: rest) t ∧ Spells t (pre ++ lexText ls) ∧
      t.draft.blocks = s.draft.blocks.read ls := by
  induction ls generalizing s pre with
  | nil => exact ⟨s, .nil s, by rwa [lexText, List.flatMap_nil, List.append_nil], rfl⟩
  | cons l ls ih =>
    obtain ⟨hl, hends, hread⟩ := hread
    obtain ⟨hclosed, hopen⟩ := hopen
    rw [lexText_cons, ← List.append_assoc] at hsize
    have hhead : (lexText ls ++ ';' :: rest).head? = (lexText (ls ++ [.semicolon])).head? := by
      rw [lexText_append]
      cases lexText ls <;> rfl
    replace hends : l.EndsBefore (lexText ls ++ ';' :: rest).head? := hhead ▸ hends
    obtain ⟨t, hpass, hspells, hblocks⟩ := h.passes ho hl hends (fun hpre => hfirst hpre l rfl)
      (fun hl => by simpa [Draft.blocks_settle] using hclosed hl)
      (SizeLimit.isExceededBy_mono (by simp) hsize)
    obtain ⟨u, hpass', hspells', hblocks'⟩ := ih hspells hread
      (fun hnil => absurd (List.append_eq_nil_iff.1 hnil).2 l.text_ne_nil)
      (by rw [hblocks]; exact hopen) hsize
    refine ⟨u, hpass.trans hpass', ?_, ?_⟩
    · rwa [lexText_cons, ← List.append_assoc]
    · rw [hblocks', hblocks]
      rfl

end SqlFerry.Splitter
