import SqlFerry.Proofs.Splitter.Lexemes
import SqlFerry.Proofs.Splitter.Shift
import SqlFerry.Proofs.Text.Blanks

/-!
# Bodies of triggers

Triggers whose bodies are made of statements, blocks and `CASE` expressions nested in each other. A
splitter counts the blocks that are open and lets the word after an `END` say what it has closed, so
it keeps a trigger whole and goes on behind it as at the front of a script, if no word that could
follow an `END` to say so begins what is behind an expression or a block.
-/

namespace SqlFerry.Splitter

open Text

/-! ## Bodies -/

/-- The words that begin a statement with an `END` and the same word at its end. -/
def qualifiers : List String :=
  ["IF", "LOOP", "WHILE", "REPEAT", "CASE"]

def Lexeme.IsPlain (l : Lexeme) : Prop :=
  l ≠ .semicolon ∧ ∀ w ∈ l.word?, w ∉ ["BEGIN", "CASE", "END"]

instance (l : Lexeme) : Decidable l.IsPlain :=
  inferInstanceAs (Decidable (_ ∧ ∀ w ∈ l.word?, w ∉ _))

inductive Place where
  | expression
  | item
  | body
  deriving DecidableEq

/-- Whether lexemes are well nested. What is behind the `END` of an expression or of a block, up to
the end of its item, is such that `follow` holds of it. A statement with an `END` of its own may
have more behind its last semicolon, as a `REPEAT` has its `UNTIL`. -/
inductive Nested (follow : List Lexeme → Prop) : Place → List Lexeme → Prop where
  | nil {p : Place} (hp : p ≠ .body) : Nested follow p []
  | plain {p : Place} (hp : p ≠ .body) {l : Lexeme} {ls : List Lexeme} (hl : l.IsPlain)
    (h : Nested follow p ls) : Nested follow p (l :: ls)
  | choice {p : Place} (hp : p ≠ .body) {opening closing : Lexeme} {inner ls : List Lexeme}
    (ho : opening.word? = some "CASE") (hi : Nested follow .expression inner)
    (hc : closing.word? = some "END") (hf : follow ls) (h : Nested follow p ls) :
    Nested follow p (opening :: (inner ++ closing :: ls))
  | block {opening closing : Lexeme} {inner ls : List Lexeme}
    (ho : opening.word? = some "BEGIN") (hi : Nested follow .body inner)
    (hc : closing.word? = some "END") (hf : follow ls) (h : Nested follow .item ls) :
    Nested follow .item (opening :: (inner ++ closing :: ls))
  | statement {w : String} (hw : w ∈ qualifiers) {opening closing again : Lexeme}
    {inner tail gap ls : List Lexeme} (ho : opening.word? = some w)
    (hi : Nested follow .body inner) (ht : Nested follow .item tail)
    (hc : closing.word? = some "END") (hgap : ∀ l ∈ gap, l.isBlank = true)
    (ha : again.word? = some w) (h : Nested follow .item ls) :
    Nested follow .item (opening :: (inner ++ (tail ++ closing :: (gap ++ again :: ls))))
  | blanks {gap : List Lexeme} (hgap : ∀ l ∈ gap, l.isBlank = true) : Nested follow .body gap
  | items {ls more : List Lexeme} (h : Nested follow .item ls) (hmore : Nested follow .body more) :
    Nested follow .body (ls ++ .semicolon :: more)

inductive IsTrigger (follow : List Lexeme → Prop) : List Lexeme → Prop where
  | intro {create trigger opening closing : Lexeme} {gap header inner : List Lexeme}
    (hc : create.word? = some "CREATE") (hgap : ∀ l ∈ gap, l.isBlank = true)
    (ht : trigger.word? = some "TRIGGER") (hh : Nested follow .expression header)
    (ho : opening.word? = some "BEGIN") (hi : Nested follow .body inner)
    (he : closing.word? = some "END") :
    IsTrigger follow (create :: (gap ++ trigger :: (header ++ opening :: (inner ++ [closing]))))

/-- Whether the first word, if there is one, does not look as if it belonged to an `END` before. -/
def Clear (ls : List Lexeme) : Prop :=
  ∀ w ∈ ls.findSome? Lexeme.word?, w ∉ qualifiers

instance (ls : List Lexeme) : Decidable (Clear ls) :=
  inferInstanceAs (Decidable (∀ w ∈ ls.findSome? Lexeme.word?, w ∉ qualifiers))

/-! ## Words and blocks -/

/-- Whether a draft is that deep in the blocks of a routine; the block that a pending `END` may have
closed counts no more. -/
structure Draft.InBlocks (d : Draft) (depth : Nat) (pending routine : Bool) : Prop where
  compound : d.compound = some true
  pendingEnd : d.pendingEnd = pending
  depth : d.depth = depth + pending.toNat
  routine : routine = true → d.routine = true

namespace Draft.InBlocks

variable {d : Draft} {e : Nat} {p r : Bool} {w : String}

theorem readHeader (h : d.InBlocks e p r) (w : String) : (d.readHeader w).InBlocks e p r := by
  unfold Draft.readHeader
  split
  · refine ⟨?_, h.pendingEnd, h.depth, h.routine⟩
    simp only [h.compound]
  · exact h

/-- Unless the word says what a pending `END` has closed, that has been a block. -/
theorem exists_openBlock (h : d.InBlocks e p r) (hp : p = true → w ∉ qualifiers) :
    ∃ d' : Draft, d'.InBlocks e false r ∧ d.nest w = d'.openBlock w := by
  have h := h.readHeader w
  unfold Draft.nest
  generalize d.readHeader w = d at h
  rw [if_neg (by simp [h.compound]), h.pendingEnd]
  cases p with
  | false => exact ⟨d, h, rfl⟩
  | true =>
    have hw := hp rfl
    simp only [qualifiers, List.mem_cons, List.not_mem_nil, or_false, not_or] at hw
    refine ⟨{ d with pendingEnd := false, depth := d.depth - 1 },
      ⟨h.compound, rfl, ?_, h.routine⟩, ?_⟩
    · rw [h.depth]
      rfl
    · simp [hw]

theorem plain (h : d.InBlocks e p r) (hw : w ∉ ["BEGIN", "CASE", "END"])
    (hp : p = true → w ∉ qualifiers) : (d.nest w).InBlocks e false r := by
  obtain ⟨d', h', hnest⟩ := h.exists_openBlock hp
  simp only [List.mem_cons, List.not_mem_nil, or_false, not_or] at hw
  have hopen : d'.openBlock w = d' := by simp [Draft.openBlock, hw]
  rwa [hnest, hopen]

theorem opens (h : d.InBlocks e p r) (hw : w ∈ ["BEGIN", "CASE"]) (hp : p = true → w ≠ "CASE")
    (r' : Bool) : (d.nest w).InBlocks (e + 1) false r' := by
  have hqualifier : p = true → w ∉ qualifiers := by
    intro hpending
    simp only [List.mem_cons, List.not_mem_nil, or_false] at hw
    rcases hw with rfl | rfl
    · decide
    · exact absurd rfl (hp hpending)
  obtain ⟨d', h', hnest⟩ := h.exists_openBlock hqualifier
  have hopen : d'.openBlock w = { d' with depth := d'.depth + 1, routine := true } := by
    simp only [List.mem_cons, List.not_mem_nil, or_false] at hw
    rcases hw with rfl | rfl <;> rfl
  rw [hnest, hopen]
  exact ⟨h'.compound, h'.pendingEnd, congrArg (· + 1) h'.depth, fun _ => rfl⟩

theorem closes (h : d.InBlocks (e + 1) p r) : (d.nest "END").InBlocks e true r := by
  obtain ⟨d', h', hnest⟩ := h.exists_openBlock (w := "END") fun _ => by decide
  rw [hnest]
  exact ⟨h'.compound, rfl, h'.depth, h'.routine⟩

/-- The word behind the `END` of a statement: only one of `CASE` has closed a block. -/
theorem qualifies (h : d.InBlocks e true r) (hw : w ∈ qualifiers) :
    (d.nest w).InBlocks (if w = "CASE" then e else e + 1) false r := by
  have h := h.readHeader w
  unfold Draft.nest
  generalize d.readHeader w = d at h
  rw [if_neg (by simp [h.compound]), h.pendingEnd]
  simp only [qualifiers, List.mem_cons, List.not_mem_nil, or_false] at hw
  rcases hw with rfl | rfl | rfl | rfl | rfl
  case inr.inr.inr.inr =>
    refine ⟨h.compound, rfl, ?_, h.routine⟩
    change d.depth - 1 = e
    rw [h.depth]
    rfl
  all_goals exact ⟨h.compound, rfl, h.depth, h.routine⟩

/-- A semicolon within blocks ends nothing but what a pending `END` has closed. -/
theorem settle (h : d.InBlocks e p r) :
    d.settle.2 = decide (e = 0) ∧ d.settle.1.InBlocks e false r := by
  unfold Draft.settle
  rw [if_neg (by simp [h.compound]), h.pendingEnd]
  cases p with
  | false =>
    refine ⟨?_, h⟩
    change (d.depth == 0) = _
    rw [h.depth]
    rfl
  | true =>
    have hdepth : d.depth - 1 = e := by
      rw [h.depth]
      rfl
    refine ⟨?_, h.compound, rfl, hdepth, h.routine⟩
    change (d.depth - 1 == 0) = _
    rw [hdepth]
    rfl

end Draft.InBlocks

/-! ## Bodies are read as they are nested -/

structure Draft.Reads (d : Draft) (ls : List Lexeme) (depth : Nat) (pending routine : Bool) :
    Prop where
  opens : d.StaysOpen ls
  blocks : (d.read ls).InBlocks depth pending routine

namespace Draft.Reads

variable {d : Draft} {l : Lexeme} {a b ls : List Lexeme} {e e' : Nat} {p p' r r' : Bool}
  {w : String}

theorem nil (h : d.InBlocks e p r) : d.Reads [] e p r :=
  ⟨trivial, h⟩

theorem append (ha : d.Reads a e p r) (hb : (d.read a).Reads b e' p' r') :
    d.Reads (a ++ b) e' p' r' :=
  ⟨(d.staysOpen_append a b).2 ⟨ha.opens, hb.opens⟩, by rw [d.read_append]; exact hb.blocks⟩

/-- A word, and what is behind it. -/
theorem word (hl : l.word? = some w) (h : (d.nest w).Reads ls e p r) :
    d.Reads (l :: ls) e p r := by
  cases l with
  | word c cs =>
    cases hl
    exact ⟨⟨by simp, h.opens⟩, h.blocks⟩
  | quoted m units | symbol c | blank c | semicolon => cases hl

/-- Blanks, and what is behind them. -/
theorem blanks (hgap : ∀ l ∈ a, l.isBlank = true) (h : d.Reads ls e p r) :
    d.Reads (a ++ ls) e p r := by
  induction a with
  | nil => exact h
  | cons l a ih =>
    have hrest := ih fun l hl => hgap l (List.mem_cons_of_mem _ hl)
    have hblank := hgap l List.mem_cons_self
    cases l with
    | blank c => exact ⟨⟨by simp, hrest.opens⟩, hrest.blocks⟩
    | word c cs | quoted m units | symbol c | semicolon => cases hblank

theorem semicolon (h : d.InBlocks (e + 1) p r) : d.Reads [.semicolon] (e + 1) false r := by
  obtain ⟨hclosed, hblocks⟩ := h.settle
  exact ⟨⟨fun _ => by simpa using hclosed, trivial⟩, hblocks⟩

end Draft.Reads

theorem Clear.word {l : Lexeme} {ls : List Lexeme} {w : String} (h : Clear (l :: ls))
    (hl : l.word? = some w) : w ∉ qualifiers :=
  h w (by simp [hl])

theorem Clear.tail {l : Lexeme} {ls : List Lexeme} (h : Clear (l :: ls)) (hl : l.word? = none) :
    Clear ls := by
  unfold Clear at h ⊢
  rwa [List.findSome?_cons, hl] at h

/-- Well-nested lexemes leave as many blocks open as there were before. Only within a block may they
be statements, and no `END` is pending where a sequence of statements begins or ends. -/
theorem Nested.reads {place : Place} {ls : List Lexeme} (h : Nested Clear place ls) {d : Draft}
    {e : Nat} {p r : Bool} (hd : d.InBlocks e p r) (he : place ≠ .expression → e ≠ 0)
    (hp : p = true → place ≠ .body ∧ Clear ls) :
    ∃ p', d.Reads ls e p' r ∧ (place = .body → p' = false) := by
  induction h generalizing d e p r with
  | nil hplace => exact ⟨p, .nil hd, fun hbody => absurd hbody hplace⟩
  | @plain place hplace l ls hl _ ih =>
    cases hword : l.word? with
    | none =>
      have hturn : l.turn d = d := by
        cases l with
        | word c cs => cases hword
        | semicolon => exact absurd rfl hl.1
        | quoted m units | symbol c | blank c => rfl
      obtain ⟨p', hreads, hend⟩ := ih hd he fun hpending => ⟨hplace, (hp hpending).2.tail hword⟩
      rw [← hturn] at hreads
      exact ⟨p', ⟨⟨fun hl' => absurd hl' hl.1, hreads.opens⟩, hreads.blocks⟩, hend⟩
    | some w =>
      have hnest := hd.plain (hl.2 w hword) fun hpending => (hp hpending).2.word hword
      obtain ⟨p', hreads, hend⟩ := ih hnest he (by simp)
      exact ⟨p', hreads.word hword, hend⟩
  | @choice place hplace opening closing inner ls ho _ hc hf _ ihi ih =>
    have hcase : p = true → "CASE" ≠ "CASE" := fun hpending =>
      absurd (by decide) ((hp hpending).2.word ho)
    obtain ⟨p', hinner, -⟩ := ihi (hd.opens (w := "CASE") (by decide) hcase r) (by simp) (by simp)
    obtain ⟨p'', hrest, hend⟩ := ih hinner.blocks.closes he fun _ => ⟨hplace, hf⟩
    exact ⟨p'', .word ho (hinner.append (.word hc hrest)), hend⟩
  | @block opening closing inner ls ho _ hc hf _ ihi ih =>
    obtain ⟨p', hinner, -⟩ :=
      ihi (hd.opens (w := "BEGIN") (by decide) (by simp) r) (by simp) (by simp)
    obtain ⟨p'', hrest, hend⟩ := ih hinner.blocks.closes he fun _ => ⟨by simp, hf⟩
    exact ⟨p'', .word ho (hinner.append (.word hc hrest)), hend⟩
  | @statement w hw opening closing again inner tail gap ls ho _ _ hc hgap ha _ ihi iht ih =>
    have hpending : p = false := by
      rw [← Bool.not_eq_true]
      exact fun hpending => (hp hpending).2.word ho hw
    subst hpending
    obtain ⟨e, rfl⟩ := Nat.exists_eq_succ_of_ne_zero (he (by simp))
    -- only `CASE` opens a block, which its `END` closes before the word is read again
    obtain ⟨e', hopening, hagain⟩ : ∃ e', (d.nest w).InBlocks (e' + 1) false r ∧
        (if w = "CASE" then e' else e' + 1) = e + 1 := by
      by_cases hcase : w = "CASE"
      · exact ⟨e + 1, hd.opens (by simp [hcase]) (by simp) r, if_pos hcase⟩
      · refine ⟨e, hd.plain ?_ (by simp), if_neg hcase⟩
        simp only [qualifiers, List.mem_cons, List.not_mem_nil, or_false] at hw
        rcases hw with rfl | rfl | rfl | rfl | rfl <;> first | decide | exact absurd rfl hcase
    obtain ⟨p', hinner, hdone⟩ := ihi hopening (by simp) (by simp)
    obtain rfl := hdone rfl
    obtain ⟨p', htail, -⟩ := iht hinner.blocks (by simp) (by simp)
    have hclosed := htail.blocks.closes.qualifies hw
    rw [hagain] at hclosed
    obtain ⟨p'', hrest, hend⟩ := ih hclosed (by simp) (by simp)
    exact ⟨p'', .word ho (hinner.append (htail.append (.word hc (.blanks hgap (.word ha hrest))))),
      hend⟩
  | @blanks gap hgap =>
    exact ⟨p, by simpa using Draft.Reads.blanks hgap (.nil hd), fun hbody => by
      rw [← Bool.not_eq_true]
      exact fun hpending => (hp hpending).1 hbody⟩
  | @items ls more _ _ ih ihmore =>
    have hpending : p = false := by
      rw [← Bool.not_eq_true]
      exact fun hpending => (hp hpending).1 rfl
    subst hpending
    obtain ⟨e, rfl⟩ := Nat.exists_eq_succ_of_ne_zero (he (by simp))
    obtain ⟨p', hitem, -⟩ := ih hd (by simp) (by simp)
    have hsemicolon := Draft.Reads.semicolon hitem.blocks
    obtain ⟨p'', hmore, hend⟩ := ihmore hsemicolon.blocks (by simp) (by simp)
    exact ⟨p'', hitem.append (hsemicolon.append hmore), hend⟩

theorem IsTrigger.reads {ls : List Lexeme} (h : IsTrigger Clear ls) :
    ∃ p, ({} : Draft).Reads ls 0 p true := by
  obtain @⟨create, trigger, opening, closing, gap, header, inner, hc, hgap, ht, hh, ho, hi, he⟩ := h
  have hname : ((({} : Draft).nest "CREATE").nest "TRIGGER").InBlocks 0 false false := by
    refine ⟨?_, ?_, ?_, ?_⟩ <;> decide
  obtain ⟨p, hheader, -⟩ := hh.reads hname (by simp) (by simp)
  have hblock := hheader.blocks.opens (w := "BEGIN") (by decide) (by simp) true
  obtain ⟨p', hinner, -⟩ := hi.reads hblock
    (by simp) (by simp)
  exact ⟨true, .word hc (.blanks hgap (.word ht (hheader.append (.word ho (hinner.append
    (.word he (.nil hinner.blocks.closes)))))))⟩

/-! ## Triggers at the front of a script -/

def routineStatement (text : Chars) : Statement where
  text := String.ofList text
  index := 0
  start := 0
  stop := text.length
  line := 1
  terminator := some ";"
  inRoutine := true

def behind (text : Chars) : Shift where
  chars := text.length + 1
  lines := text.count '\n'
  statements := 1

/-- The semicolon behind a statement ends it, and the script goes on as at its front. -/
theorem Spells.scan_semicolon {o : Options} {s : Splitter} {pre : Chars} (h : Spells s pre)
    (hpre : pre ≠ []) (htrim : trim pre = pre) (hclosed : s.draft.settle.2 = true)
    (hroutine : s.draft.routine = true) : ∃ t, ShiftedBy (behind pre) {} t ∧
      ∀ base rest, scan o base true s (';' :: rest) [] =
        scan o base true t rest [routineStatement pre] := by
  obtain ⟨depth, pendingEnd, hsettle⟩ := s.draft.settle_eq
  have hstart : s.draft.start = some 0 := by rw [h.start, if_neg (by simpa using hpre)]
  have htext : s.draft.settle.1.text = pre := by
    rw [hsettle]
    change trim s.draft.out.reverse = pre
    rw [h.out, List.reverse_reverse, htrim]
  obtain ⟨c, cs, rfl⟩ := List.exists_cons_of_ne_nil hpre
  obtain ⟨statistics, hemit⟩ : ∃ statistics,
      ({ s with draft := s.draft.settle.1 } : Splitter).emit (some s.delimiter) =
        ({ s with
            draft := {}, openOffset := 0, openLine := 1, index := s.index + 1, statistics },
          some (routineStatement (c :: cs))) := by
    unfold emit
    simp only [htext, show s.draft.settle.1.start = some 0 by rw [hsettle]; exact hstart]
    refine ⟨_, congrArg _ (congrArg some ?_)⟩
    rw [hsettle]
    simp only [routineStatement, h.index, h.offset, h.firstLine, h.delimiter, hroutine]
    rfl
  refine ⟨{ s with
    draft := {}, openOffset := 0, openLine := 1, index := s.index + 1, statistics }.advance [';'],
    ⟨h.mode, rfl, h.delimiter, ?_, ?_, ?_⟩, fun base rest => ?_⟩
  · simp [Splitter.advance, behind, h.offset]
  · simp [Splitter.advance, behind, h.line]
  · simp [Splitter.advance, behind, h.index]
  · have hdelimiter : startsWith s.delimiter (';' :: rest) = true := by
      simp [h.delimiter, startsWith, after?]
    have hpair : s.draft.settle = (s.draft.settle.1, true) := by rw [← hclosed]
    have hstep : step o base true s ';' rest = .ok (.take 0 { s with
        draft := {}, openOffset := 0, openLine := 1, index := s.index + 1, statistics }
          (some (routineStatement (c :: cs)))) := by
      conv_lhs => rw [step, h.mode]
      dsimp only
      rw [stepNormal, if_pos hdelimiter, if_pos (by rw [h.delimiter]; rfl), hpair]
      dsimp only
      rw [hemit]
    rw [scan_cons, hstep]
    rfl

/-- Whether a statement at the front of a script, with a semicolon behind it, is kept whole: any
script that can be split is split behind it as it is alone. -/
def KeepsWhole (o : Options) (text : Chars) : Prop :=
  ∀ script found, (parse o script).2 = .ok found →
    (parse o (text ++ ';' :: script)).2 =
      .ok (routineStatement text :: found.map (·.shift (behind text)))

theorem IsTrigger.trim_lexText {follow : List Lexeme → Prop} {o : Options} {ls : List Lexeme}
    (h : IsTrigger follow ls) (hwhole : ∀ l ∈ ls, l.IsWhole o) :
    trim (lexText ls) = lexText ls := by
  obtain @⟨create, trigger, opening, closing, gap, header, inner, hc, hgap, ht, hh, ho, hi, he⟩ := h
  have hcreate := Lexeme.not_isBlank_of_word (hwhole create (by simp)) (by simp [hc])
  have hclosing := Lexeme.not_isBlank_of_word (hwhole closing (by simp)) (by simp [he])
  refine trim_eq_self (fun c hhead => hcreate c ?_) fun c hlast => hclosing c ?_
  · rw [lexText_cons, List.head?_append_of_ne_nil _ create.text_ne_nil] at hhead
    exact List.mem_of_head? hhead
  · have hends :
        lexText (create :: (gap ++ trigger :: (header ++ opening :: (inner ++ [closing])))) =
        lexText (create :: (gap ++ trigger :: (header ++ opening :: inner))) ++ closing.text := by
      simp [lexText]
    rw [hends, List.getLast?_append_of_ne_nil _ closing.text_ne_nil] at hlast
    exact List.mem_of_getLast? hlast

/-- A trigger is kept whole, and the script behind it is split as it is alone, if behind the `END`
of an expression or of a block the next word of its item is none that may belong to the `END`. -/
theorem trigger_keepsWhole {o : Options} (ho : o.dialect = some .mysql ∨ o.dialect = some .sqlite)
    {ls : List Lexeme} (h : IsTrigger Clear ls) (hread : Readable o (ls ++ [.semicolon]))
    (hsize : o.maxSize.isExceededBy (lexText ls).length = false) : KeepsWhole o (lexText ls) := by
  obtain ⟨p, hreads⟩ := h.reads
  have hfirst : ∀ l ∈ ls.head?, l.word? = some "CREATE" := by
    cases h
    simpa
  have hne : lexText ls ≠ [] := by
    cases h
    simp [Lexeme.text_ne_nil]
  have htrim := h.trim_lexText fun l hl => hread.isWhole l (List.mem_append_left _ hl)
  intro script found hfound
  have hscan : ∀ base held n, ∃ t, ShiftedBy (behind (lexText ls)) {} t ∧
      scan o base true (({} : Splitter).retag held n) (lexText ls ++ ';' :: script) [] =
        scan o base true t script [routineStatement (lexText ls)] := by
    intro base held n
    obtain ⟨s, hpass, hspells, hblocks⟩ := (Spells.retag held n).passes_all ho hread
      (fun _ l hl => ⟨"CREATE", hfirst l hl, by decide⟩) hreads.opens hsize script
    have hend := hblocks ▸ hreads.blocks
    have hclosed : s.draft.settle.2 = true := by
      have := hend.settle.1
      rwa [Draft.blocks_settle] at this
    obtain ⟨t, ht, hscan⟩ := hspells.scan_semicolon (o := o) hne htrim hclosed (hend.routine rfl)
    exact ⟨t, ht, (hpass base []).trans (hscan base script)⟩
  have hparse : (parse o (lexText ls ++ [';'] ++ script)).2.toOption =
      (parse o script).2.toOption.map fun found =>
        routineStatement (lexText ls) :: found.map (·.shift (behind (lexText ls))) :=
    parse_append fun base held => by
      rw [List.append_assoc, List.singleton_append]
      exact hscan base held _
  rw [List.append_assoc, List.singleton_append, hfound] at hparse
  cases hwhole : (parse o (lexText ls ++ ';' :: script)).2 with
  | error e =>
    rw [hwhole] at hparse
    cases hparse
  | ok found' =>
    rw [hwhole] at hparse
    exact congrArg _ (Option.some.inj hparse)

section Written

variable {follow : List Lexeme → Prop} {p : Place} {a ls : List Lexeme}

theorem Nested.append_of_plain (hp : p ≠ .body) (ha : ∀ l ∈ a, l.IsPlain) (h : Nested follow p ls) :
    Nested follow p (a ++ ls) := by
  induction a with
  | nil => exact h
  | cons l a ih =>
    exact .plain hp (ha l List.mem_cons_self) (ih fun l hl => ha l (List.mem_cons_of_mem _ hl))

theorem Nested.of_plain (hp : p ≠ .body) (ha : ∀ l ∈ a, l.IsPlain) : Nested follow p a := by
  simpa using Nested.append_of_plain hp ha (.nil hp)

def Lexeme.ofString (s : String) : Lexeme :=
  match s.toList with
  | [] => .blank ' '
  | c :: cs =>
    if isWordStart c then .word c cs
    else if c = '\'' then .quoted .single (cs.dropLast.map ([·]))
    else if c = ';' then .semicolon
    else if Text.isBlank c then .blank c
    else .symbol c

def lexemes (ss : List String) : List Lexeme :=
  ss.map Lexeme.ofString

end Written

/-- A trigger with an `IF` statement and a loop in it is kept whole: the `END` of the expression,
the `END IF`, the `END REPEAT` behind a condition and the semicolon in the literal are told
apart. -/
theorem conditional_keepsWhole :
    let o : Options := { dialect := some .mysql }
    let ls := lexemes ["CREATE", " ", "TRIGGER", " ", "t", " ", "BEGIN", " ", "IF", " ", "a", " ",
      "THEN", " ", "SELECT", " ", "CASE", " ", "b", " ", "END", ",", "';'", ";", "REPEAT", " ",
      "c", ";", "UNTIL", " ", "d", " ", "END", " ", "REPEAT", ";", "END", " ", "IF", ";", "END"]
    IsTrigger Clear ls ∧ Readable o (ls ++ [.semicolon]) ∧
      o.maxSize.isExceededBy (lexText ls).length = false ∧ KeepsWhole o (lexText ls) := by
  intro o ls
  have hchoice : Nested Clear .item (lexemes ["CASE", " ", "b", " ", "END", ",", "';'"]) :=
    @Nested.choice _ _ (by decide) _ _ (lexemes [" ", "b", " "]) _ (by decide +kernel)
      (.of_plain (by decide) (by decide +kernel)) (by decide +kernel) (by decide +kernel)
      (.of_plain (by decide) (by decide +kernel))
  have hcalls : Nested Clear .body (lexemes [" ", "c", ";"]) :=
    @Nested.items _ (lexemes [" ", "c"]) _ (.of_plain (by decide) (by decide +kernel))
      (.blanks (by decide))
  have hloop : Nested Clear .item (lexemes ["REPEAT", " ", "c", ";", "UNTIL", " ", "d", " ", "END",
      " ", "REPEAT"]) :=
    @Nested.statement _ "REPEAT" (by decide) _ _ _ _ (lexemes ["UNTIL", " ", "d", " "])
      (lexemes [" "]) _ (by decide +kernel) hcalls (.of_plain (by decide) (by decide +kernel))
      (by decide +kernel) (by decide +kernel) (by decide +kernel) (.nil (by decide))
  have hselect : Nested Clear .body (lexemes [" ", "a", " ", "THEN", " ", "SELECT", " ", "CASE",
      " ", "b", " ", "END", ",", "';'", ";", "REPEAT", " ", "c", ";", "UNTIL", " ", "d", " ", "END",
      " ", "REPEAT", ";"]) :=
    @Nested.items _ (lexemes [" ", "a", " ", "THEN", " ", "SELECT", " "] ++ _) _
      (.append_of_plain (by decide) (by decide +kernel) hchoice)
      (.items hloop (.blanks (by decide)))
  have hif : Nested Clear .item (lexemes ["IF", " ", "a", " ", "THEN", " ", "SELECT", " ", "CASE",
      " ", "b", " ", "END", ",", "';'", ";", "REPEAT", " ", "c", ";", "UNTIL", " ", "d", " ", "END",
      " ", "REPEAT", ";", "END", " ", "IF"]) :=
    @Nested.statement _ "IF" (by decide) _ _ _ _ [] (lexemes [" "]) _ (by decide +kernel) hselect
      (.nil (by decide)) (by decide +kernel) (by decide +kernel) (by decide +kernel)
      (.nil (by decide))
  have hbody : Nested Clear .body (lexemes [" ", "IF", " ", "a", " ", "THEN", " ", "SELECT", " ",
      "CASE", " ", "b", " ", "END", ",", "';'", ";", "REPEAT", " ", "c", ";", "UNTIL", " ", "d",
      " ", "END", " ", "REPEAT", ";", "END", " ", "IF", ";"]) :=
    @Nested.items _ (lexemes [" "] ++ _) _ (.append_of_plain (by decide) (by decide +kernel) hif)
      (.blanks (by decide))
  have htrigger : IsTrigger Clear ls :=
    @IsTrigger.intro _ _ _ _ _ (lexemes [" "]) (lexemes [" ", "t", " "]) _ (by decide +kernel)
      (by decide +kernel) (by decide +kernel) (.of_plain (by decide) (by decide +kernel))
      (by decide +kernel) hbody (by decide +kernel)
  have hread : Readable o (ls ++ [.semicolon]) := by decide +kernel
  have hsize : o.maxSize.isExceededBy (lexText ls).length = false := by decide +kernel
  exact ⟨htrigger, hread, hsize, trigger_keepsWhole (.inl rfl) htrigger hread hsize⟩

/-- Without the condition on what is behind an `END` a trigger may be split: behind that of an
expression the `CASE` of the next one is taken to belong to it. -/
theorem not_trigger_keepsWhole : ¬∀ (o : Options) (ls : List Lexeme),
    (o.dialect = some .mysql ∨ o.dialect = some .sqlite) → IsTrigger (fun _ => True) ls →
    Readable o (ls ++ [.semicolon]) → o.maxSize.isExceededBy (lexText ls).length = false →
      KeepsWhole o (lexText ls) := by
  intro h
  let o : Options := { dialect := some .sqlite }
  let ls := lexemes ["CREATE", " ", "TRIGGER", " ", "t", " ", "DELETE", " ", "ON", " ", "a", " ",
    "BEGIN", " ", "SELECT", " ", "CASE", " ", "WHEN", " ", "1", " ", "THEN", " ", "2", " ", "END",
    ",", "CASE", " ", "WHEN", " ", "3", " ", "THEN", " ", "4", " ", "END", ";", "SELECT", " ", "5",
    ";", "END"]
  have hsecond : Nested (fun _ => True) .item (lexemes [",", "CASE", " ", "WHEN", " ", "3", " ",
      "THEN", " ", "4", " ", "END"]) :=
    @Nested.append_of_plain _ _ (lexemes [","]) _ (by decide) (by decide +kernel)
      (@Nested.choice _ _ (by decide) _ _ (lexemes [" ", "WHEN", " ", "3", " ", "THEN", " ", "4",
        " "]) _ (by decide +kernel) (.of_plain (by decide) (by decide +kernel)) (by decide +kernel)
        trivial (.nil (by decide)))
  have hfirst : Nested (fun _ => True) .item (lexemes ["CASE", " ", "WHEN", " ", "1", " ", "THEN",
      " ", "2", " ", "END", ",", "CASE", " ", "WHEN", " ", "3", " ", "THEN", " ", "4", " ",
      "END"]) :=
    @Nested.choice _ _ (by decide) _ _ (lexemes [" ", "WHEN", " ", "1", " ", "THEN", " ", "2", " "])
      _ (by decide +kernel) (.of_plain (by decide) (by decide +kernel)) (by decide +kernel) trivial
      hsecond
  have hlast : Nested (fun _ => True) .body (lexemes ["SELECT", " ", "5", ";"]) :=
    @Nested.items _ (lexemes ["SELECT", " ", "5"]) _ (.of_plain (by decide) (by decide +kernel))
      (.blanks (by decide))
  have hbody : Nested (fun _ => True) .body (lexemes [" ", "SELECT", " ", "CASE", " ", "WHEN", " ",
      "1", " ", "THEN", " ", "2", " ", "END", ",", "CASE", " ", "WHEN", " ", "3", " ", "THEN", " ",
      "4", " ", "END", ";", "SELECT", " ", "5", ";"]) :=
    @Nested.items _ (lexemes [" ", "SELECT", " "] ++ _) _
      (.append_of_plain (by decide) (by decide +kernel) hfirst) hlast
  have htrigger : IsTrigger (fun _ => True) ls :=
    @IsTrigger.intro _ _ _ _ _ (lexemes [" "]) (lexemes [" ", "t", " ", "DELETE", " ", "ON", " ",
      "a", " "]) _ (by decide +kernel) (by decide +kernel) (by decide +kernel)
      (.of_plain (by decide) (by decide +kernel)) (by decide +kernel) hbody (by decide +kernel)
  have hwhole := h o ls (.inr rfl) htrigger (by decide +kernel) (by decide +kernel) [] [] rfl
  have hsplit : ((parse o (lexText ls ++ [';'])).2.toOption.map List.length) = some 3 := by
    decide +kernel
  rw [hwhole] at hsplit
  cases hsplit

end SqlFerry.Splitter
