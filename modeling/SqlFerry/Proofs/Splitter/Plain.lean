import SqlFerry.Proofs.Splitter.Drafts
import SqlFerry.Proofs.Splitter.Pieces

/-!
# Plain text

Text without quotes, comments and semicolons is added to the statement as it stands, but for the
blanks in front of it. It is refused where the statement becomes too long.
-/

namespace SqlFerry.Splitter

open Text

variable {o : Options} {base : Nat} {s t u : Splitter} {c : Char} {a b cs rest : Chars}
  {offset line : Nat}

def IsHarmless (cs : Chars) : Prop :=
  ∀ w ∈ scriptWords cs,
    upperWord w ∉ ["DELIMITER", "FUNCTION", "PROCEDURE", "TRIGGER", "EVENT"]

def inked (cs : Chars) : Nat :=
  cs.countP (!isBlank ·)

def firstInk (offset line : Nat) : Chars → Option (Nat × Nat)
  | [] => none
  | c :: cs =>
    if isBlank c then firstInk (offset + 1) (line + [c].count '\n') cs else some (offset, line)

def begun (s : Splitter) : Option (Nat × Nat) :=
  s.draft.start.map (·, s.draft.line)

/-- A splitter outside of quotes, comments and routines whose statements end at semicolons. -/
structure IsPlain (s : Splitter) : Prop where
  mode : s.mode = .normal
  delimiter : s.delimiter = [';']
  compound : s.draft.compound ≠ some true
  routine : s.draft.routine = false
  afterComment : s.draft.afterComment = false
  order : InOrder s

structure Gathers (s : Splitter) (cs : Chars) (t : Splitter) : Prop where
  offset : t.offset = s.offset + cs.length
  line : t.line = s.line + cs.count '\n'
  index : t.index = s.index
  out : t.draft.out.reverse = trimLeft (s.draft.out.reverse ++ cs)
  size : t.draft.size = s.draft.size + inked cs
  begun : t.begun = s.begun.or (firstInk s.offset s.line cs)

/-! ## Texts -/

theorem firstInk_append (a b : Chars) : firstInk offset line (a ++ b) =
    (firstInk offset line a).or (firstInk (offset + a.length) (line + a.count '\n') b) := by
  induction a generalizing offset line with
  | nil => rfl
  | cons c a ih =>
    have hcount : (c :: a).count '\n' = [c].count '\n' + a.count '\n' := by
      rw [← List.count_append]
      rfl
    rw [List.cons_append, firstInk, firstInk, hcount, List.length_cons, Nat.add_comm a.length,
      ← Nat.add_assoc, ← Nat.add_assoc]
    split
    · exact ih
    · rfl

theorem firstInk_of_blanks (h : ∀ c ∈ cs, isBlank c = true) : firstInk offset line cs = none := by
  induction cs generalizing offset line with
  | nil => rfl
  | cons c cs ih =>
    rw [firstInk, if_pos (h c List.mem_cons_self), ih fun c hc => h c (List.mem_cons_of_mem _ hc)]

theorem inked_append (a b : Chars) : inked (a ++ b) = inked a + inked b :=
  List.countP_append

theorem inked_of_blanks (h : ∀ c ∈ cs, isBlank c = true) : inked cs = 0 :=
  List.countP_eq_zero.2 fun c hc => by simp [h c hc]

theorem inked_trimLeft (cs : Chars) : inked (trimLeft cs) = inked cs := by
  have hsplit := List.takeWhile_append_dropWhile (p := isBlank) (l := cs)
  conv_rhs => rw [← hsplit, inked_append, inked_of_blanks fun c hc => List.mem_takeWhile_imp hc,
    Nat.zero_add]
  rfl

theorem inked_trimRight (cs : Chars) : inked (trimRight cs) = inked cs := by
  rw [trimRight, inked, List.countP_reverse]
  exact (inked_trimLeft cs.reverse).trans List.countP_reverse

theorem inked_trim (cs : Chars) : inked (trim cs) = inked cs := by
  rw [trim, inked_trimRight, inked_trimLeft]

theorem trim_eq_nil_iff : trim cs = [] ↔ inked cs = 0 := by
  constructor
  · intro hnil
    rw [← inked_trim, hnil]
    rfl
  · exact fun hzero => trim_eq_nil fun c hc => by simpa using List.countP_eq_zero.1 hzero c hc

theorem inked_of_ink (h : ∀ c ∈ cs, isBlank c = false) : inked cs = cs.length :=
  List.countP_eq_length.2 fun c hc => by simp [h c hc]

theorem isTagChar_of_isBlank (hc : isBlank c = true) : isTagChar c = false := by
  rw [Bool.eq_false_iff]
  intro htag
  rw [not_isBlank_of_isTagChar htag] at hc
  cases hc

theorem IsHarmless.of_not_tag (h : IsHarmless (c :: cs)) (hc : isTagChar c = false) :
    IsHarmless cs := by
  rw [IsHarmless, scriptWords_cons_of_not_tag hc] at h
  exact fun w hw => h w (List.mem_cons_of_mem _ hw)

theorem IsHarmless.of_blanks (h : IsHarmless (a ++ b)) (ha : ∀ c ∈ a, isBlank c = true) :
    IsHarmless b := by
  induction a with
  | nil => exact h
  | cons c a ih =>
    obtain ⟨hc, ha⟩ := List.forall_mem_cons.1 ha
    exact ih (h.of_not_tag (isTagChar_of_isBlank hc)) ha

theorem IsHarmless.of_word (h : IsHarmless (c :: cs ++ rest)) (hc : isWordStart c = true)
    (hcs : ∀ x ∈ cs, isTagChar x = true) (hrest : ∀ x ∈ rest.head?, isTagChar x = false) :
    upperWord (c :: cs) ∉ ["DELIMITER", "FUNCTION", "PROCEDURE", "TRIGGER", "EVENT"] ∧
      IsHarmless rest := by
  obtain ⟨others, hwords, hothers⟩ := scriptWords_word hc hcs hrest
  rw [IsHarmless, hwords] at h
  refine ⟨h _ List.mem_cons_self, fun w hw => ?_⟩
  rw [hothers] at hw
  rcases List.mem_cons.1 hw with rfl | hw
  · decide
  · exact h w (List.mem_cons_of_mem _ hw)

/-! ## Tokens -/

def Token.IsPlain (c : Char) : Token → Prop
  | word others =>
    upperWord (c :: others) ∉ ["DELIMITER", "FUNCTION", "PROCEDURE", "TRIGGER", "EVENT"]
  | blank | symbol => True
  | _ => False

theorem Token.IsPlain.setsDelimiter {t : Token} (h : t.IsPlain c) :
    setsDelimiter o s c t = false := by
  cases t with
  | word others =>
    have hne : upperWord (c :: others) ≠ "DELIMITER" := by
      intro heq
      exact h (by simp [heq])
    simp [Splitter.setsDelimiter, hne]
  | blank | symbol | quote mark escapes | executable | dollar tag | lineComment marker
  | blockComment => rfl

/-- Words that open no routine leave the draft outside of one. -/
theorem Draft.nest_of_harmless {d : Draft} {w : String} (hd : d.compound ≠ some true)
    (hw : w ∉ ["DELIMITER", "FUNCTION", "PROCEDURE", "TRIGGER", "EVENT"]) :
    (d.nest w).compound ≠ some true ∧ (d.nest w).routine = d.routine := by
  have hopens : ["TRIGGER", "PROCEDURE", "FUNCTION", "EVENT"].contains w = false := by
    simp only [List.mem_cons, List.not_mem_nil, or_false, not_or] at hw
    simp [hw.2]
  have hheader : (d.readHeader w).compound ≠ some true ∧
      (d.readHeader w).routine = d.routine := by
    unfold Draft.readHeader
    split
    · refine ⟨?_, rfl⟩
      dsimp only
      cases hcompound : d.compound with
      | some b =>
        rw [hcompound] at hd
        exact hd
      | none =>
        unfold Draft.detect
        simp only [hopens, Bool.false_eq_true, if_false]
        repeat' split
        all_goals simp
    · exact ⟨hd, rfl⟩
  rw [nest_of_calm hheader.1]
  exact hheader

/-! ## What is gathered -/

theorem Gathers.trans (h : Gathers s a t) (h' : Gathers t b u) : Gathers s (a ++ b) u where
  offset := by rw [h'.offset, h.offset, List.length_append, Nat.add_assoc]
  line := by rw [h'.line, h.line, List.count_append, Nat.add_assoc]
  index := h'.index.trans h.index
  out := by rw [h'.out, h.out, trimLeft_trimLeft_append, List.append_assoc]
  size := by rw [h'.size, h.size, inked_append, Nat.add_assoc]
  begun := by rw [h'.begun, h.begun, h.offset, h.line, firstInk_append, Option.or_assoc]

namespace IsPlain

theorem out_eq_nil_iff (h : IsPlain s) : s.draft.out = [] ↔ s.begun = none := by
  rw [begun, Option.map_eq_none_iff]
  constructor
  · intro hnil
    by_contra hne
    exact h.order.out_ne_nil (Option.ne_none_iff_isSome.1 hne) hnil
  · exact h.order.out_eq_nil

/-- The draft begins with a character that is no blank. -/
theorem head_out (h : IsPlain s) : ∀ c ∈ s.draft.out.reverse.head?, isBlank c = false := by
  rw [List.head?_reverse]
  cases hstart : s.draft.start with
  | none =>
    rw [h.order.out_eq_nil hstart]
    rintro c ⟨⟩
  | some n => exact (h.order.started (by rw [hstart]; rfl)).not_isBlank

theorem gathers_nil (h : IsPlain s) : Gathers s [] s where
  offset := rfl
  line := rfl
  index := rfl
  out := by rw [List.append_nil, trimLeft_eq_self h.head_out]
  size := rfl
  begun := (Option.or_none).symm

/-- A text that begins with no blank. -/
theorem gathers_adds (h : IsPlain s) (hink : ∀ x ∈ c :: cs, isBlank x = false)
    (hadds : s.Adds (c :: cs) t.draft) (hoffset : t.offset = s.offset) (hline : t.line = s.line)
    (hindex : t.index = s.index) : Gathers s (c :: cs) (t.advance (c :: cs)) where
  offset := congrArg (· + _) hoffset
  line := congrArg (· + _) hline
  index := hindex
  out := by
    rw [trimLeft_eq_self]
    · simp [Splitter.advance, hadds.out]
    · cases hout : s.draft.out.reverse with
      | nil => simpa using hink c List.mem_cons_self
      | cons x xs => simpa [hout] using h.head_out
  size := hadds.size.trans (by rw [inked_of_ink hink])
  begun := by
    have hc : ¬isBlank c = true := by simp [hink c List.mem_cons_self]
    change t.draft.start.map (·, t.draft.line) = _
    rw [hadds.start, hadds.line, firstInk, if_neg hc, Splitter.begun]
    cases s.draft.start <;> rfl

theorem gathers_blank (h : IsPlain s) (hc : isBlank c = true) :
    Gathers s [c] (({ s with draft := s.draft.pushBlank c } : Splitter).advance [c]) := by
  have hsize : inked [c] = 0 := inked_of_blanks (by simpa using hc)
  have hfirst : firstInk s.offset s.line [c] = none := firstInk_of_blanks (by simpa using hc)
  rcases s.draft.pushBlank_cases c with ⟨hpush, hskip⟩ | ⟨hne, -, hpush⟩
  · have hnil : s.draft.out = [] := hskip.resolve_right (by rw [h.afterComment]; rintro ⟨⟩)
    refine ⟨rfl, rfl, rfl, ?_, ?_, ?_⟩
    · simp [Splitter.advance, hpush, hnil, trimLeft, hc]
    · rw [hsize]
      simp [Splitter.advance, hpush]
    · rw [hfirst, Option.or_none, Splitter.begun, Splitter.begun, Splitter.advance, hpush]
  · refine ⟨rfl, rfl, rfl, ?_, ?_, ?_⟩
    · have hhead : ∀ x ∈ (s.draft.out.reverse ++ [c]).head?, isBlank x = false := by
        rw [List.head?_append_of_ne_nil _ (by simpa using hne)]
        exact h.head_out
      rw [trimLeft_eq_self hhead]
      simp [Splitter.advance, hpush]
    · rw [hsize]
      simp [Splitter.advance, hpush]
    · rw [hfirst, Option.or_none, Splitter.begun, Splitter.begun, Splitter.advance, hpush]

/-- A token of plain text. -/
theorem read (h : IsPlain s) {t : Token} (hc : c ≠ ';')
    (ht : tokenAt o (stringEscapes o s) c (cs ++ rest) = t) (htext : t.text c = c :: cs)
    (hkind : t.IsPlain c)
    (hfits : t.isText = true → o.maxSize.isExceededBy (s.draft.size + (c :: cs).length) = false) :
    IsPlain ((t.read s c).advance (c :: cs)) ∧
      Gathers s (c :: cs) ((t.read s c).advance (c :: cs)) := by
  have hplace : s.atPlace c (cs ++ rest) = s := atPlace_of_ne hc _
  have hends : (s.settled c (cs ++ rest)).2 = false := by
    rw [settled_of_semicolon h.delimiter, if_neg hc]
  have hreads := Reads.token (o := o) (s := s) t h.mode hends (by rwa [hplace]) htext
    hkind.setsDelimiter hfits
  rw [hplace] at hreads
  have horder := hreads.inOrder h.order
  have hadds (hisText : t.isText = true) := htext ▸ t.read_adds hisText s c
  have hgathers (hisText : t.isText = true) := h.gathers_adds
    (htext ▸ not_isBlank_of_mem_text ht hisText) (hadds hisText) (t.read_offset s c)
    (t.read_line s c) (t.read_index s c)
  cases t with
  | word others =>
    obtain ⟨hcompound, hroutine⟩ := Draft.nest_of_harmless
      (d := { (s.draft.begin s.offset s.line).push (c :: others) with
        lastWord := c :: others, lastWordEnd := some (s.offset + (c :: others).length) })
      (by simpa [Draft.push] using h.compound) hkind
    refine ⟨⟨h.mode, h.delimiter, hcompound, hroutine.trans ?_, (hadds rfl).afterComment, horder⟩,
      hgathers rfl⟩
    simpa [Draft.push] using h.routine
  | symbol =>
    refine ⟨⟨h.mode, h.delimiter, ?_, ?_, rfl, horder⟩, hgathers rfl⟩
    · simpa [Token.read, Draft.push, Splitter.advance] using h.compound
    · simpa [Token.read, Draft.push, Splitter.advance] using h.routine
  | blank =>
    obtain ⟨-, rfl⟩ := List.cons.inj htext
    refine ⟨?_, h.gathers_blank (isBlank_of_tokenAt ht)⟩
    have hdraft : ((Token.blank.read s c).advance [c]).draft = s.draft.pushBlank c := rfl
    rcases s.draft.pushBlank_cases c with ⟨hpush, -⟩ | ⟨-, -, hpush⟩
    · rw [hpush] at hdraft
      exact ⟨h.mode, h.delimiter, hdraft ▸ h.compound, hdraft ▸ h.routine,
        hdraft ▸ h.afterComment, horder⟩
    · refine ⟨h.mode, h.delimiter, ?_, ?_, ?_, horder⟩
      · rw [hdraft, hpush]
        exact h.compound
      · rw [hdraft, hpush]
        exact h.routine
      · rw [hdraft, hpush]
        exact h.afterComment
  | quote mark escapes | executable | dollar tag | lineComment marker | blockComment =>
    exact hkind.elim

end IsPlain

/-! ## What stands in plain text -/

theorem tokenAt_plain (o : Options) (escapes : Bool) (hc : Piece.isPlain c = true) (rest : Chars) :
    tokenAt o escapes c rest =
      if isWordStart c then .word (rest.takeWhile isWordPart)
      else if isBlank c then .blank else .symbol := by
  have hne : ∀ x ∈ ['\'', '"', '\x60', '[', '-', '/', '#', '$'], (c == x) = false := by
    have hnot : ∀ x ∈ ['\'', '"', '\x60', '[', '-', '/', '#', '$'], Piece.isPlain x = false :=
      List.all_iff_forall_prop.1 (by decide)
    intro x hx
    rw [beq_eq_false_iff_ne]
    rintro rfl
    cases hc.symm.trans (hnot c hx)
  simp only [List.forall_mem_cons] at hne
  simp [tokenAt, hne]

theorem isTagChar_of_isWordPart (hc : Piece.isPlain c = true) (h : isWordPart c = true) :
    isTagChar c = true := by
  refine (Bool.or_eq_true_iff.1 h).resolve_right fun hdollar => ?_
  rw [eq_of_beq hdollar] at hc
  exact absurd hc (by decide)

def Fits (o : Options) (s : Splitter) : Prop :=
  s.draft.start.isSome = true → o.maxSize.isExceededBy s.draft.size = false

/-- A plain text is gathered before `rest`, or it makes the statement too long. -/
inductive ReadsPlain (o : Options) (s : Splitter) (cs rest : Chars) : Prop where
  | passes {t : Splitter} (hpass : Passes o s cs rest t) (hplain : IsPlain t)
    (hgathers : Gathers s cs t) (hfits : Fits o t) (hharmless : IsHarmless rest)
  | fails (hink : 0 < inked cs)
    (hexceeds : o.maxSize.isExceededBy (s.draft.size + inked cs) = true)
    (herror : ∀ base done, ∃ offset line,
      scan o base true s (cs ++ rest) done = .error (.oversized o.maxSize offset line))

namespace IsPlain

/-- A token of plain text is gathered, or it makes the statement too long. -/
theorem readsPlain_token (h : IsPlain s) (hk : o.keepComments = false) (hfits : Fits o s)
    {t : Token} (hc : c ≠ ';') (ht : tokenAt o (stringEscapes o s) c (cs ++ rest) = t)
    (htext : t.text c = c :: cs) (hkind : t.IsPlain c) (hharmless : IsHarmless rest) :
    ReadsPlain o s (c :: cs) rest := by
  have hplace : s.atPlace c (cs ++ rest) = s := atPlace_of_ne hc _
  have hends : (s.settled c (cs ++ rest)).2 = false := by
    rw [settled_of_semicolon h.delimiter, if_neg hc]
  have hstep (base : Nat) : step o base true s c (cs ++ rest) =
      if t.isText && o.maxSize.isExceededBy (s.draft.size + (c :: cs).length) then
        .error (s.overflow o base)
      else .ok (.take cs.length (t.read s c) none) := by
    rw [step_outside hk h.mode, hplace]
    dsimp only
    rw [hends, if_neg Bool.false_ne_true, ht, Token.act, hkind.setsDelimiter,
      if_neg Bool.false_ne_true, htext]
    rfl
  by_cases hover : (t.isText && o.maxSize.isExceededBy (s.draft.size + (c :: cs).length)) = true
  · obtain ⟨hisText, hover'⟩ := Bool.and_eq_true_iff.1 hover
    have hlength : inked (c :: cs) = (c :: cs).length :=
      inked_of_ink (htext ▸ not_isBlank_of_mem_text ht hisText)
    refine .fails (by rw [hlength]; exact Nat.succ_pos _) (by rwa [hlength]) fun base done => ?_
    · rw [List.cons_append, scan_cons, hstep base, if_pos hover]
      exact ⟨_, _, rfl⟩
  · have hfits' : t.isText = true →
        o.maxSize.isExceededBy (s.draft.size + (c :: cs).length) = false := by
      intro hisText
      simpa [hisText] using hover
    obtain ⟨hplain, hgathers⟩ := h.read hc ht htext hkind hfits'
    refine .passes (.of_step cs _ fun base => by rw [hstep base, if_neg hover]) hplain hgathers
      (fun hsome => ?_) hharmless
    rw [hgathers.size]
    by_cases hisText : t.isText = true
    · rw [inked_of_ink (htext ▸ not_isBlank_of_mem_text ht hisText)]
      exact hfits' hisText
    · have hblank : ∀ x ∈ c :: cs, isBlank x = true := by
        cases t with
        | blank =>
          obtain ⟨-, rfl⟩ := List.cons.inj htext
          simpa using isBlank_of_tokenAt ht
        | word others | symbol => exact absurd rfl hisText
        | quote mark escapes | executable | dollar tag | lineComment marker | blockComment =>
          exact hkind.elim
      have hbegun := hgathers.begun
      rw [firstInk_of_blanks hblank, Option.or_none] at hbegun
      have hstart : s.draft.start.isSome = true := by
        rw [← Option.isSome_map (f := (·, s.draft.line)), ← Splitter.begun, ← hbegun,
          Splitter.begun, Option.isSome_map]
        exact hsome
      rw [inked_of_blanks hblank]
      exact hfits hstart

end IsPlain

theorem ReadsPlain.append (h : ReadsPlain o s a (b ++ rest))
    (h' : ∀ t, IsPlain t → Fits o t → IsHarmless (b ++ rest) → ReadsPlain o t b rest) :
    ReadsPlain o s (a ++ b) rest := by
  cases h with
  | fails hink hexceeds herror =>
    refine .fails ?_ (SizeLimit.isExceededBy_mono' ?_ hexceeds) fun base done => ?_
    · rw [inked_append]
      omega
    · rw [inked_append]
      omega
    · rw [List.append_assoc]
      exact herror base done
  | @passes t hpass hplain hgathers hfits hharmless =>
    cases h' t hplain hfits hharmless with
    | fails hink hexceeds herror =>
      refine .fails ?_ ?_ fun base done => ?_
      · rw [inked_append]
        omega
      · rwa [hgathers.size, Nat.add_assoc, ← inked_append] at hexceeds
      · rw [List.append_assoc, hpass]
        exact herror base done
    | passes hpass' hplain' hgathers' hfits' hharmless' =>
      exact .passes (hpass.trans hpass') hplain' (hgathers.trans hgathers') hfits' hharmless'

namespace IsPlain

/-- A character that begins no word. -/
theorem readsPlain_single (h : IsPlain s) (hk : o.keepComments = false) (hfits : Fits o s)
    (hc : Piece.isPlain c = true) (hword : isWordStart c = false)
    (hharmless : IsHarmless (c :: rest)) : ReadsPlain o s [c] rest := by
  have hsemicolon : c ≠ ';' := by
    rintro rfl
    exact absurd hc (by decide)
  have hrest : IsHarmless rest := by
    by_cases hdigit : isAsciiDigit c = true
    · rwa [IsHarmless, scriptWords_cons_of_digit hdigit] at hharmless
    · exact hharmless.of_not_tag (by simp [isTagChar, hword, hdigit])
  have ht := tokenAt_plain o (stringEscapes o s) hc rest
  rw [hword, if_neg Bool.false_ne_true] at ht
  by_cases hblank : isBlank c = true
  · rw [if_pos hblank] at ht
    exact h.readsPlain_token hk hfits hsemicolon ht rfl trivial hrest
  · rw [if_neg hblank] at ht
    exact h.readsPlain_token hk hfits hsemicolon ht rfl trivial hrest

/-- A plain text is gathered token by token, where no word of it goes on behind it. -/
theorem readsPlain (h : IsPlain s) (hk : o.keepComments = false) (hfits : Fits o s)
    (hcs : ∀ c ∈ cs, Piece.isPlain c = true) (hharmless : IsHarmless (cs ++ rest))
    (hrest : ∀ x ∈ rest.head?, isWordPart x = false) : ReadsPlain o s cs rest := by
  induction hn : cs.length using Nat.strong_induction_on generalizing s cs with
  | _ n ih =>
    cases cs with
    | nil => exact .passes (fun _ _ => rfl) h h.gathers_nil hfits hharmless
    | cons c cs =>
      obtain ⟨hc, hcs⟩ := List.forall_mem_cons.1 hcs
      by_cases hword : isWordStart c = true
      · obtain ⟨w, after, rfl, hw, hafter⟩ : ∃ w after, cs = w ++ after ∧
            (∀ x ∈ w, isWordPart x = true) ∧ ∀ x ∈ (after ++ rest).head?, isWordPart x = false := by
          refine ⟨_, _, (List.takeWhile_append_dropWhile (p := isWordPart)).symm,
            fun x hx => List.mem_takeWhile_imp hx, ?_⟩
          cases hdrop : cs.dropWhile isWordPart with
          | nil => exact hrest
          | cons x after =>
            rintro _ ⟨⟩
            simpa [hdrop] using
              List.head_dropWhile_not (p := isWordPart) (l := cs) (by simp [hdrop])
        have ht := tokenAt_plain o (stringEscapes o s) hc (w ++ after ++ rest)
        have hstop : (after ++ rest).takeWhile isWordPart = [] := by
          cases hhead : after ++ rest with
          | nil => rfl
          | cons x more => exact List.takeWhile_cons_of_neg (by simp [hafter x (by simp [hhead])])
        rw [if_pos hword, List.append_assoc, List.takeWhile_append_of_pos hw, hstop,
          List.append_nil] at ht
        rw [List.cons_append, List.append_assoc, ← List.cons_append] at hharmless
        obtain ⟨hkind, hharmless⟩ := hharmless.of_word hword
          (fun x hx => isTagChar_of_isWordPart (hcs x (List.mem_append_left _ hx)) (hw x hx))
          fun x hx => (Bool.or_eq_false_iff.1 (hafter x hx)).1
        have hsemicolon : c ≠ ';' := by
          rintro rfl
          exact absurd hc (by decide)
        refine (h.readsPlain_token hk hfits hsemicolon ht rfl hkind hharmless).append
          (a := c :: w) fun t ht hfits hharmless => ?_
        refine ih after.length ?_ ht hfits (fun x hx => hcs x (List.mem_append_right _ hx))
          hharmless rfl
        simp only [List.length_cons, List.length_append] at hn
        omega
      · have hharmless : IsHarmless (c :: (cs ++ rest)) := hharmless
        refine (h.readsPlain_single hk hfits hc (by simpa using hword) hharmless).append
          (a := [c]) fun t ht hfits hharmless => ?_
        exact ih cs.length (by simp [← hn]) ht hfits hcs hharmless rfl

/-- Blanks are gathered whatever stands behind them. -/
theorem readsPlain_blanks (h : IsPlain s) (hk : o.keepComments = false) (hfits : Fits o s)
    (hcs : ∀ c ∈ cs, Piece.isPlain c = true ∧ isBlank c = true)
    (hharmless : IsHarmless (cs ++ rest)) : ReadsPlain o s cs rest := by
  induction cs generalizing s with
  | nil => exact .passes (fun _ _ => rfl) h h.gathers_nil hfits hharmless
  | cons c cs ih =>
    obtain ⟨⟨hc, hblank⟩, hcs⟩ := List.forall_mem_cons.1 hcs
    have hharmless : IsHarmless (c :: (cs ++ rest)) := hharmless
    exact (h.readsPlain_single hk hfits hc (isWordStart_of_isBlank hblank) hharmless).append
      (a := [c]) fun t ht hfits hharmless => ih ht hfits hcs hharmless

/-! ## Statements -/

/-- A semicolon closes the statement. -/
theorem step_semicolon (h : IsPlain s) (hk : o.keepComments = false) (base : Nat) (rest : Chars) :
    step o base true s ';' rest =
      .ok (.take 0 (s.emit (some [';'])).1 (s.emit (some [';'])).2) := by
  have hends : (s.settled ';' rest).2 = true := by
    rw [settled_of_semicolon h.delimiter, if_pos rfl, Draft.settle,
      if_pos (by simpa using h.compound)]
  rw [step_outside hk h.mode, atPlace_of_calm h.compound]
  dsimp only
  rw [hends, if_pos rfl, h.delimiter]
  rfl

theorem next (h : IsPlain s) (terminator : Option Chars) (cs : Chars) :
    IsPlain ((s.emit terminator).1.advance cs) := by
  obtain ⟨statistics, hemit, -⟩ := s.emit_fst terminator
  rw [hemit]
  exact ⟨h.mode, h.delimiter, by rintro ⟨⟩, rfl, rfl, inOrder_of_fresh h.mode rfl⟩

/-- The statement that is closed, if one is under way. -/
theorem emit_snd (h : IsPlain s) (terminator : Option Chars) : (s.emit terminator).2 =
    s.begun.map fun at_ => {
      text := String.ofList (trimRight s.draft.out.reverse), index := s.index, start := at_.1
      stop := s.offset, line := at_.2, terminator := terminator.map String.ofList
      inRoutine := false } := by
  have htext : s.draft.text = trimRight s.draft.out.reverse := by
    rw [Draft.text, trim, trimLeft_eq_self h.head_out]
  cases hstart : s.draft.start with
  | none =>
    rw [begun, hstart, emit, hstart]
    rfl
  | some n =>
    have hne : s.draft.text ≠ [] := by
      intro hnil
      have hzero : inked s.draft.out.reverse = 0 := by
        rw [← inked_trim, ← Draft.text, hnil]
        rfl
      obtain ⟨c, hc, hink⟩ :=
        (Option.any_eq_true _ _).1 (h.order.started (by rw [hstart]; rfl))
      exact List.countP_eq_zero.1 hzero c
        (List.mem_reverse.2 (List.mem_of_getLast? hc)) hink
    rw [emit_snd_of_text hstart hne, begun, hstart, htext, h.routine]
    rfl

end IsPlain

end SqlFerry.Splitter
