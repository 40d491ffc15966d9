import Mathlib.Data.List.DropRight
import SqlFerry.Proofs.Pattern.Words
import SqlFerry.Proofs.Splitter.Plain
import SqlFerry.Proofs.Text.Case
import SqlFerry.Splitter.Lines

/-!
# Gathering lines

A text is cut behind each of its line feeds, where nothing else ends a line. What is gathered and
what is done is never lost by reading further lines. A line that begins a statement and has no word
of a routine or a directive is gathered as it stands, and ends the statement if it ends with a
semicolon.
-/

/-! ## Lines of a text -/

namespace SqlFerry.Text

variable {x cs : Chars}

/-- How a character changes what is known of the text behind it: whether that begins with a line
feed, its first line, and its other lines. -/
def addToLines (c : Char) (known : Bool × Chars × List Chars) : Bool × Chars × List Chars :=
  let (afterFeed, line, done) := known
  let close := if line.isEmpty then done else line :: done
  if c == '\r' && afterFeed then (false, c :: line, done)
  else if isLineEnd c then (c == '\n', [c], close)
  else (false, c :: line, done)

def withLine (lines : Chars × List Chars) : List Chars :=
  if lines.1.isEmpty then lines.2 else lines.1 :: lines.2

theorem linesWithEnds_eq (cs : Chars) :
    linesWithEnds cs = withLine (cs.foldr addToLines (false, [], [])).2 :=
  rfl

theorem addToLines_feed (known : Bool × Chars × List Chars) :
    (addToLines '\n' known).2 = (['\n'], withLine known.2) :=
  rfl

theorem foldr_addToLines (hx : ∀ c ∈ x, isLineEnd c = false) (known : Bool × Chars × List Chars) :
    (x.foldr addToLines known).2 = (x ++ known.2.1, known.2.2) := by
  induction x with
  | nil => rfl
  | cons c x ih =>
    have hc : isLineEnd c = false := hx c List.mem_cons_self
    have hreturn : (c == '\r') = false := by
      rw [beq_eq_false_iff_ne]
      rintro rfl
      exact absurd hc (by decide)
    obtain ⟨hline, hdone⟩ := Prod.ext_iff.1 (ih fun c hc => hx c (List.mem_cons_of_mem _ hc))
    rw [List.foldr_cons]
    simp only [addToLines, hreturn, hc, hline, hdone, Bool.false_and, Bool.false_eq_true, if_false,
      List.cons_append]

/-- A line up to its line feed, and the lines behind it. -/
theorem linesWithEnds_append_feed (hx : ∀ c ∈ x, isLineEnd c = false) (cs : Chars) :
    linesWithEnds (x ++ '\n' :: cs) = (x ++ ['\n']) :: linesWithEnds cs := by
  rw [linesWithEnds_eq, List.foldr_append, foldr_addToLines hx, List.foldr_cons, addToLines_feed,
    withLine, if_neg (by simp)]
  rfl

/-- A last line without a line feed. -/
theorem linesWithEnds_of_forall (hx : ∀ c ∈ x, isLineEnd c = false) (hne : x ≠ []) :
    linesWithEnds x = [x] := by
  rw [linesWithEnds_eq, foldr_addToLines hx, withLine, List.append_nil, if_neg (by simpa using hne)]

/-- The first line, and the lines behind it. -/
theorem exists_linesWithEnds_cons (hcs : ∀ c ∈ cs, c ≠ '\n' → isLineEnd c = false)
    (hne : cs ≠ []) : ∃ x feed rest, cs = x ++ (feed ++ rest) ∧ '\n' ∉ x ∧
      (feed = ['\n'] ∨ feed = [] ∧ rest = []) ∧
      linesWithEnds cs = (x ++ feed) :: linesWithEnds rest := by
  have hsplit := List.takeWhile_append_dropWhile (p := (· != '\n')) (l := cs)
  have hx : '\n' ∉ cs.takeWhile (· != '\n') := fun hmem => by
    simpa using List.mem_takeWhile_imp hmem
  have hends : ∀ c ∈ cs.takeWhile (· != '\n'), isLineEnd c = false := fun c hc =>
    hcs c ((List.takeWhile_prefix _).subset hc) (by
      rintro rfl
      exact hx hc)
  cases hdrop : cs.dropWhile (· != '\n') with
  | nil =>
    rw [hdrop, List.append_nil] at hsplit
    rw [hsplit] at hx hends
    exact ⟨cs, [], [], by simp, hx, .inr ⟨rfl, rfl⟩,
      by rw [List.append_nil, linesWithEnds_of_forall hends hne]; rfl⟩
  | cons c rest =>
    obtain rfl : c = '\n' := by
      simpa [hdrop] using List.head_dropWhile_not (p := (· != '\n')) (l := cs) (by simp [hdrop])
    rw [hdrop] at hsplit
    refine ⟨_, ['\n'], rest, hsplit.symm, hx, .inl rfl, ?_⟩
    conv_lhs => rw [← hsplit]
    exact linesWithEnds_append_feed hends rest

end SqlFerry.Text

namespace SqlFerry.Splitter.Lines

open Text

variable {d : Option Dialect} {s : State} {st : Statement} {raw line cs x y : Chars} {c : Char}

namespace State

def finish (s : State) : List Statement :=
  (if s.gathered.isEmpty then s else s.emit s.offset none).done.reverse

def text (s : State) : Chars :=
  s.gathered.reverse.flatten

/-! ## Ends of statements -/

def body (s : State) (terminator : Option Chars) : Chars :=
  match terminator with
  | some t =>
    if endsWith t (trim s.text) then
      trimRight ((trim s.text).take ((trim s.text).length - t.length))
    else trim s.text
  | none => trim s.text

theorem emit_eq (s : State) (stop : Nat) (terminator : Option Chars) : s.emit stop terminator =
    { s with
      gathered := [], inRoutine := false
      done := if (s.body terminator).isEmpty then s.done else
        { text := String.ofList (s.body terminator), index := s.done.length, start := s.start, stop
          line := s.startLine, terminator := terminator.map String.ofList
          inRoutine := s.inRoutine } :: s.done } := by
  change (if (s.body terminator).isEmpty then
    ({ s with gathered := [], inRoutine := false } : State) else _) = _
  split <;> rfl

theorem trim_semicolon (hy : ∀ c ∈ y, isBlank c = true) :
    trim (x ++ ';' :: y) = trimLeft x ++ [';'] := by
  have hleft : trimLeft (x ++ [';']) = trimLeft x ++ [';'] := by
    rw [trimLeft, List.dropWhile_append]
    split
    · next hnil => rw [trimLeft, List.isEmpty_iff.1 hnil]; rfl
    · rfl
  rw [List.append_cons, trim_append hy, trim, hleft, trimRight_eq_self]
  simpa using show isBlank ';' = false by decide

theorem endsWith_semicolon (x : Chars) : endsWith [';'] (x ++ [';']) = true := by
  simp [endsWith, startsWith, after?]

/-- A text in front of a semicolon that only blanks follow. -/
theorem body_of_semicolon (hs : s.text = x ++ ';' :: y) (hy : ∀ c ∈ y, isBlank c = true) :
    s.body (some [';']) = trim x := by
  rw [body, hs, trim_semicolon hy, if_pos (endsWith_semicolon _)]
  simp [trim]

/-! ## What stays -/

theorem mem_done_emit (h : st ∈ s.done) (stop : Nat) (terminator : Option Chars) :
    st ∈ (s.emit stop terminator).done := by
  rw [emit_eq]
  dsimp only
  split
  · exact h
  · exact List.mem_cons_of_mem _ h

theorem mem_done_gather (h : st ∈ s.done) (raw line : Chars) (lineStart : Nat) :
    st ∈ (s.gather raw line lineStart).done := by
  unfold gather
  dsimp only
  split
  · exact h
  · split
    · exact h
    · exact mem_done_emit (s := { s with gathered := raw :: s.gathered }) h _ _

theorem mem_done_read (h : st ∈ s.done) (d : Option Dialect) (raw : Chars) :
    st ∈ (s.read d raw).done := by
  have hgather {t : State} (ht : t.done = s.done) : st ∈ (t.gather raw (trim raw) s.offset).done :=
    mem_done_gather (ht ▸ h) _ _ _
  unfold read
  dsimp only
  split
  · exact hgather rfl
  split
  · exact h
  split
  · exact h
  split
  · split <;> exact h
  · exact hgather rfl

/-- What is done stays done. -/
theorem mem_finish (h : st ∈ s.done) (d : Option Dialect) (lines : List Chars) :
    st ∈ (lines.foldl (read d) s).finish := by
  induction lines generalizing s with
  | nil =>
    rw [List.foldl_nil, finish, List.mem_reverse]
    split
    · exact h
    · exact mem_done_emit h _ _
  | cons raw lines ih => exact ih (mem_done_read h d raw)

theorem gather_cases (s : State) (raw line : Chars) (lineStart : Nat) :
    s.gather raw line lineStart = { s with gathered := raw :: s.gathered } ∨
      endsWith s.delimiter line = true ∧ ∃ stop, s.gather raw line lineStart =
        ({ s with gathered := raw :: s.gathered } : State).emit stop (some s.delimiter) := by
  unfold gather
  dsimp only
  split
  · exact .inl rfl
  · next hends =>
    split
    · exact .inl rfl
    · exact .inr ⟨by simpa using hends, _, rfl⟩

theorem read_of_gathered (hs : s.gathered ≠ []) (d : Option Dialect) (raw : Chars) :
    s.read d raw =
      ({ s with offset := s.offset + raw.length, number := s.number + 1 } : State).gather
        raw (trim raw) s.offset := by
  have hempty : (!s.gathered.isEmpty) = true := by simpa using hs
  unfold read
  dsimp only
  rw [if_pos hempty]

theorem text_cons (s : State) (raw : Chars) :
    ({ s with gathered := raw :: s.gathered } : State).text = s.text ++ raw := by
  simp [text]

/-- Only the semicolon is left out. -/
theorem inked_text_le (s : State) : inked s.text ≤ inked (s.body (some [';'])) + 1 := by
  rw [body]
  split
  · next hends =>
    obtain ⟨z, hz⟩ := List.reverse_prefix.1 (startsWith_iff.1 hends)
    have hlength : (trim s.text).length - 1 = z.length := by
      rw [← hz]
      simp
    rw [List.length_singleton, hlength, inked_trimRight, ← inked_trim s.text, ← hz, List.take_left,
      inked_append]
    exact Nat.le_refl _
  · rw [inked_trim]
    exact Nat.le_succ _

theorem exists_mem_emit (terminator : Option Chars) (hink : 0 < inked (s.body terminator))
    (stop : Nat) : ∃ st ∈ (s.emit stop terminator).done, st.text.toList = s.body terminator := by
  have hne : (s.body terminator).isEmpty = false := by
    rw [List.isEmpty_eq_false_iff]
    intro hnil
    rw [hnil] at hink
    exact absurd hink (by decide)
  rw [emit_eq]
  dsimp only
  rw [hne, if_neg Bool.false_ne_true]
  exact ⟨_, List.mem_cons_self, String.toList_ofList⟩

/-- What is gathered is part of a statement in the end. -/
theorem exists_mem_finish (hd : s.delimiter = [';']) (hs : s.gathered ≠ [])
    (hink : 0 < inked s.text) (d : Option Dialect) (lines : List Chars) :
    ∃ st ∈ (lines.foldl (read d) s).finish, inked s.text ≤ inked st.text.toList := by
  induction lines generalizing s with
  | nil =>
    have hbody : inked (s.body none) = inked s.text := inked_trim s.text
    obtain ⟨st, hst, htext⟩ := exists_mem_emit none (by rwa [hbody]) s.offset
    refine ⟨st, ?_, by rw [htext, hbody]⟩
    rw [List.foldl_nil, finish, if_neg (by simpa using hs), List.mem_reverse]
    exact hst
  | cons raw lines ih =>
    rw [List.foldl_cons, read_of_gathered hs]
    generalize hplace :
      ({ s with offset := s.offset + raw.length, number := s.number + 1 } : State) = t
    have htext : ({ t with gathered := raw :: t.gathered } : State).text = s.text ++ raw := by
      rw [text_cons, ← hplace]
      rfl
    have hdelimiter : t.delimiter = [';'] := by rw [← hplace, hd]
    rcases t.gather_cases raw (trim raw) s.offset with hgather | ⟨hends, stop, hgather⟩
    · rw [hgather]
      obtain ⟨st, hst, hle⟩ := ih (s := { t with gathered := raw :: t.gathered }) hdelimiter
        (List.cons_ne_nil _ _) (by rw [htext, inked_append]; omega)
      refine ⟨st, hst, le_trans ?_ hle⟩
      rw [htext, inked_append]
      exact Nat.le_add_right _ _
    · rw [hgather]
      have hraw : 0 < inked raw := by
        rw [hdelimiter] at hends
        obtain ⟨z, hz⟩ := List.reverse_prefix.1 (startsWith_iff.1 hends)
        rw [← inked_trim, ← hz, inked_append]
        exact Nat.lt_add_left _ (by decide)
      have hbody := ({ t with gathered := raw :: t.gathered } : State).inked_text_le
      rw [htext, inked_append, ← hdelimiter] at hbody
      obtain ⟨st, hst, hsttext⟩ := exists_mem_emit
        (s := { t with gathered := raw :: t.gathered }) (some t.delimiter) (by omega)
        stop
      refine ⟨st, mem_finish hst d lines, ?_⟩
      rw [hsttext]
      omega

end State

/-! ## Lines without directives and routines -/

def isScriptChar (c : Char) : Bool :=
  Piece.isPlain c || c == ';'

theorem isAscii_of_isScriptChar (hc : isScriptChar c = true) : c.toNat < 128 := by
  have hsymbols : ∀ x ∈ [' ', '\n', '(', ')', ',', '=', '.', '*', '+'], x.toNat < 128 :=
    List.all_iff_forall_prop.1 (by decide)
  simp only [isScriptChar, Piece.isPlain, Bool.or_eq_true, beq_iff_eq, List.contains_iff_mem] at hc
  rcases hc with (htag | hmem) | rfl
  · exact toNat_of_isTagChar htag
  · exact hsymbols c hmem
  · decide

theorem isWord_eq_isTagChar (hc : c.toNat < 128) : isWord c = isTagChar c := by
  rw [isWord, isLetterOrNumber, if_pos hc, isTagChar, isWordStart, Bool.or_assoc, Bool.or_assoc,
    Bool.or_comm (isAsciiDigit c)]

/-- A letter that is taken for a capital one is that letter in either case. -/
theorem toUpper_of_sameLetter {a : Char} (ha : a.isUpper = true) (hc : c.toNat < 128)
    (h : sameLetter a c = true) : c.toUpper = a ∧ isWordStart c = true := by
  have hbetween : 'A' ≤ a ∧ a ≤ 'Z' := of_decide_eq_true ha
  have hletter : isAsciiLetter a = true := by simp [isAsciiLetter, hbetween]
  have hcapital : a.isUpper = true → a.toLower.toUpper = a ∧ isWordStart a.toLower = true :=
    of_ascii a (toNat_of_isAsciiLetter hletter) (by decide)
  have hsame : c.toLower.toUpper = c.toUpper ∧ isWordStart c.toLower = isWordStart c :=
    of_ascii c hc (by decide)
  rw [sameLetter, if_pos hc, beq_iff_eq] at h
  rw [← hsame.1, ← hsame.2, ← h]
  exact hcapital ha

/-- What stands for a word in either case is the word in letters. -/
theorem exists_of_opensWith {w : Chars} (hw : w.all Char.isUpper = true)
    (hcs : ∀ c ∈ cs, c.toNat < 128) (h : Pattern.opensWith w cs = true) :
    ∃ x y, cs = x ++ y ∧ x.map Char.toUpper = w ∧ ∀ c ∈ x, isWordStart c = true := by
  induction w generalizing cs with
  | nil => exact ⟨[], cs, rfl, rfl, List.forall_mem_nil _⟩
  | cons a w ih =>
    cases cs with
    | nil => cases h
    | cons c cs =>
      rw [Pattern.opensWith, Bool.and_eq_true] at h
      rw [List.all_cons, Bool.and_eq_true] at hw
      obtain ⟨hc, hcs⟩ := List.forall_mem_cons.1 hcs
      obtain ⟨x, y, rfl, hx, hletters⟩ := ih hw.2 hcs h.2
      obtain ⟨hupper, hstart⟩ := toUpper_of_sameLetter hw.1 hc h.1
      exact ⟨c :: x, y, rfl, by rw [List.map_cons, hupper, hx],
        List.forall_mem_cons.2 ⟨hstart, hletters⟩⟩

/-- None of these words stands at the front of a harmless text. -/
theorem not_word_of_isHarmless (hharmless : IsHarmless (x ++ y)) (hne : x ≠ [])
    (hx : ∀ c ∈ x, isWordStart c = true) (hy : ∀ c ∈ y.head?, isTagChar c = false) :
    upperWord x ∉ ["DELIMITER", "FUNCTION", "PROCEDURE", "TRIGGER", "EVENT"] := by
  obtain ⟨c, x, rfl⟩ := List.exists_cons_of_ne_nil hne
  obtain ⟨hc, hx⟩ := List.forall_mem_cons.1 hx
  exact (hharmless.of_word hc (fun c hc => by rw [isTagChar, hx c hc, Bool.true_or]) hy).1

theorem refuses_routine {w : String} (hw : w ∈ ["FUNCTION", "PROCEDURE"])
    (hx : ∀ c ∈ x, isScriptChar c = true) (hharmless : IsHarmless (x ++ y))
    (hy : ∀ c ∈ y.head?, isTagChar c = false) (before : Option Char) :
    Pattern.Refuses (Pattern.word w ++ Pattern.edge) before x := by
  by_cases hopens : Pattern.opensWith w.toList x = true
  · have hletters : ∀ w ∈ ["FUNCTION", "PROCEDURE"], w.toList.all Char.isUpper = true := by decide
    obtain ⟨z, after, rfl, hz, hstart⟩ := exists_of_opensWith (hletters w hw)
      (fun c hc => isAscii_of_isScriptChar (hx c hc)) hopens
    have hupper : upperWord z = w := by rw [upperWord, hz, String.ofList_toList]
    have hne : z ≠ [] := by
      rintro rfl
      subst hupper
      exact absurd hw (by decide)
    have hword (c : Char) (hc : c ∈ z ++ after) : isWord c = isTagChar c :=
      isWord_eq_isTagChar (isAscii_of_isScriptChar (hx c hc))
    refine Pattern.refuses_word_edge (by rw [← String.length_toList, ← hz, List.length_map]) ?_ ?_
    · have hlast := List.getLast_mem hne
      rw [List.getLast?_eq_some_getLast hne, Option.any_some,
        hword _ (List.mem_append_left _ hlast), isTagChar, hstart _ hlast, Bool.true_or]
    · by_contra hafter
      rw [List.append_assoc] at hharmless
      have hstop : ∀ c ∈ (after ++ y).head?, isTagChar c = false := by
        cases after with
        | nil => exact hy
        | cons c after =>
          rintro _ ⟨⟩
          rw [← hword c (by simp)]
          simpa using hafter
      have hnot := not_word_of_isHarmless hharmless hne hstart hstop
      rw [hupper] at hnot
      exact hnot (List.mem_cons_of_mem _ (List.mem_append_left ["TRIGGER", "EVENT"] hw))
  · exact .seq_left (Pattern.refuses_word (by simpa using hopens))

theorem routineStart_match? (hx : ∀ c ∈ x, isScriptChar c = true) (hharmless : IsHarmless (x ++ y))
    (hy : ∀ c ∈ y.head?, isTagChar c = false) : routineStart.match? x = none := by
  refine Pattern.Refuses.match? (.assoc (Pattern.EndsBlank.refuses
    (.opt (.seq Pattern.endsBlank_blanks1) (.seq Pattern.endsBlank_blanks1)) ?_))
  rintro before c after rfl hc
  have hharmless : IsHarmless (after ++ y) := by
    rw [List.append_assoc, List.cons_append, IsHarmless,
      scriptWords_append_cons (isTagChar_of_isBlank hc)] at hharmless
    exact fun w hw => hharmless w (List.mem_append_right _ hw)
  have hafter : ∀ c ∈ after, isScriptChar c = true :=
    fun c hc => hx c (by simp [hc])
  exact .alt_seq (refuses_routine (by decide) hafter hharmless hy _)
    (refuses_routine (by decide) hafter hharmless hy _)

/-- A line that begins with the directive has its word. -/
theorem not_directive (hx : ∀ c ∈ x, isScriptChar c = true) (hharmless : IsHarmless (x ++ y)) :
    startsWith "DELIMITER ".toList (upper (String.ofList x)).toList = false := by
  have hupper : (upper (String.ofList x)).toList = x.map Char.toUpper := by
    rw [toList_upper, String.toList_ofList, ← List.flatMap_singleton' (x.map _), List.flatMap_map]
    refine List.flatMap_congr fun c hc => ?_
    rw [upperChar, if_pos (isAscii_of_isScriptChar (hx c hc))]
  rw [hupper, Bool.eq_false_iff]
  intro hstarts
  obtain ⟨rest, hrest⟩ := startsWith_iff.1 hstarts
  obtain ⟨z, more, rfl, hz, hmore⟩ := List.map_eq_append_iff.1
    (hrest.symm.trans (List.append_assoc "DELIMITER".toList [' '] rest))
  obtain ⟨c, more, rfl, hc, -⟩ := List.map_eq_cons_iff.1 hmore
  have hascii (c' : Char) (hc' : c' ∈ z ++ c :: more) : c'.toNat < 128 :=
    isAscii_of_isScriptChar (hx c' hc')
  have hstart : ∀ c ∈ z, isWordStart c = true := by
    intro c hc
    have hletter : c.toUpper ∈ "DELIMITER".toList → isWordStart c = true :=
      of_ascii c (hascii c (List.mem_append_left _ hc)) (by decide)
    exact hletter (hz ▸ List.mem_map_of_mem hc)
  have hstop : isTagChar c = false := by
    have hspace : c.toUpper = ' ' → isTagChar c = false :=
      of_ascii c (hascii c (by simp)) (by decide)
    exact hspace hc
  rw [List.append_assoc, List.cons_append] at hharmless
  refine not_word_of_isHarmless hharmless ?_ hstart (by simpa using hstop) ?_
  · rintro rfl
    cases hz
  · rw [upperWord, hz]
    decide

/-! ## Reading a line -/

namespace State

def atLine (s : State) (raw : Chars) : State :=
  let s' := { s with offset := s.offset + raw.length, number := s.number + 1 }
  if s.gathered.isEmpty then
    { s' with
      start := s.offset + (raw.length - (trimLeft raw).length), startLine := s.number + 1
      inRoutine := false }
  else s'

section AtLine

variable (s : State) (raw : Chars)

@[simp]
theorem atLine_delimiter : (s.atLine raw).delimiter = s.delimiter := by
  unfold atLine
  dsimp only
  split <;> rfl

@[simp]
theorem atLine_gathered : (s.atLine raw).gathered = s.gathered := by
  unfold atLine
  dsimp only
  split <;> rfl

@[simp]
theorem atLine_offset : (s.atLine raw).offset = s.offset + raw.length := by
  unfold atLine
  dsimp only
  split <;> rfl

@[simp]
theorem atLine_number : (s.atLine raw).number = s.number + 1 := by
  unfold atLine
  dsimp only
  split <;> rfl

@[simp]
theorem atLine_done : (s.atLine raw).done = s.done := by
  unfold atLine
  dsimp only
  split <;> rfl

theorem atLine_inRoutine (h : s.inRoutine = false) : (s.atLine raw).inRoutine = false := by
  unfold atLine
  dsimp only
  split
  · rfl
  · exact h

theorem atLine_text : (s.atLine raw).text = s.text := by
  rw [text, atLine_gathered]
  rfl

end AtLine

/-- A blank line between statements is left out. -/
theorem read_of_blank (hs : s.gathered = []) (hraw : ∀ c ∈ raw, isBlank c = true)
    (d : Option Dialect) :
    s.read d raw = { s with offset := s.offset + raw.length, number := s.number + 1 } := by
  have htrim : trim raw = [] := trim_eq_nil hraw
  unfold read
  dsimp only
  rw [hs, htrim]
  rfl

/-- Every other line is gathered. -/
theorem read_of_ink (hs : s.gathered ≠ [] ∨ trim raw ≠ [])
    (hraw : ∀ c ∈ raw, isScriptChar c = true) (hharmless : IsHarmless (raw ++ cs))
    (hend : cs = [] ∨ ∀ c ∈ raw.getLast?, isBlank c = true) (d : Option Dialect) :
    s.read d raw = (s.atLine raw).gather raw (trim raw) s.offset := by
  by_cases hempty : s.gathered = []
  swap
  · rw [read_of_gathered hempty, atLine, if_neg (by simpa using hempty)]
  have hink := hs.resolve_left (not_not_intro hempty)
  obtain ⟨pre, post, htrim, hpre, hpost⟩ := exists_trim raw
  have hlast := not_isBlank_of_mem_getLast?_trim raw
  generalize htrimmed : trim raw = line at hink htrim hlast ⊢
  have hline : ∀ c ∈ line, isScriptChar c = true := fun c hc => hraw c (by rw [htrim]; simp [hc])
  have hbehind : ∀ c ∈ (post ++ cs).head?, isTagChar c = false := by
    cases post with
    | cons c post =>
      rintro _ ⟨⟩
      exact isTagChar_of_isBlank (hpost c List.mem_cons_self)
    | nil =>
      rcases hend with rfl | hend
      · rintro c ⟨⟩
      · rw [htrim, List.append_nil, List.getLast?_append_of_ne_nil _ hink,
          List.getLast?_eq_some_getLast hink] at hend
        rw [List.getLast?_eq_some_getLast hink] at hlast
        cases (hend _ rfl).symm.trans (hlast _ rfl)
  have hharmless : IsHarmless (line ++ (post ++ cs)) := by
    rw [htrim, List.append_assoc, List.append_assoc] at hharmless
    exact hharmless.of_blanks hpre
  have hdash : startsWith ['-', '-'] line = false := by
    rw [Bool.eq_false_iff, Ne, startsWith_iff]
    rintro ⟨after, rfl⟩
    exact absurd (hline '-' (by simp)) (by decide)
  have hhash : (line.head? == some '#') = false := by
    rw [beq_eq_false_iff_ne]
    intro hhead
    exact absurd (hline '#' (List.mem_of_mem_head? hhead)) (by decide)
  have hnil : line.isEmpty = false := by simpa using hink
  unfold read atLine
  simp only [hempty, htrimmed, hnil, hdash, hhash, not_directive hline hharmless,
    routineStart_match? hline hharmless hbehind, List.isEmpty_nil, Bool.not_true, Bool.false_or,
    Bool.false_and, Bool.and_false, Bool.false_eq_true, if_false, if_true, Option.isSome_none]

/-- A line without a semicolon ends no statement. -/
theorem gather_of_not_mem (hd : s.delimiter = [';']) (hraw : ';' ∉ raw) (lineStart : Nat) :
    s.gather raw (trim raw) lineStart = { s with gathered := raw :: s.gathered } := by
  refine (s.gather_cases raw (trim raw) lineStart).resolve_right ?_
  rintro ⟨hends, -⟩
  obtain ⟨pre, post, htrim, -, -⟩ := exists_trim raw
  rw [hd] at hends
  obtain ⟨z, hz⟩ := List.reverse_prefix.1 (startsWith_iff.1 hends)
  refine hraw ?_
  rw [htrim, ← hz]
  simp

/-- A line with a semicolon behind which only blanks stand ends the statement there. -/
theorem gather_of_semicolon (hd : s.delimiter = [';']) (hr : s.inRoutine = false)
    (hraw : raw = x ++ ';' :: y) (hy : ∀ c ∈ y, isBlank c = true) (lineStart : Nat) :
    s.gather raw (trim raw) lineStart =
      ({ s with gathered := raw :: s.gathered } : State).emit (lineStart + x.length)
        (some [';']) := by
  have hlength : (trimRight raw).length - 1 = x.length := by
    rw [hraw, List.append_cons, trimRight_append hy, trimRight_eq_self]
    · simp
    · simpa using show isBlank ';' = false by decide
  have hends : endsWith [';'] (trim raw) = true := by
    rw [hraw, trim_semicolon hy]
    exact endsWith_semicolon _
  unfold gather
  simp only [hd, hr, hends, hlength, List.length_singleton, Bool.not_true, Bool.false_eq_true,
    if_false, Bool.false_and]

end State

end SqlFerry.Splitter.Lines
