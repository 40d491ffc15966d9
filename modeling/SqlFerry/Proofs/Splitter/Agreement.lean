import SqlFerry.Proofs.Splitter.Faults
import SqlFerry.Proofs.Splitter.Lines

/-!
# Lines and characters

In a script of plain text whose semicolons end lines, gathering lines finds what reading character
by character finds. Both are compared where a line ends: what the splitter by lines has gathered is
what the other has added to its draft, but for the blanks in front.
-/

namespace SqlFerry.Splitter

open Text
open Lines (State isScriptChar)

variable {o : Options} {S : State} {s t u : Splitter} {c : Char}
  {cs b e y held rest script : Chars} {offset line : Nat}

/-- A script of plain text in which only spaces stand between a semicolon and the end of its line,
and no word sets the delimiter or makes a routine of a statement. -/
structure IsLineScript (script : Chars) : Prop where
  chars : ∀ c ∈ script, isScriptChar c = true
  closing : ∀ a b, script = a ++ ';' :: b → ∀ c ∈ b.takeWhile (· != '\n'), c = ' '
  harmless : IsHarmless script

instance : Decidable (IsHarmless script) :=
  inferInstanceAs (Decidable (∀ w ∈ scriptWords script, _))

instance : Decidable (IsLineScript script) :=
  decidable_of_iff (script.all isScriptChar = true ∧
      (script.tails.all fun x =>
        x.head? != some ';' || (x.tail.takeWhile (· != '\n')).all (· == ' ')) = true ∧
      IsHarmless script) <| by
    rw [List.all_eq_true, List.all_eq_true]
    constructor
    · rintro ⟨hchars, hclosing, hharmless⟩
      refine ⟨hchars, fun a b hab => ?_, hharmless⟩
      have htail := hclosing (';' :: b) ((List.mem_tails _ _).2 ⟨a, hab.symm⟩)
      simpa [List.all_eq_true] using htail
    · rintro ⟨hchars, hclosing, hharmless⟩
      refine ⟨hchars, fun x hx => ?_, hharmless⟩
      obtain ⟨a, hab⟩ := (List.mem_tails _ _).1 hx
      by_cases hhead : x.head? = some ';'
      · have hx := List.eq_cons_of_mem_head? hhead
        have hspaces := hclosing a x.tail (by rw [← hab, ← hx])
        simpa [hhead, List.all_eq_true] using hspaces
      · simp [hhead]

/-- A line of such a script: plain text, and behind it the end of the line, or a semicolon, spaces
and the end of the line. -/
structure IsLine (b e rest : Chars) : Prop where
  ne_nil : b ++ e ≠ []
  plain : ∀ c ∈ b, Piece.isPlain c = true ∧ c ≠ '\n'
  ending : ∃ y, (e = y ∨ e = ';' :: y) ∧ ∀ c ∈ y, c = ' ' ∨ c = '\n'
  next : rest = [] ∨ e.count '\n' = 1 ∧ e.getLast? = some '\n'

/-! ## The lines of a script -/

theorem isLineEnd_of_isScriptChar (hc : isScriptChar c = true) (hne : c ≠ '\n') :
    isLineEnd c = false := by
  have hascii : isScriptChar c = true → c ≠ '\n' → isLineEnd c = false :=
    of_ascii c (Lines.isAscii_of_isScriptChar hc) (by decide)
  exact hascii hc hne

theorem IsLineScript.of_append (h : IsLineScript (cs ++ rest)) (hrest : IsHarmless rest) :
    IsLineScript rest where
  chars c hc := h.chars c (List.mem_append_right _ hc)
  closing a b hab := h.closing (cs ++ a) b (by rw [hab, List.append_assoc])
  harmless := hrest

theorem IsLineScript.exists_line (h : IsLineScript held) (hne : held ≠ []) : ∃ b e rest,
    held = b ++ (e ++ rest) ∧ linesWithEnds held = (b ++ e) :: linesWithEnds rest ∧
      IsLine b e rest := by
  obtain ⟨x, nl, rest, rfl, hx, hnl, hlines⟩ := exists_linesWithEnds_cons
    (fun c hc => isLineEnd_of_isScriptChar (h.chars c hc)) hne
  have hnext (sp : Chars) (hsp : '\n' ∉ sp) :
      rest = [] ∨ (sp ++ nl).count '\n' = 1 ∧ (sp ++ nl).getLast? = some '\n' := by
    rcases hnl with rfl | ⟨-, rfl⟩
    · exact .inr ⟨by simp [List.count_eq_zero.2 hsp], by simp⟩
    · exact .inl rfl
  have hfeed : ∀ c ∈ nl, c = '\n' := by
    rcases hnl with rfl | ⟨rfl, -⟩
    · exact fun c hc => List.mem_singleton.1 hc
    · exact List.forall_mem_nil _
  have hplain (c : Char) (hc : c ∈ x) (hne : c ≠ ';') : Piece.isPlain c = true ∧ c ≠ '\n' := by
    have hchar := Bool.or_eq_true_iff.1 (h.chars c (by simp [hc]))
    refine ⟨hchar.resolve_right (by simpa using hne), ?_⟩
    rintro rfl
    exact hx hc
  by_cases hmem : ';' ∈ x
  · obtain ⟨b, sp, rfl, hb⟩ := List.eq_append_cons_of_mem hmem
    have hsp : ∀ c ∈ sp, c = ' ' := by
      intro c hc
      refine h.closing b (sp ++ (nl ++ rest)) (by simp) c ?_
      rw [List.takeWhile_append_of_pos]
      · exact List.mem_append_left _ hc
      · intro c hc
        rw [bne_iff_ne]
        rintro rfl
        exact hx (by simp [hc])
    refine ⟨b, ';' :: sp ++ nl, rest, by simp, by rw [hlines, List.append_assoc], ?_, ?_, ?_, ?_⟩
    · simp
    · exact fun c hc => hplain c (by simp [hc]) (by rintro rfl; exact hb hc)
    · refine ⟨sp ++ nl, .inr rfl, fun c hc => ?_⟩
      exact (List.mem_append.1 hc).imp (hsp c) (hfeed c)
    · exact hnext (';' :: sp) fun hc => hx (List.mem_append_right _ hc)
  · refine ⟨x, nl, rest, rfl, hlines, ?_, ?_, ?_, ?_⟩
    · intro hnil
      obtain ⟨rfl, rfl⟩ := List.append_eq_nil_iff.1 hnil
      rcases hnl with hnl | ⟨-, rfl⟩
      · cases hnl
      · exact hne rfl
    · exact fun c hc => hplain c hc (by rintro rfl; exact hmem hc)
    · exact ⟨nl, .inl rfl, fun c hc => .inr (hfeed c hc)⟩
    · exact hnext [] (List.not_mem_nil)

/-! ## Where a line ends -/

structure Matches (S : State) (s : Splitter) (held : Chars) : Prop where
  plain : IsPlain s
  delimiter : S.delimiter = [';']
  inRoutine : S.inRoutine = false
  offset : s.offset = S.offset
  line : held ≠ [] → s.line = S.number + 1
  index : s.index = S.done.length
  begun : s.begun = if S.gathered.isEmpty then none else some (S.start, S.startLine)
  out : s.draft.out.reverse = trimLeft S.text
  size : s.draft.size = inked S.text

theorem firstInk_line (hb : '\n' ∉ b) (hink : 0 < inked b) (e : Chars) :
    firstInk offset line b =
      some (offset + ((b ++ e).length - (trimLeft (b ++ e)).length), line) := by
  have hsplit := List.takeWhile_append_dropWhile (p := isBlank) (l := b)
  have hpre : ∀ c ∈ b.takeWhile isBlank, isBlank c = true := fun c hc => List.mem_takeWhile_imp hc
  have hfeed : (b.takeWhile isBlank).count '\n' = 0 :=
    List.count_eq_zero.2 fun hc => hb ((List.takeWhile_prefix _).subset hc)
  cases hdrop : b.dropWhile isBlank with
  | nil =>
    rw [hdrop, List.append_nil] at hsplit
    rw [← hsplit, inked_of_blanks hpre] at hink
    exact absurd hink (Nat.lt_irrefl 0)
  | cons c more =>
    have hc : isBlank c = false := by
      simpa [hdrop] using List.head_dropWhile_not (p := isBlank) (l := b) (by simp [hdrop])
    rw [hdrop] at hsplit
    rw [← hsplit, List.append_assoc, trimLeft_append hpre,
      trimLeft_eq_self (y := c :: more ++ e) (by simpa using hc), List.length_append,
      Nat.add_sub_cancel, firstInk_append, firstInk_of_blanks hpre, hfeed, firstInk,
      if_neg (by simp [hc])]
    rfl

namespace Matches

theorem text_eq_nil (hS : S.gathered = []) : S.text = [] := by
  rw [State.text, hS]
  rfl

theorem inked_pos (h : Matches S s held) (hS : S.gathered ≠ []) : 0 < inked S.text := by
  have hbegun : s.begun ≠ none := by
    rw [h.begun, if_neg (by simpa using hS)]
    rintro ⟨⟩
  have hout : s.draft.out.reverse ≠ [] := by
    rw [Ne, List.reverse_eq_nil_iff]
    exact fun hnil => hbegun (h.plain.out_eq_nil_iff.1 hnil)
  obtain ⟨c, more, hcons⟩ := List.exists_cons_of_ne_nil hout
  have hc := h.plain.head_out c (by rw [hcons]; rfl)
  rw [← inked_trimLeft, ← h.out, hcons]
  exact List.countP_pos_iff.2 ⟨c, List.mem_cons_self, by simp [hc]⟩

/-- Where the statement began that is under way behind the text of a line. -/
theorem begun_atLine (h : Matches S s (b ++ (e ++ rest))) (hline : IsLine b e rest)
    (hb : Gathers s b t) : t.begun = if inked (S.text ++ b) = 0 then none else
      some ((S.atLine (b ++ e)).start, (S.atLine (b ++ e)).startLine) := by
  have hfeed : '\n' ∉ b := fun hc => (hline.plain _ hc).2 rfl
  have hheld : b ++ (e ++ rest) ≠ [] := by
    rw [← List.append_assoc]
    exact fun hnil => hline.ne_nil (List.append_eq_nil_iff.1 hnil).1
  rw [hb.begun, h.begun, h.offset, h.line hheld, State.atLine, inked_append]
  by_cases hS : S.gathered = []
  · have hempty : S.gathered.isEmpty = true := by simpa using hS
    have hnil : inked [] + inked b = inked b := Nat.zero_add _
    simp only [hempty, if_true, Option.none_or, text_eq_nil hS, hnil]
    split
    · next hink =>
      exact firstInk_of_blanks fun c hc => by simpa using List.countP_eq_zero.1 hink c hc
    · next hink => exact firstInk_line hfeed (Nat.pos_of_ne_zero hink) e
  · have hempty : ¬S.gathered.isEmpty = true := by simpa using hS
    have hpos := h.inked_pos hS
    simp only [if_neg hempty, Option.some_or]
    rw [if_neg (by omega)]

/-- What the state by lines has to be where the next line ends. -/
theorem line_eq (h : Matches S s (b ++ (e ++ rest))) (hline : IsLine b e rest)
    (hrest : rest ≠ []) : s.line + (b ++ e).count '\n' = S.number + 1 + 1 := by
  have hfeed : b.count '\n' = 0 := List.count_eq_zero.2 fun hc => (hline.plain _ hc).2 rfl
  have hheld : b ++ (e ++ rest) ≠ [] := by simp [hrest]
  rw [h.line hheld, List.count_append, hfeed, (hline.next.resolve_left hrest).1]

theorem read_eq (h : Matches S s (b ++ (e ++ rest))) (hscript : IsLineScript (b ++ (e ++ rest)))
    (hline : IsLine b e rest) (hink : inked (S.text ++ (b ++ e)) ≠ 0) (d : Option Dialect) :
    S.read d (b ++ e) = (S.atLine (b ++ e)).gather (b ++ e) (trim (b ++ e)) S.offset := by
  rw [← List.append_assoc] at hscript
  refine State.read_of_ink ?_ (fun c hc => hscript.chars c (List.mem_append_left _ hc))
    hscript.harmless ?_ d
  · by_contra hnone
    rw [not_or, not_not, not_not] at hnone
    rw [text_eq_nil hnone.1, List.nil_append, ← inked_trim, hnone.2] at hink
    exact hink rfl
  · refine hline.next.imp_right fun hlast c hc => ?_
    have he : e ≠ [] := by
      rintro rfl
      cases hlast.2
    rw [List.getLast?_append_of_ne_nil _ he, hlast.2] at hc
    cases hc
    decide

/-- A line without a semicolon is gathered. -/
theorem read_open (h : Matches S s (b ++ (y ++ rest))) (hscript : IsLineScript (b ++ (y ++ rest)))
    (hline : IsLine b y rest) (hy : ∀ c ∈ y, isBlank c = true) (hb : Gathers s b t)
    (htail : Gathers t y u) (hu : IsPlain u) (d : Option Dialect) :
    Matches (S.read d (b ++ y)) u rest ∧ (S.read d (b ++ y)).done = S.done := by
  have hall := hb.trans htail
  have hbegun : u.begun = t.begun := by
    rw [htail.begun, firstInk_of_blanks hy, Option.or_none]
  rw [h.begun_atLine hline hb] at hbegun
  have hout : u.draft.out.reverse = trimLeft (S.text ++ (b ++ y)) := by
    rw [hall.out, h.out, trimLeft_trimLeft_append]
  have hsize : u.draft.size = inked (S.text ++ (b ++ y)) := by
    rw [hall.size, h.size, ← inked_append]
  have hink : inked (S.text ++ (b ++ y)) = inked (S.text ++ b) := by
    rw [← List.append_assoc, inked_append _ y, inked_of_blanks hy, Nat.add_zero]
  have hoffset : u.offset = S.offset + (b ++ y).length := by rw [hall.offset, h.offset]
  have hindex : u.index = S.done.length := hall.index.trans h.index
  have hnumber (hrest : rest ≠ []) : u.line = S.number + 1 + 1 :=
    hall.line.trans (h.line_eq hline hrest)
  by_cases hzero : inked (S.text ++ b) = 0
  · rw [if_pos hzero] at hbegun
    have hS : S.gathered = [] := by
      by_contra hS
      have := h.inked_pos hS
      rw [inked_append] at hzero
      omega
    have hblank : ∀ c ∈ b ++ y, isBlank c = true := by
      rw [← hink, text_eq_nil hS, List.nil_append] at hzero
      exact fun c hc => by simpa using List.countP_eq_zero.1 hzero c hc
    rw [State.read_of_blank hS hblank]
    rw [text_eq_nil hS, List.nil_append] at hout hsize
    refine ⟨⟨hu, h.delimiter, h.inRoutine, hoffset, hnumber, hindex, ?_, ?_, ?_⟩, rfl⟩
    · rw [hbegun]
      simp [hS]
    · rw [hout, State.text, hS, ← List.append_nil (b ++ y), trimLeft_append hblank]
      rfl
    · rw [hsize, inked_of_blanks hblank, State.text, hS]
      rfl
  · rw [if_neg hzero] at hbegun
    have hmem : ';' ∉ b ++ y := by
      intro hmem
      rcases List.mem_append.1 hmem with hmem | hmem
      · exact absurd (hline.plain _ hmem).1 (by decide)
      · exact absurd (hy _ hmem) (by decide)
    have htext := (S.atLine (b ++ y)).text_cons (b ++ y)
    rw [State.atLine_text] at htext
    rw [h.read_eq hscript hline (by rwa [hink]),
      State.gather_of_not_mem (by simp [h.delimiter]) hmem]
    refine ⟨⟨hu, ?_, ?_, ?_, ?_, ?_, ?_, ?_, ?_⟩, ?_⟩
    · simp [h.delimiter]
    · exact State.atLine_inRoutine S _ h.inRoutine
    · simp [hoffset]
    · simpa using hnumber
    · simp [hindex]
    · simpa using hbegun
    · rw [hout, htext]
    · rw [hsize, htext]
    · simp

/-- What a semicolon behind the text of a line closes. -/
theorem emit_snd (h : Matches S s (b ++ (e ++ rest))) (hline : IsLine b e rest)
    (hb : Gathers s b t) (ht : IsPlain t) (terminator : Option Chars) : (t.emit terminator).2 =
      if inked (S.text ++ b) = 0 then none else some {
        text := String.ofList (trim (S.text ++ b)), index := S.done.length
        start := (S.atLine (b ++ e)).start, stop := S.offset + b.length
        line := (S.atLine (b ++ e)).startLine, terminator := terminator.map String.ofList
        inRoutine := false } := by
  have htext : trimRight t.draft.out.reverse = trim (S.text ++ b) := by
    rw [hb.out, h.out, trimLeft_trimLeft_append]
    rfl
  rw [ht.emit_snd, h.begun_atLine hline hb, htext, hb.index, h.index, hb.offset, h.offset]
  split <;> rfl

/-- A line with a semicolon ends the statement. -/
theorem read_closed (h : Matches S s (b ++ (';' :: y ++ rest)))
    (hscript : IsLineScript (b ++ (';' :: y ++ rest))) (hline : IsLine b (';' :: y) rest)
    (hy : ∀ c ∈ y, isBlank c = true) (hb : Gathers s b t) (ht : IsPlain t)
    (htail : Gathers ((t.emit (some [';'])).1.advance [';']) y u) (hu : IsPlain u)
    (d : Option Dialect) :
    Matches (S.read d (b ++ ';' :: y)) u rest ∧
      (S.read d (b ++ ';' :: y)).done = (t.emit (some [';'])).2.toList ++ S.done := by
  have hink : inked (S.text ++ (b ++ ';' :: y)) ≠ 0 := by
    rw [← List.append_assoc, inked_append]
    exact Nat.ne_of_gt (Nat.lt_add_left _ (List.countP_pos_iff.2
      ⟨';', List.mem_cons_self, by decide⟩))
  have htext := (S.atLine (b ++ ';' :: y)).text_cons (b ++ ';' :: y)
  rw [State.atLine_text, ← List.append_assoc] at htext
  obtain ⟨statistics, hemit, -⟩ := t.emit_fst (some [';'])
  have hdone := h.emit_snd hline hb ht (some [';'])
  have hread : S.read d (b ++ ';' :: y) = { S.atLine (b ++ ';' :: y) with
      gathered := [], inRoutine := false
      done := (t.emit (some [';'])).2.toList ++ S.done } := by
    rw [h.read_eq hscript hline hink, State.gather_of_semicolon (by simp [h.delimiter])
      (State.atLine_inRoutine S _ h.inRoutine) rfl hy, State.emit_eq,
      State.body_of_semicolon htext hy, hdone]
    by_cases hzero : inked (S.text ++ b) = 0
    · simp [hzero, trim_eq_nil_iff.2 hzero]
    · have hne : (trim (S.text ++ b)).isEmpty = false := by
        simpa [trim_eq_nil_iff] using hzero
      simp [hzero, hne, State.atLine_inRoutine S _ h.inRoutine]
  rw [hemit] at htail
  rw [hread]
  refine ⟨⟨hu, ?_, rfl, ?_, fun hrest => ?_, ?_, ?_, ?_, ?_⟩, rfl⟩
  · simp [h.delimiter]
  · rw [htail.offset]
    simp [Splitter.advance, hb.offset, h.offset, Nat.add_assoc, Nat.add_comm 1]
  · have hnumber := h.line_eq hline hrest
    rw [htail.line]
    simp [Splitter.advance, hb.line, List.count_append] at hnumber ⊢
    omega
  · rw [htail.index]
    simp [Splitter.advance, hb.index, h.index, Nat.add_comm]
  · rw [htail.begun, firstInk_of_blanks hy]
    rfl
  · rw [htail.out]
    simpa [Splitter.advance, State.text, trimLeft] using hy
  · rw [htail.size, inked_of_blanks hy]
    rfl

/-- What was under way at the end is the last statement. -/
theorem finish_eq (h : Matches S s []) :
    S.finish = S.done.reverse ++ (s.emit none).2.toList := by
  have htext : trimRight s.draft.out.reverse = trim S.text := by
    rw [h.out]
    rfl
  rw [h.plain.emit_snd, h.begun, htext, h.index, h.offset, State.finish]
  by_cases hS : S.gathered = []
  · have hempty : S.gathered.isEmpty = true := by simpa using hS
    simp [hempty]
  · have hempty : S.gathered.isEmpty = false := by simpa using hS
    have hbody : (S.body none).isEmpty = false := by
      have hpos := h.inked_pos hS
      rw [List.isEmpty_eq_false_iff]
      exact fun hnil => (Nat.ne_of_gt hpos) (trim_eq_nil_iff.1 hnil)
    rw [hempty, if_neg Bool.false_ne_true, State.emit_eq, hbody]
    simp [State.body, h.inRoutine]

/-- A line whose text makes the statement too long is part of a statement that is too long. -/
theorem exists_mem_finish (h : Matches S s (b ++ (e ++ rest)))
    (hscript : IsLineScript (b ++ (e ++ rest))) (hline : IsLine b e rest) (hink : 0 < inked b)
    (d : Option Dialect) (lines : List Chars) :
    ∃ st ∈ (lines.foldl (State.read d) (S.read d (b ++ e))).finish,
      s.draft.size + inked b ≤ inked st.text.toList := by
  obtain ⟨y, he, hy⟩ := hline.ending
  have hblank : ∀ c ∈ y, isBlank c = true := by
    intro c hc
    rcases hy c hc with rfl | rfl <;> decide
  have htext := (S.atLine (b ++ e)).text_cons (b ++ e)
  rw [State.atLine_text, ← List.append_assoc] at htext
  have hinked : inked (S.text ++ b ++ e) = s.draft.size + inked b + inked e := by
    rw [inked_append, inked_append, h.size]
  rw [h.read_eq hscript hline (by rw [← List.append_assoc, hinked]; omega)]
  rcases he with rfl | rfl
  · have hmem : ';' ∉ b ++ e := by
      intro hmem
      rcases List.mem_append.1 hmem with hmem | hmem
      · exact absurd (hline.plain _ hmem).1 (by decide)
      · exact absurd (hblank _ hmem) (by decide)
    rw [State.gather_of_not_mem (by simp [h.delimiter]) hmem]
    obtain ⟨st, hst, hle⟩ := State.exists_mem_finish
      (s := { S.atLine (b ++ e) with gathered := (b ++ e) :: (S.atLine (b ++ e)).gathered })
      (by simp [h.delimiter]) (List.cons_ne_nil _ _) (by rw [htext, hinked]; omega) d lines
    rw [htext, hinked] at hle
    exact ⟨st, hst, by omega⟩
  · rw [State.gather_of_semicolon (by simp [h.delimiter])
      (State.atLine_inRoutine S _ h.inRoutine) rfl hblank]
    have hbody := State.body_of_semicolon htext hblank
    have hsize : inked (trim (S.text ++ b)) = s.draft.size + inked b := by
      rw [inked_trim, inked_append, h.size]
    obtain ⟨st, hst, hsttext⟩ := State.exists_mem_emit (some [';'])
      (by rw [hbody, hsize]; omega) (S.offset + b.length)
    refine ⟨st, State.mem_finish hst d lines, ?_⟩
    rw [hsttext, hbody, hsize]

end Matches

/-! ## Lines -/

inductive ReadsLine (o : Options) (d : Option Dialect) (S : State) (s : Splitter) (x rest : Chars) :
    Prop where
  | passes {u : Splitter} (hmatches : Matches (S.read d x) u rest) (hfits : Fits o u)
    (hdone : ∀ st ∈ (S.read d x).done, o.maxSize.isExceededBy (inked st.text.toList) = false)
    (hharmless : IsHarmless rest)
    (hscan : ∀ base, scan o base true s (x ++ rest) S.done =
      scan o base true u rest (S.read d x).done)
  | fails (hexceeds : ∀ lines : List Chars, ∃ st ∈ (lines.foldl (State.read d) (S.read d x)).finish,
      o.maxSize.isExceededBy (inked st.text.toList) = true)
    (herror : ∀ base, ∃ offset line,
      scan o base true s (x ++ rest) S.done = .error (.oversized o.maxSize offset line))

theorem Gathers.size_eq (h : Gathers s cs t) (hs : s.draft.size = inked s.draft.out.reverse) :
    t.draft.size = inked t.draft.out.reverse := by
  rw [h.size, h.out, inked_trimLeft, inked_append, hs]

/-- A statement is as long as its draft. -/
theorem Fits.of_emit (h : Fits o t) (ht : IsPlain t)
    (hsize : t.draft.size = inked t.draft.out.reverse) (terminator : Option Chars) :
    ∀ st ∈ (t.emit terminator).2, o.maxSize.isExceededBy (inked st.text.toList) = false := by
  intro st hst
  rw [ht.emit_snd, Option.mem_def, Option.map_eq_some_iff] at hst
  obtain ⟨at_, hbegun, rfl⟩ := hst
  rw [String.toList_ofList, inked_trimRight, ← hsize]
  refine h ?_
  rw [begun] at hbegun
  exact Option.isSome_iff_exists.2 ⟨_, (Option.map_eq_some_iff.1 hbegun).choose_spec.1⟩

namespace Matches

theorem size_eq (h : Matches S s held) : s.draft.size = inked s.draft.out.reverse := by
  rw [h.size, h.out, inked_trimLeft]

/-- The end of a line without a semicolon. -/
theorem readsLine_open (h : Matches S s (b ++ (y ++ rest)))
    (hscript : IsLineScript (b ++ (y ++ rest))) (hline : IsLine b y rest)
    (hy : ∀ c ∈ y, Piece.isPlain c = true ∧ isBlank c = true) (hk : o.keepComments = false)
    (hdone : ∀ st ∈ S.done, o.maxSize.isExceededBy (inked st.text.toList) = false)
    (hpass : Passes o s b (y ++ rest) t) (ht : IsPlain t) (hb : Gathers s b t) (hfits : Fits o t)
    (hharmless : IsHarmless (y ++ rest)) (d : Option Dialect) :
    ReadsLine o d S s (b ++ y) rest := by
  have hblank : ∀ c ∈ y, isBlank c = true := fun c hc => (hy c hc).2
  rcases ht.readsPlain_blanks hk hfits hy hharmless with
    @⟨u, hpass', hu, htail, hfits', hharmless'⟩ | ⟨hink, -, -⟩
  · obtain ⟨hmatches, hsame⟩ := h.read_open hscript hline hblank hb htail hu d
    refine .passes hmatches hfits' (by rwa [hsame]) hharmless' fun base => ?_
    rw [List.append_assoc, hpass, hpass', hsame]
  · rw [inked_of_blanks hblank] at hink
    exact absurd hink (Nat.lt_irrefl 0)

/-- The end of a line with a semicolon. -/
theorem readsLine_closed (h : Matches S s (b ++ (';' :: y ++ rest)))
    (hscript : IsLineScript (b ++ (';' :: y ++ rest))) (hline : IsLine b (';' :: y) rest)
    (hy : ∀ c ∈ y, Piece.isPlain c = true ∧ isBlank c = true) (hk : o.keepComments = false)
    (hdone : ∀ st ∈ S.done, o.maxSize.isExceededBy (inked st.text.toList) = false)
    (hpass : Passes o s b (';' :: y ++ rest) t) (ht : IsPlain t) (hb : Gathers s b t)
    (hfits : Fits o t) (hharmless : IsHarmless (';' :: y ++ rest)) (d : Option Dialect) :
    ReadsLine o d S s (b ++ ';' :: y) rest := by
  have hblank : ∀ c ∈ y, isBlank c = true := fun c hc => (hy c hc).2
  have hfresh : Fits o ((t.emit (some [';'])).1.advance [';']) := by
    obtain ⟨statistics, hemit, -⟩ := t.emit_fst (some [';'])
    rw [hemit]
    rintro ⟨⟩
  rcases (ht.next (some [';']) [';']).readsPlain_blanks hk hfresh hy
      (hharmless.of_not_tag (by decide)) with
    @⟨u, hpass', hu, htail, hfits', hharmless'⟩ | ⟨hink, -, -⟩
  · obtain ⟨hmatches, hclosed⟩ := h.read_closed hscript hline hblank hb ht htail hu d
    refine .passes hmatches hfits' (fun st hst => ?_) hharmless' fun base => ?_
    · rw [hclosed, List.mem_append, Option.mem_toList] at hst
      exact hst.elim (hfits.of_emit ht (hb.size_eq h.size_eq) _ st) (hdone st)
    · rw [List.append_assoc, hpass, List.cons_append, scan_cons, ht.step_semicolon hk, hclosed]
      exact hpass' base _
  · rw [inked_of_blanks hblank] at hink
    exact absurd hink (Nat.lt_irrefl 0)

theorem readsLine (h : Matches S s (b ++ (e ++ rest))) (hscript : IsLineScript (b ++ (e ++ rest)))
    (hline : IsLine b e rest) (hk : o.keepComments = false) (hfits : Fits o s)
    (hdone : ∀ st ∈ S.done, o.maxSize.isExceededBy (inked st.text.toList) = false)
    (d : Option Dialect) : ReadsLine o d S s (b ++ e) rest := by
  obtain ⟨y, he, hends⟩ := hline.ending
  have hy : ∀ c ∈ y, Piece.isPlain c = true ∧ isBlank c = true := by
    intro c hc
    rcases hends c hc with rfl | rfl <;> decide
  have hstop : ∀ x ∈ (e ++ rest).head?, isWordPart x = false := by
    rcases he with rfl | rfl
    · cases e with
      | nil =>
        rcases hline.next with rfl | ⟨hcount, -⟩
        · rintro x ⟨⟩
        · cases hcount
      | cons c e =>
        rintro _ ⟨⟩
        rcases hends c List.mem_cons_self with rfl | rfl <;> decide
    · rintro _ ⟨⟩
      decide
  rcases h.plain.readsPlain hk hfits (fun c hc => (hline.plain c hc).1) hscript.harmless hstop with
    @⟨t, hpass, ht, hb, hfits', hharmless⟩ | ⟨hink, hexceeds, herror⟩
  · rcases he with rfl | rfl
    · exact h.readsLine_open hscript hline hy hk hdone hpass ht hb hfits' hharmless d
    · exact h.readsLine_closed hscript hline hy hk hdone hpass ht hb hfits' hharmless d
  · refine .fails (fun lines => ?_) fun base => ?_
    · obtain ⟨st, hst, hle⟩ := h.exists_mem_finish hscript hline hink d lines
      exact ⟨st, hst, SizeLimit.isExceededBy_mono' hle hexceeds⟩
    · rw [List.append_assoc]
      exact herror base S.done

end Matches

/-! ## Whole scripts -/

/-- A reading to the end finds all the statements if none is too long, and reports one otherwise. -/
inductive Finds (l : SizeLimit) (all : List Statement) :
    Except Fault (Splitter × List Statement) → Prop where
  | all {t : Splitter} {found : List Statement} (hmode : t.mode = .normal)
    (hall : found.reverse ++ (t.emit none).2.toList = all)
    (hfits : ∀ st ∈ all, l.isExceededBy (inked st.text.toList) = false) :
    Finds l all (.ok (t, found))
  | oversized {offset line : Nat} {st : Statement} (hst : st ∈ all)
    (hexceeds : l.isExceededBy (inked st.text.toList) = true) :
    Finds l all (.error (.oversized l offset line))

/-- Line by line, both find the same. -/
theorem scan_lines (hk : o.keepComments = false) {base : Nat} (h : Matches S s held)
    (hscript : IsLineScript held) (hfits : Fits o s)
    (hdone : ∀ st ∈ S.done, o.maxSize.isExceededBy (inked st.text.toList) = false)
    (d : Option Dialect) :
    Finds o.maxSize ((linesWithEnds held).foldl (State.read d) S).finish
      (scan o base true s held S.done) := by
  induction hn : held.length using Nat.strong_induction_on generalizing S s held with
  | _ n ih =>
    by_cases hne : held = []
    · subst hne
      have hemit : ((s.retag [] 0).emit none).2 = (s.emit none).2 := by
        rw [emit_retag]
      rw [scan_nil]
      refine .all h.plain.mode ?_ fun st hst => ?_
      · exact (congrArg (S.done.reverse ++ ·.toList) hemit).trans h.finish_eq.symm
      · change st ∈ S.finish at hst
        rw [h.finish_eq, List.mem_append, List.mem_reverse, Option.mem_toList] at hst
        exact hst.elim (hdone st) (hfits.of_emit h.plain h.size_eq none st)
    · obtain ⟨b, e, rest, rfl, hlines, hline⟩ := hscript.exists_line hne
      rw [hlines, List.foldl_cons]
      rcases h.readsLine hscript hline hk hfits hdone d with
        @⟨u, hmatches, hfits', hdone', hharmless, hscan⟩ | ⟨hexceeds, herror⟩
      · rw [← List.append_assoc, hscan]
        refine ih rest.length ?_ hmatches ?_ hfits' hdone' rfl
        · have hpos := List.length_pos_iff.2 hline.ne_nil
          rw [← List.append_assoc, List.length_append] at hn
          omega
        · rw [← List.append_assoc] at hscript
          exact hscript.of_append hharmless
      · obtain ⟨st, hst, hexceeds⟩ := hexceeds (linesWithEnds rest)
        obtain ⟨offset, line, herror⟩ := herror base
        rw [← List.append_assoc, herror]
        exact .oversized hst hexceeds

theorem matches_fresh (script : Chars) : Matches {} {} script where
  plain := ⟨rfl, rfl, by rintro ⟨⟩, rfl, rfl, inOrder_of_fresh rfl rfl⟩
  delimiter := rfl
  inRoutine := rfl
  offset := rfl
  line _ := rfl
  index := rfl
  begun := rfl
  out := rfl
  size := rfl

/-- A single line without a semicolon is part of a statement. -/
theorem exists_mem_parse (h : IsLineScript script) (hink : 0 < inked script)
    (hplain : ∀ c ∈ script, Piece.isPlain c = true ∧ c ≠ '\n') (d : Option Dialect) :
    ∃ st ∈ Lines.parse d script, inked script ≤ inked st.text.toList := by
  have hne : script ≠ [] := by
    rintro rfl
    cases hink
  have hlines : linesWithEnds script = [script] :=
    linesWithEnds_of_forall
      (fun c hc => isLineEnd_of_isScriptChar (h.chars c hc) (hplain c hc).2) hne
  have hline : IsLine script [] [] :=
    ⟨by simpa using hne, hplain, ⟨[], .inl rfl, List.forall_mem_nil _⟩, .inl rfl⟩
  obtain ⟨st, hst, hle⟩ := (matches_fresh (script ++ ([] ++ []))).exists_mem_finish
    (by simpa using h) hline hink d []
  refine ⟨st, ?_, by simpa using hle⟩
  rw [List.append_nil] at hst
  change st ∈ ((linesWithEnds script).foldl (State.read d) {}).finish
  rwa [hlines]

/-- Letters alone. -/
theorem isLineScript_letters (n : Nat) : IsLineScript (List.replicate (n + 1) 'a') where
  chars c hc := by
    obtain rfl := List.eq_of_mem_replicate hc
    decide
  closing a b hab := by
    have hmem : ';' ∈ List.replicate (n + 1) 'a' := by simp [hab]
    cases List.eq_of_mem_replicate hmem
  harmless := by
    have hletters : ∀ x ∈ List.replicate n 'a', isTagChar x = true := by
      intro x hx
      obtain rfl := List.eq_of_mem_replicate hx
      decide
    have hend : ∀ x ∈ ([] : Chars).head?, isTagChar x = false := by rintro _ ⟨⟩
    obtain ⟨others, hwords, hothers⟩ := scriptWords_word (c := 'a') (by decide) hletters hend
    obtain rfl : [] = others := (List.cons.inj hothers).2
    rw [List.append_nil] at hwords
    intro w hw
    rw [List.replicate_succ, hwords, List.mem_singleton] at hw
    subst hw
    -- None of the words begins with an `A`.
    intro hmem
    have hhead := List.mem_map_of_mem (f := (·.toList.head?)) hmem
    rw [upperWord, String.toList_ofList] at hhead
    change some 'A' ∈ _ at hhead
    revert hhead
    decide

/-- The splitter by characters finds the same statements, or refuses the script for one of them. -/
theorem parse_ok_or_oversized (d : Option Dialect) (l : SizeLimit) (h : IsLineScript script) :
    let o : Options := { dialect := d, maxSize := l }
    ((∀ st ∈ Lines.parse d script, l.isExceededBy (inked st.text.toList) = false) ∧
      (parse o script).2 = .ok (Lines.parse d script)) ∨
    ((∃ st ∈ Lines.parse d script, l.isExceededBy (inked st.text.toList) = true) ∧
      ∃ offset line, (parse o script).2 = .error (.oversized l offset line)) := by
  intro o
  have hfinds : Finds l (Lines.parse d script) (scan o 0 true {} script []) :=
    scan_lines (o := o) rfl (matches_fresh script) h (by rintro ⟨⟩) (List.forall_mem_nil _) d
  generalize hscan : scan o 0 true {} script [] = r at hfinds
  cases hfinds with
  | @all t found hmode hall hfits =>
    obtain ⟨base, held, hparse⟩ := parse_eq_scan o script
    have hretag := scan_retag (o := o) rfl base {} held script.length script []
    rw [hscan] at hretag
    rw [hretag] at hparse
    refine .inl ⟨hfits, eq_ok_of_toOption (hparse.trans ?_)⟩
    have hending : (t.retag [] script.length).ending? = some (t.emit none).2 := by
      rw [ending?, show (t.retag [] script.length).mode = .normal from hmode, emit_retag]
    change ended? (t.retag [] script.length, found) = _
    rw [ended?, hending, Option.map_some, hall]
  | @oversized offset line st hst hexceeds =>
    have hfault := fault?_stream (o := o) rfl {} [script]
    have hculprit : culprit? o {} script = some (.oversized l offset line) :=
      congrArg flaw? hscan
    rw [← parse_eq_stream, List.flatten_singleton] at hfault
    change _ = (culprit? o {} script).map _ at hfault
    rw [hculprit] at hfault
    exact .inr ⟨⟨st, hst, hexceeds⟩, _, _, fault?_eq_some.1 hfault⟩

/-- A script of plain text whose semicolons end lines has the same statements by lines as by
characters, in every dialect; only that the splitter by characters refuses the script if one of them
is too long. -/
theorem parse_lines (d : Option Dialect) (l : SizeLimit) (h : IsLineScript script) :
    let o : Options := { dialect := d, maxSize := l }
    ((∀ st ∈ Lines.parse d script, l.isExceededBy (inked st.text.toList) = false) →
      (parse o script).2 = .ok (Lines.parse d script)) ∧
    ((∃ st ∈ Lines.parse d script, l.isExceededBy (inked st.text.toList) = true) →
      ∃ offset line, (parse o script).2 = .error (.oversized l offset line)) := by
  intro o
  rcases parse_ok_or_oversized d l h with ⟨hfits, hparse⟩ | ⟨⟨st, hst, hexceeds⟩, herror⟩
  · refine ⟨fun _ => hparse, ?_⟩
    rintro ⟨st, hst, hexceeds⟩
    cases (hfits st hst).symm.trans hexceeds
  · refine ⟨fun hfits => ?_, fun _ => herror⟩
    cases (hfits st hst).symm.trans hexceeds

/-- Blank lines, a lone semicolon and a last statement without one, with a limit that the second
statement meets and one that it exceeds. -/
theorem parse_lines_of_blank_lines :
    let script := "  a\n b;  \n\n;\n (c)".toList
    let found : List Statement := [
      { text := "a\n b", index := 0, start := 2, stop := 6, line := 1, terminator := some ";"
        inRoutine := false },
      { text := "(c)", index := 1, start := 14, stop := 17, line := 5, terminator := none
        inRoutine := false }]
    IsLineScript script ∧ Lines.parse none script = found ∧
      (parse { dialect := none, maxSize := .ofInt 3 } script).2 = .ok found ∧
      ∃ offset line, (parse { dialect := none, maxSize := .ofInt 2 } script).2 =
        .error (.oversized (.ofInt 2) offset line) := by
  intro script found
  have hscript : IsLineScript script := by decide +kernel
  have hlines : Lines.parse none script = found := by decide +kernel
  have hfits := parse_lines none (.ofInt 3) hscript
  have hexceeds := parse_lines none (.ofInt 2) hscript
  rw [hlines] at hfits hexceeds
  exact ⟨hscript, hlines, hfits.1 (by decide +kernel), hexceeds.2 (by decide +kernel)⟩

/-- By lines there is no limit: a script of one statement that is longer than the other splitter
takes is split by lines only. -/
theorem not_parse_lines : ¬∀ (d : Option Dialect) (script : Chars), IsLineScript script →
    (parse { dialect := d } script).2 = .ok (Lines.parse d script) := by
  intro h
  have hscript := isLineScript_letters (100 * 1024 * 1024)
  have hink : inked (List.replicate (100 * 1024 * 1024 + 1) 'a') = 100 * 1024 * 1024 + 1 := by
    rw [inked, List.countP_replicate, if_pos (by decide)]
  obtain ⟨st, hst, hle⟩ := exists_mem_parse hscript (by omega) (fun c hc => by
    obtain rfl := List.eq_of_mem_replicate hc
    decide) none
  rcases parse_ok_or_oversized none (.ofInt (100 * 1024 * 1024)) hscript with
    ⟨hfits, -⟩ | ⟨-, offset, line, herror⟩
  · have hexceeds : (SizeLimit.ofInt (100 * 1024 * 1024)).isExceededBy
        (inked (List.replicate (100 * 1024 * 1024 + 1) 'a')) = true := by
      rw [hink]
      decide
    cases (hfits st hst).symm.trans (SizeLimit.isExceededBy_mono' hle hexceeds)
  · cases (h none _ hscript).symm.trans herror

end SqlFerry.Splitter
