import SqlFerry.Proofs.Splitter.Reading
import SqlFerry.Proofs.Splitter.Statements

/-!
# Drafts between two steps

What is so of the draft wherever a splitter stands: as long as no statement has begun it is empty,
and from then on its first character is no blank; a comment that was left out counts as a blank; and
the last word ends where the splitter stands or before.
-/

namespace SqlFerry.Splitter

open Text

variable {o : Options} {s next : Splitter} {c : Char} {cs rest : Chars} {more : Option Statement}

theorem Draft.pushBlank_cases (d : Draft) (c : Char) :
    d.pushBlank c = d ∧ (d.out = [] ∨ d.afterComment = true) ∨
      d.out ≠ [] ∧ d.afterComment = false ∧
        d.pushBlank c = { d with out := c :: d.out, trailingSpace := true } := by
  unfold Draft.pushBlank
  split
  · next hskip => exact .inl ⟨rfl, by simpa using hskip⟩
  · next hkeep =>
    rw [Bool.or_eq_true, not_or, List.isEmpty_iff, Bool.not_eq_true] at hkeep
    exact .inr ⟨hkeep.1, hkeep.2, rfl⟩

theorem Draft.gap_cases (d : Draft) :
    d.gap = { d with afterComment := true } ∧ (d.out = [] ∨ d.trailingSpace = true) ∨
      d.out ≠ [] ∧ d.trailingSpace = false ∧
        d.gap = { d with afterComment := true, out := ' ' :: d.out, trailingSpace := true } := by
  unfold Draft.gap
  dsimp only
  split
  · next hskip => exact .inl ⟨rfl, by simpa using hskip⟩
  · next hkeep =>
    rw [Bool.or_eq_true, not_or, List.isEmpty_iff, Bool.not_eq_true] at hkeep
    exact .inr ⟨hkeep.1, hkeep.2, rfl⟩

structure InOrder (s : Splitter) : Prop where
  fresh : s.draft.start = none →
    s.mode.isText = false ∧ s.draft = { afterComment := s.draft.afterComment }
  started : s.draft.start.isSome = true → EndsSolid s.draft.out
  gap : s.draft.afterComment = true → s.draft.trailingSpace = true
  wordEnd : ∀ n ∈ s.draft.lastWordEnd, n ≤ s.offset
  tag : ∀ tag, s.mode = .dollarQuoted tag → ∀ c ∈ tag, isBlank c = false

/-- Outside of routines no place changes anything. -/
theorem atPlace_of_calm (hcompound : s.draft.compound ≠ some true) (c : Char) (rest : Chars) :
    s.atPlace c rest = s := by
  have hsettle : s.draft.settle = (s.draft, true) := by
    rw [Draft.settle, if_pos (by simpa using hcompound)]
  unfold atPlace settled
  rw [hsettle]
  split
  · split <;> rfl
  · rfl

theorem inOrder_of_fresh (hmode : s.mode = .normal) (hdraft : s.draft = {}) : InOrder s := by
  refine ⟨fun _ => ⟨by rw [hmode]; rfl, by rw [hdraft]⟩, ?_, ?_, ?_, fun tag htag => ?_⟩
  · rw [hdraft]
    rintro ⟨⟩
  · rw [hdraft]
    exact fun _ => rfl
  · rw [hdraft]
    rintro n ⟨⟩
  · cases hmode.symm.trans htag

namespace InOrder

theorem started_of_text (h : InOrder s) (hmode : s.mode.isText = true) :
    s.draft.start.isSome = true := by
  rw [← Option.ne_none_iff_isSome]
  intro hnone
  rw [(h.fresh hnone).1] at hmode
  cases hmode

theorem out_eq_nil (h : InOrder s) (hstart : s.draft.start = none) : s.draft.out = [] := by
  rw [(h.fresh hstart).2]

theorem out_ne_nil (h : InOrder s) (hstart : s.draft.start.isSome = true) : s.draft.out ≠ [] := by
  intro hnil
  have hsolid := h.started hstart
  rw [hnil] at hsolid
  cases hsolid

theorem atPlace (h : InOrder s) (c : Char) (rest : Chars) : InOrder (s.atPlace c rest) := by
  cases hstart : s.draft.start with
  | none =>
    rw [atPlace_of_calm (by rw [(h.fresh hstart).2]; rintro ⟨⟩)]
    exact h
  | some n =>
    obtain ⟨depth, pendingEnd, heq⟩ := s.atPlace_eq c rest
    rw [heq]
    refine ⟨fun hnone => ?_, h.started, h.gap, h.wordEnd, h.tag⟩
    cases hstart.symm.trans hnone

/-- A text is added to the statement, or begins it. -/
theorem adds (h : InOrder s) (hsolid : s.draft.start = none → isBlank c = false)
    (hadds : s.Adds (c :: cs) next.draft)
    (hword : ∀ n ∈ next.draft.lastWordEnd, n ≤ next.offset + (c :: cs).length)
    (htag : ∀ tag, next.mode = .dollarQuoted tag → ∀ c ∈ tag, isBlank c = false) :
    InOrder (next.advance (c :: cs)) := by
  refine ⟨fun hnone => ?_, fun _ => ?_, fun hafter => ?_, hword, htag⟩
  · cases hadds.start.symm.trans hnone
  · change EndsSolid next.draft.out
    rw [hadds.out]
    cases hstart : s.draft.start with
    | none =>
      rw [h.out_eq_nil hstart]
      simp [EndsSolid, hsolid hstart]
    | some n => exact (h.started (by simp [hstart])).behind _
  · cases hadds.afterComment.symm.trans hafter

theorem pushBlank (h : InOrder s) (c : Char) :
    InOrder (({ s with draft := s.draft.pushBlank c } : Splitter).advance [c]) := by
  have hword : ∀ n ∈ s.draft.lastWordEnd, n ≤ s.offset + [c].length :=
    fun n hn => (h.wordEnd n hn).trans (Nat.le_add_right _ _)
  rcases s.draft.pushBlank_cases c with ⟨hpush, -⟩ | ⟨hne, hafter, hpush⟩
  · rw [hpush]
    exact ⟨h.fresh, h.started, h.gap, hword, h.tag⟩
  · rw [hpush]
    refine ⟨fun hnone => absurd (h.out_eq_nil hnone) hne, fun hsome => ?_, fun _ => rfl, hword,
      h.tag⟩
    exact (h.started hsome).behind [c]

theorem closeGap (h : InOrder s) (hoffset : s.offset ≤ next.offset)
    (hdraft : next.draft = s.draft.gap) (hmode : next.mode = .normal) : InOrder next := by
  have hword : ∀ n ∈ s.draft.lastWordEnd, n ≤ next.offset :=
    fun n hn => (h.wordEnd n hn).trans hoffset
  have htag : ∀ tag, next.mode = .dollarQuoted tag → ∀ c ∈ tag, isBlank c = false := by
    rw [hmode]
    rintro tag ⟨⟩
  rcases s.draft.gap_cases with ⟨hgap, hspace⟩ | ⟨hne, -, hgap⟩
  · rw [hgap] at hdraft
    refine ⟨fun hnone => ⟨by rw [hmode]; rfl, ?_⟩, fun hsome => ?_, fun _ => ?_, ?_, htag⟩
    · rw [hdraft] at hnone ⊢
      rw [(h.fresh hnone).2]
    · rw [hdraft] at hsome ⊢
      exact h.started hsome
    · rw [hdraft]
      refine hspace.elim (fun hnil => ?_) id
      cases hstart : s.draft.start with
      | none =>
        change s.draft.trailingSpace = true
        rw [(h.fresh hstart).2]
      | some n => exact absurd hnil (h.out_ne_nil (by simp [hstart]))
    · rw [hdraft]
      exact hword
  · rw [hgap] at hdraft
    refine ⟨fun hnone => ?_, fun hsome => ?_, fun _ => by rw [hdraft], ?_, htag⟩
    · rw [hdraft] at hnone
      exact absurd (h.out_eq_nil hnone) hne
    · rw [hdraft] at hsome ⊢
      exact (h.started hsome).behind [' ']
    · rw [hdraft]
      exact hword

end InOrder

/-- Words are the only tokens that move the end of the last word. -/
theorem Token.read_lastWordEnd (t : Token) (s : Splitter) (c : Char) :
    (t.read s c).draft.lastWordEnd = match t with
      | word _ => some (s.offset + (t.text c).length)
      | _ => s.draft.lastWordEnd := by
  cases t with
  | word others =>
    obtain ⟨header, compound, depth, pendingEnd, routine, hnest⟩ :=
      Draft.nest_eq { (s.draft.begin s.offset s.line).push (c :: others) with
        lastWord := c :: others, lastWordEnd := some (s.offset + (c :: others).length) }
        (upperWord (c :: others))
    rw [Token.read, Token.text]
    dsimp only
    rw [hnest]
  | blank =>
    simp only [Token.read, Draft.pushBlank]
    split <;> rfl
  | lineComment marker | blockComment => rfl
  | quote mark escapes | executable | dollar tag | symbol => simp [Token.read, Draft.push, markOpen]

namespace InOrder

theorem read (hs : InOrder s) {t : Token} (hmode : s.mode = .normal) {escapes : Bool}
    (ht : tokenAt o escapes c (cs ++ rest) = t) (htext : t.text c = c :: cs) :
    InOrder ((t.read s c).advance (c :: cs)) := by
  have hword : ∀ n ∈ (t.read s c).draft.lastWordEnd,
      n ≤ (t.read s c).offset + (c :: cs).length := by
    intro n hn
    rw [t.read_lastWordEnd] at hn
    rw [t.read_offset]
    split at hn
    · cases hn
      rw [htext]
    · exact (hs.wordEnd n hn).trans (Nat.le_add_right _ _)
  by_cases hisText : t.isText = true
  · refine hs.adds (fun _ => not_isBlank_of_tokenAt ht (by rintro rfl; cases hisText))
      (htext ▸ t.read_adds hisText s c) hword fun tag htag => ?_
    cases t with
    | dollar tag' =>
      cases htag
      exact not_isBlank_of_mem_text ht hisText
    | word others | symbol => cases hmode.symm.trans htag
    | quote mark escapes | executable => cases htag
    | blank | lineComment marker | blockComment => cases hisText
  · cases t with
    | blank =>
      obtain ⟨-, rfl⟩ := List.cons.inj htext
      exact hs.pushBlank c
    | lineComment marker | blockComment =>
      refine ⟨fun hnone => ⟨rfl, (hs.fresh hnone).2⟩, hs.started, hs.gap, hword, ?_⟩
      rintro tag ⟨⟩
    | word others | quote mark escapes | executable | dollar tag | symbol =>
      exact absurd rfl hisText

theorem readPiece (hs : InOrder s) (last : Bool) :
    InOrder ((s.readPiece (c :: cs, last)).advance (c :: cs)) := by
  have hlonger {n : Nat} (hn : n ∈ s.draft.lastWordEnd) : n ≤ s.offset + (c :: cs).length :=
    (hs.wordEnd n hn).trans (Nat.le_add_right _ _)
  have hkeep (hlast : last = false) :
      ∀ tag, (s.readPiece (c :: cs, last)).mode = .dollarQuoted tag →
        ∀ c ∈ tag, isBlank c = false := by
    subst hlast
    exact hs.tag
  by_cases hisText : s.mode.isText = true
  · have hstart := hs.started_of_text hisText
    refine hs.adds (fun hnone => ?_) (readPiece_adds s hisText hstart (c :: cs, last)) ?_ ?_
    · rw [hnone] at hstart
      cases hstart
    · have hdraft : (s.readPiece (c :: cs, last)).draft = s.draft.push (c :: cs) := by
        simp [Splitter.readPiece, hisText]
      rw [hdraft]
      exact fun n hn => hlonger hn
    · cases last with
      | true => rintro tag ⟨⟩
      | false => exact hkeep rfl
  · cases last with
    | true =>
      refine hs.closeGap (Nat.le_add_right _ _) ?_ rfl
      simp [Splitter.advance, Splitter.readPiece, hisText]
    | false =>
      have hdraft : ((s.readPiece (c :: cs, false)).advance (c :: cs)).draft = s.draft := by
        simp [Splitter.advance, Splitter.readPiece, hisText]
      refine ⟨?_, ?_, ?_, ?_, hkeep rfl⟩
      · rw [hdraft]
        exact hs.fresh
      · rw [hdraft]
        exact hs.started
      · rw [hdraft]
        exact hs.gap
      · rw [hdraft]
        exact fun n hn => hlonger hn

end InOrder

/-- The draft stays in order at whatever a step reads. -/
theorem Reads.inOrder (h : Reads o s c cs rest next more) (hs : InOrder s) :
    InOrder (next.advance (c :: cs)) := by
  cases h with
  | close hmode htext hends =>
    obtain ⟨statistics, hemit, -⟩ := (s.atPlace c (cs ++ rest)).emit_fst (some s.delimiter)
    rw [hemit]
    exact inOrder_of_fresh hmode rfl
  | direct delimiter changes hmode hstart hdelimiter =>
    exact ⟨hs.fresh, hs.started, hs.gap,
      fun n hn => (hs.wordEnd n hn).trans (Nat.le_add_right _ _), hs.tag⟩
  | token t hmode hends ht htext hset hfits =>
    exact (hs.atPlace c (cs ++ rest)).read hmode ht htext
  | piece last hmode hp hfits => exact hs.readPiece last

end SqlFerry.Splitter
