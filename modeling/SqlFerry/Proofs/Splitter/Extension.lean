import Mathlib.Data.List.TakeWhile
import SqlFerry.Splitter

/-!
# Steps that later characters do not change

A step that takes a token looks only at characters that are already there, so it takes the same
token when more characters follow. What it decides does not depend on how many characters were
counted before, on what is held back, or on where the text at hand began.
-/

namespace SqlFerry.Splitter

open Text

def retag (s : Splitter) (held : Chars) (n : Nat) : Splitter :=
  { s.received n with held }

section Retag

variable (s : Splitter) (held : Chars) (n : Nat)

theorem retag_advance (taken : Chars) :
    (s.retag held n).advance taken = (s.advance taken).retag held n :=
  rfl

theorem emit_retag (terminator : Option Chars) :
    (s.retag held n).emit terminator =
      ((s.emit terminator).1.retag held n, (s.emit terminator).2) := by
  unfold emit
  simp only [retag, received]
  split <;> rfl

theorem emit_delimiter (terminator : Option Chars) :
    (s.emit terminator).1.delimiter = s.delimiter := by
  unfold emit
  dsimp only
  split <;> rfl

theorem emit_draft (terminator : Option Chars) : (s.emit terminator).1.draft = {} := by
  unfold emit
  dsimp only
  split <;> rfl

end Retag

inductive Twins (held : Chars) (n : Nat) :
    Except Fault Splitter → Except Fault Splitter → Prop where
  | ok (s : Splitter) : Twins held n (.ok s) (.ok (s.retag held n))
  | error (e e' : Fault) : Twins held n (.error e) (.error e')

/-- How a step at `rest` is related to the step at `rest ++ more`: unless it waits, both decide the
same, and on what is in `rest`. -/
inductive Extends (held : Chars) (n : Nat) (rest more : Chars) :
    Except Fault Move → Except Fault Move → Prop where
  | hold (r : Except Fault Move) (h : more = [] → r = .ok .hold) :
    Extends held n rest more (.ok .hold) r
  | take (extra : Nat) (s : Splitter) (done : Option Statement) (h : extra ≤ rest.length) :
    Extends held n rest more (.ok (.take extra s done)) (.ok (.take extra (s.retag held n) done))
  | error (e e' : Fault) : Extends held n rest more (.error e) (.error e')

namespace Extends

variable {held : Chars} {n : Nat} {rest more : Chars}

theorem eq_hold {r : Except Fault Move} (h : Extends held n rest [] (.ok .hold) r) :
    r = .ok .hold := by
  cases h with
  | hold r h => exact h rfl

theorem eq_take {extra : Nat} {s : Splitter} {done : Option Statement} {r : Except Fault Move}
    (h : Extends held n rest more (.ok (.take extra s done)) r) :
    r = .ok (.take extra (s.retag held n) done) := by
  cases h with
  | take => rfl

theorem bind {x y : Except Fault Splitter} {f g : Splitter → Except Fault Move}
    (h : Twins held n x y) (hf : ∀ s, Extends held n rest more (f s) (g (s.retag held n))) :
    Extends held n rest more (x >>= f) (y >>= g) := by
  cases h with
  | ok s => exact hf s
  | error e e' => exact .error e e'

theorem ite {p : Prop} [Decidable p] {a b a' b' : Except Fault Move}
    (hp : p → Extends held n rest more a a') (hn : ¬p → Extends held n rest more b b') :
    Extends held n rest more (if p then a else b) (if p then a' else b') := by
  split
  · exact hp ‹_›
  · exact hn ‹_›

end Extends

section Append

variable (o : Options) (base base' : Nat) (s : Splitter) (held : Chars) (n : Nat) (cs : Chars)

theorem append_twins : Twins held n (append o base s cs) (append o base' (s.retag held n) cs) := by
  have hd : (s.retag held n).draft = s.draft := rfl
  unfold append
  simp only [hd]
  by_cases h : o.maxSize.isExceededBy (s.draft.push cs).size
  · simp only [if_pos h]
    exact .error _ _
  · simp only [if_neg h]
    exact .ok { s with draft := s.draft.push cs }

theorem token_twins : Twins held n (token o base s cs) (token o base' (s.retag held n) cs) := by
  unfold token
  exact append_twins o base base' { s with draft := _ } held n cs

end Append

/-! ## Texts with more behind them -/

theorem takeWhile_append_of_stop {p : Char → Bool} {cs : Chars} (more : Chars)
    (h : cs.dropWhile p ≠ []) : (cs ++ more).takeWhile p = cs.takeWhile p := by
  induction cs with
  | nil => simp at h
  | cons c cs ih =>
    by_cases hc : p c
    · simp only [List.dropWhile_cons, hc, if_true] at h
      simp [hc, ih h]
    · simp [hc]

theorem dropWhile_append_of_stop {p : Char → Bool} {cs : Chars} (more : Chars)
    (h : cs.dropWhile p ≠ []) : (cs ++ more).dropWhile p = cs.dropWhile p ++ more := by
  rw [List.dropWhile_append, if_neg (by simpa using h)]

theorem startsWith_append {p cs : Chars} (more : Chars) (h : startsWith p cs = true) :
    startsWith p (cs ++ more) = true :=
  startsWith_iff.2 ((startsWith_iff.1 h).trans (List.prefix_append cs more))

/-- Two texts that differ within the first do so with more behind it. -/
theorem startsWith_append_of_differ {p cs : Chars} (more : Chars) (h : startsWith p cs = false)
    (h' : startsWith cs p = false) :
    startsWith p (cs ++ more) = false ∧ startsWith (cs ++ more) p = false := by
  rw [Bool.eq_false_iff, Ne, startsWith_iff] at h h'
  simp only [Bool.eq_false_iff, Ne, startsWith_iff]
  constructor
  · intro hp
    rcases List.prefix_or_prefix_of_prefix hp (List.prefix_append cs more) with hp | hp
    · exact h hp
    · exact h' hp
  · intro hp
    exact h' ((List.prefix_append cs more).trans hp)

/-- The tag is read whole before something that cannot be in it. -/
theorem dollarTag?_append {rest : Chars} (more : Chars) (h : rest.dropWhile isTagChar ≠ []) :
    dollarTag? (rest ++ more) = dollarTag? rest := by
  unfold dollarTag?
  rw [takeWhile_append_of_stop more h, dropWhile_append_of_stop more h]
  obtain ⟨x, after, hx⟩ := List.exists_cons_of_ne_nil h
  simp only [hx, List.cons_append]

theorem length_dollarTag? {rest tag : Chars} (h : dollarTag? rest = some tag) :
    tag.length ≤ rest.length + 1 := by
  unfold dollarTag? at h
  have hl := congrArg List.length (List.takeWhile_append_dropWhile (p := isTagChar) (l := rest))
  cases hx : rest.dropWhile isTagChar with
  | nil => simp [hx] at h
  | cons x after =>
    simp only [hx, Option.ite_none_left_eq_some, Option.some.injEq] at h
    simp only [hx, List.length_append, List.length_cons] at hl
    rw [← h.2]
    simp only [List.length_append, List.length_cons, List.length_nil]
    omega

/-! ## Steps of each mode -/

section Step

variable (o : Options) (base base' : Nat) (s : Splitter) (held : Chars) (n : Nat) (c : Char)
  (rest more : Chars)

theorem openQuote_extends (mark : Mark) (escapes : Bool) :
    Extends held n rest more (openQuote o base s mark escapes c)
      (openQuote o base' (s.retag held n) mark escapes c) := by
  refine .bind (token_twins o base base' s.markOpen held n [c]) fun t => ?_
  exact .take 0 { t with mode := .quoted mark escapes } none (Nat.zero_le _)

theorem plain_extends : Extends held n rest more
    (do return .take 0 (← token o base s [c]) none)
    (do return .take 0 (← token o base' (s.retag held n) [c]) none) := by
  refine .bind (token_twins o base base' s held n [c]) fun t => ?_
  exact .take 0 t none (Nat.zero_le _)

theorem openLineComment_extends {marker : Chars} (h : marker.length - 1 ≤ rest.length) :
    Extends held n rest more (.ok (openLineComment o s marker))
      (.ok (openLineComment o (s.retag held n) marker)) :=
  .take (marker.length - 1) { s.countComment with
    draft := if o.keepComments then s.draft.note marker else s.draft, mode := .lineComment } none h

theorem openPlainComment_extends (h : 0 < rest.length) :
    Extends held n rest more (.ok (openPlainComment o s))
      (.ok (openPlainComment o (s.retag held n))) :=
  .take 1 { s.markOpen.countComment with
    draft := if o.keepComments then s.draft.note ['/', '*'] else s.draft
    mode := .blockComment o.keepComments } none h

theorem openBlockComment_extends (x : Char) :
    Extends held n (x :: rest) more (openBlockComment o base false s rest)
      (openBlockComment o base' false (s.retag held n) (rest ++ more)) := by
  have plain := openPlainComment_extends o s held n (x :: rest) more (by simp)
  unfold openBlockComment
  refine .ite (fun _ => ?_) fun _ => plain
  cases rest with
  | nil => exact .hold _ fun hm => by subst hm; rfl
  | cons y rest =>
    by_cases hy : y = '!'
    · subst hy
      simp only [List.cons_append, beq_self_eq_true, if_true]
      refine .bind (token_twins o base base' s.markOpen held n ['/', '*', '!']) fun t => ?_
      exact .take 2 { t with mode := .blockComment true } none (by simp)
    · simp only [List.cons_append, beq_iff_eq, hy, if_false]
      exact plain

theorem delimiterLine_extends : Extends held n rest more
    (.ok (delimiterLine false s (c :: rest)))
    (.ok (delimiterLine false (s.retag held n) (c :: rest ++ more))) := by
  by_cases h : (c :: rest).dropWhile (· != '\n') = []
  · have hold : delimiterLine false s (c :: rest) = .hold := by
      simp only [delimiterLine, h, List.isEmpty_nil, Bool.not_false, Bool.and_self, if_true]
    rw [hold]
    refine .hold _ fun hm => ?_
    simp only [hm, List.append_nil, delimiterLine, h, List.isEmpty_nil, Bool.not_false,
      Bool.and_self, if_true]
  · have hl := (List.takeWhile_prefix (· != '\n') (l := c :: rest)).length_le
    simp only [List.length_cons] at hl
    simp only [delimiterLine, dropWhile_append_of_stop more h, takeWhile_append_of_stop more h,
      List.isEmpty_eq_false_iff.2 h,
      List.isEmpty_eq_false_iff.2 (List.append_ne_nil_of_left_ne_nil h more),
      Bool.false_and, Bool.false_eq_true, if_false]
    cases words (((c :: rest).takeWhile (· != '\n')).drop "DELIMITER".length) with
    | nil => exact .take _ s none (by omega)
    | cons delimiter _ =>
      exact .take _ { s with
        delimiter, statistics := { s.statistics with
          delimiterChanges := s.statistics.delimiterChanges + 1 } } none (by omega)

theorem readWord_extends : Extends held n rest more (readWord o base false s c rest)
    (readWord o base' false (s.retag held n) c (rest ++ more)) := by
  by_cases h : rest.dropWhile isWordPart = []
  · have hold : readWord o base false s c rest = .ok .hold := by
      simp only [readWord, h, List.isEmpty_nil, Bool.not_false, Bool.and_self, if_true]
      rfl
    rw [hold]
    refine .hold _ fun hm => ?_
    simp only [hm, List.append_nil, readWord, h, List.isEmpty_nil, Bool.not_false,
      Bool.and_self, if_true]
    rfl
  · simp only [readWord, dropWhile_append_of_stop more h, takeWhile_append_of_stop more h,
      List.isEmpty_eq_false_iff.2 h,
      List.isEmpty_eq_false_iff.2 (List.append_ne_nil_of_left_ne_nil h more),
      Bool.false_and, Bool.false_eq_true, if_false]
    refine .ite (fun _ => delimiterLine_extends s held n c rest more) fun _ => ?_
    refine .bind (token_twins o base base' s held n _) fun t => ?_
    exact .take _ _ none (List.takeWhile_prefix isWordPart).length_le

theorem readToken_extends : Extends held n rest more (readToken o base false s c rest)
    (readToken o base' false (s.retag held n) c (rest ++ more)) := by
  have plain := plain_extends o base base' s held n c rest more
  unfold readToken
  refine .ite (fun _ => readWord_extends o base base' s held n c rest more) fun _ => ?_
  refine .ite (fun _ => .take 0 { s with draft := s.draft.pushBlank c } none (Nat.zero_le _))
    fun _ => ?_
  refine .ite (fun _ => openQuote_extends o base base' s held n c rest more _ _) fun _ => ?_
  refine .ite (fun _ => openQuote_extends o base base' s held n c rest more _ _) fun _ => ?_
  refine .ite (fun _ => openQuote_extends o base base' s held n c rest more _ _) fun _ => ?_
  refine .ite (fun _ => openQuote_extends o base base' s held n c rest more _ _) fun _ => ?_
  refine .ite (fun _ => ?dash) fun _ => ?_
  case dash =>
    cases rest with
    | nil => exact .hold _ fun hm => by subst hm; rfl
    | cons x rest =>
      exact .ite (fun _ => openLineComment_extends o s held n (x :: rest) more (by simp))
        fun _ => plain
  refine .ite (fun _ => ?slash) fun _ => ?_
  case slash =>
    cases rest with
    | nil => exact .hold _ fun hm => by subst hm; rfl
    | cons x rest =>
      exact .ite (fun _ => openBlockComment_extends o base base' s held n rest more x)
        fun _ => plain
  refine .ite (fun _ => openLineComment_extends o s held n rest more (by simp)) fun _ => ?_
  refine .ite (fun _ => ?dollar) fun _ => plain
  case dollar =>
    -- A tag that is all there is may go on in what follows.
    by_cases h : rest.dropWhile isTagChar = []
    · have hall : rest.all isTagChar = true := by
        simpa [List.dropWhile_eq_nil_iff] using h
      simp only [dollarTag?, h, hall, Bool.not_false, Bool.and_self, if_true]
      refine .hold _ fun hm => ?_
      subst hm
      simp only [List.append_nil, h, hall, Bool.and_self, if_true]
      rfl
    · have hall : rest.all isTagChar = false := by
        rw [Bool.eq_false_iff]
        exact fun ha => h (List.dropWhile_eq_nil_iff.2 (by simpa using ha))
      have hall' : (rest ++ more).all isTagChar = false := by
        rw [List.all_append, hall, Bool.false_and]
      rw [dollarTag?_append more h, hall, hall']
      cases htag : dollarTag? rest with
      | none => exact plain
      | some tag =>
        refine .bind (token_twins o base base' s.markOpen held n tag) fun t => ?_
        have hl := length_dollarTag? htag
        exact .take _
          { t with mode := .dollarQuoted tag, draft := { t.draft with routine := true } }
          none (by omega)

theorem stepNormal_extends : Extends held n rest more (stepNormal o base false s c rest)
    (stepNormal o base' false (s.retag held n) c (rest ++ more)) := by
  have hdelimiter : (s.retag held n).delimiter = s.delimiter := rfl
  have hdraft : (s.retag held n).draft = s.draft := rfl
  unfold stepNormal
  rw [← List.cons_append, hdelimiter, hdraft]
  cases hp : startsWith s.delimiter (c :: rest) with
  | true =>
    rw [startsWith_append more hp]
    simp only [if_true]
    refine .ite (fun _ => ?_) fun _ => ?_
    · -- an open block keeps the semicolon, which no other token begins with
      cases s.draft.settle with
      | mk draft closed =>
        cases closed with
        | true =>
          have he := emit_retag { s with draft } held n (some s.delimiter)
          simp only [retag, received] at he ⊢
          rw [he]
          exact .take 0 _ _ (Nat.zero_le _)
        | false => exact readToken_extends o base base' { s with draft } held n c rest more
    · have hl := (startsWith_iff.1 hp).length_le
      simp only [List.length_cons] at hl
      rw [emit_retag]
      exact .take _ _ _ (by rw [emit_delimiter]; omega)
  | false =>
    simp only [Bool.false_eq_true, if_false, Bool.not_false, Bool.true_and]
    cases hw : startsWith (c :: rest) s.delimiter with
    | true =>
      refine .hold _ fun hm => ?_
      subst hm
      simp only [List.append_nil, hp, hw, Bool.false_eq_true, if_false, if_true]
    | false =>
      obtain ⟨hp', hw'⟩ := startsWith_append_of_differ more hp hw
      simp only [hp', hw', Bool.false_eq_true, if_false]
      exact readToken_extends o base base' s held n c rest more

theorem stepQuoted_extends (mark : Mark) (escapes : Bool) :
    Extends held n rest more (stepQuoted o base false s mark escapes c rest)
      (stepQuoted o base' false (s.retag held n) mark escapes c (rest ++ more)) := by
  have append (cs : Chars) (extra : Nat) (h : extra ≤ rest.length) : Extends held n rest more
      (do return .take extra (← append o base s cs) none)
      (do return .take extra (← append o base' (s.retag held n) cs) none) :=
    .bind (append_twins o base base' s held n cs) fun t => .take extra t none h
  have close : Extends held n rest more
      (do return .take 0 { (← Splitter.append o base s [c]) with mode := .normal } none)
      (do return .take 0 { (← Splitter.append o base' (s.retag held n) [c]) with
        mode := .normal } none) :=
    .bind (append_twins o base base' s held n [c]) fun t =>
      .take 0 { t with mode := .normal } none (Nat.zero_le _)
  unfold stepQuoted
  refine .ite (fun _ => ?escape) fun _ => .ite (fun _ => ?closing) fun _ => ?plain
  case escape =>
    cases rest with
    | nil => exact .hold _ fun hm => by subst hm; rfl
    | cons x rest => exact append [c, x] 1 (by simp)
  case closing =>
    cases rest with
    | nil => exact .hold _ fun hm => by subst hm; rfl
    | cons x rest => exact .ite (fun _ => append [c, x] 1 (by simp)) fun _ => close
  case plain => exact append [c] 0 (Nat.zero_le _)

theorem stepLineComment_extends : Extends held n rest more (.ok (stepLineComment o s c))
    (.ok (stepLineComment o (s.retag held n) c)) := by
  unfold stepLineComment
  by_cases h : c = '\n'
  · simp only [h, beq_self_eq_true, if_true]
    let draft := if o.keepComments then s.draft else s.draft.gap
    exact .take 0 { s with mode := .normal, draft := draft.pushBlank '\n' } none (Nat.zero_le _)
  · simp only [beq_iff_eq, h, if_false]
    cases o.keepComments with
    | true => exact .take 0 { s with draft := s.draft.note [c] } none (Nat.zero_le _)
    | false => exact .take 0 s none (Nat.zero_le _)

theorem appendIf_twins (kept : Bool) (cs : Chars) :
    Twins held n (appendIf o base s kept cs) (appendIf o base' (s.retag held n) kept cs) := by
  cases kept with
  | true => exact append_twins o base base' s held n cs
  | false => exact .ok s

theorem stepBlockComment_extends (kept : Bool) :
    Extends held n rest more (stepBlockComment o base false s kept c rest)
      (stepBlockComment o base' false (s.retag held n) kept c (rest ++ more)) := by
  have plain : Extends held n rest more
      (do return .take 0 (← appendIf o base s kept [c]) none)
      (do return .take 0 (← appendIf o base' (s.retag held n) kept [c]) none) :=
    .bind (appendIf_twins o base base' s held n kept [c]) fun t => .take 0 t none (Nat.zero_le _)
  unfold stepBlockComment
  refine .ite (fun _ => ?_) fun _ => plain
  cases rest with
  | nil => exact .hold _ fun hm => by subst hm; rfl
  | cons x rest =>
    refine .ite (fun _ => ?_) fun _ => plain
    refine .bind (appendIf_twins o base base' s held n kept [c, x]) fun t => ?_
    exact .take 1 { t with
      draft := if kept then t.draft else t.draft.gap, mode := .normal } none (by simp)

theorem stepDollarQuoted_extends (tag : Chars) :
    Extends held n rest more (stepDollarQuoted o base false s tag c rest)
      (stepDollarQuoted o base' false (s.retag held n) tag c (rest ++ more)) := by
  unfold stepDollarQuoted
  rw [← List.cons_append]
  cases hp : startsWith tag (c :: rest) with
  | true =>
    rw [startsWith_append more hp]
    have hl := (startsWith_iff.1 hp).length_le
    simp only [List.length_cons] at hl
    refine .bind (append_twins o base base' s held n tag) fun t => ?_
    exact .take _ { t with mode := .normal } none (by omega)
  | false =>
    by_cases hs : (c :: rest.take tag.length).length < tag.length
    · simp only [hs, Bool.false_eq_true, if_false, Bool.not_false, decide_true, Bool.and_self,
        if_true]
      refine .hold _ fun hm => ?_
      subst hm
      simp only [List.append_nil, hp, hs, Bool.false_eq_true, if_false, decide_true,
        Bool.and_self, if_true]
      rfl
    · -- enough is there to see that the tag is not, so it does not begin here with more either
      have hl : tag.length ≤ (c :: rest).length := by
        simp only [List.length_cons, List.length_take] at hs ⊢
        omega
      have hp' : startsWith tag (c :: rest ++ more) = false := by
        rw [Bool.eq_false_iff, Ne, startsWith_iff] at hp ⊢
        exact fun h => hp (List.prefix_of_prefix_length_le h (List.prefix_append _ more) hl)
      have hs' : ¬(c :: (rest ++ more).take tag.length).length < tag.length := by
        simp only [List.length_cons, List.length_take, List.length_append] at hs ⊢
        omega
      simp only [hp', hs, hs', Bool.false_eq_true, if_false, Bool.not_false, decide_false,
        Bool.and_false]
      refine .bind (append_twins o base base' s held n [c]) fun t => ?_
      exact .take 0 t none (Nat.zero_le _)

/-- A step that takes a token takes the same token with `more` behind it. -/
theorem step_extends : Extends held n rest more (step o base false s c rest)
    (step o base' false (s.retag held n) c (rest ++ more)) := by
  have hmode : (s.retag held n).mode = s.mode := rfl
  unfold step
  rw [hmode]
  cases s.mode with
  | normal => exact stepNormal_extends o base base' s held n c rest more
  | quoted mark escapes => exact stepQuoted_extends o base base' s held n c rest more mark escapes
  | lineComment => exact stepLineComment_extends o s held n c rest more
  | blockComment kept => exact stepBlockComment_extends o base base' s held n c rest more kept
  | dollarQuoted tag => exact stepDollarQuoted_extends o base base' s held n c rest more tag

end Step

end SqlFerry.Splitter
