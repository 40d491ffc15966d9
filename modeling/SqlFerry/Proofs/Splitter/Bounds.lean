import SqlFerry.Proofs.Splitter.Reading

/-!
# How far a step goes

A step never goes beyond the characters at hand, and it waits only if more of them may come. The
delimiter in force always begins with a character that is no blank, since a `DELIMITER` line sets a
word of its own, and no dollar quote is opened by an empty tag.
-/

namespace SqlFerry.Splitter

open Text

variable {o : Options} {s t : Splitter} {final : Bool} {n place : Nat}

/-- What a splitter is whenever it reads on: delimiters and tags are not empty, and delimiters have
no blanks. -/
structure IsReady (s : Splitter) : Prop extends IsSound s where
  solid : ∀ c ∈ s.delimiter, isBlank c = false

namespace IsReady

theorem fresh (statistics : Statistics) : IsReady { statistics } :=
  ⟨⟨by simp, by simp⟩, List.forall_mem_singleton.2 (by decide)⟩

theorem enter (h : s.IsReady) (hdelimiter : t.delimiter = s.delimiter)
    (hmode : t.mode ≠ .dollarQuoted []) : t.IsReady :=
  ⟨⟨hdelimiter ▸ h.delimiter, hmode⟩, hdelimiter ▸ h.solid⟩

theorem congr (h : s.IsReady) (hdelimiter : t.delimiter = s.delimiter) (hmode : t.mode = s.mode) :
    t.IsReady :=
  h.enter hdelimiter (hmode ▸ h.tag)

theorem advance (h : s.IsReady) (taken : Chars) : (s.advance taken).IsReady :=
  h.congr rfl rfl

/-- No blank begins the delimiter. -/
theorem ne_head (h : s.IsReady) {c : Char} (hc : isBlank c = true) :
    s.delimiter.head? ≠ some c := by
  intro hhead
  rw [h.solid c (List.mem_of_mem_head? hhead)] at hc
  cases hc

end IsReady

/-- Whether a step at `place` with `n` characters behind the first one fails, waits while more may
come, or goes no further than they go and leaves a splitter that is ready to read on. -/
inductive Bounded (final : Bool) (n place : Nat) : Except Fault Move → Prop where
  | error (e : Fault) : Bounded final n place (.error e)
  | hold (h : final = false) : Bounded final n place (.ok .hold)
  | take {extra : Nat} {next : Splitter} (done : Option Statement) (hextra : extra ≤ n)
      (hnext : next.IsReady) (hplace : next.offset = place) :
      Bounded final n place (.ok (.take extra next done))

namespace Bounded

theorem ite {p : Prop} [Decidable p] {a b : Except Fault Move} (ha : p → Bounded final n place a)
    (hb : ¬p → Bounded final n place b) : Bounded final n place (if p then a else b) := by
  split
  · next hp => exact ha hp
  · next hp => exact hb hp

theorem emit (hs : s.IsReady) (terminator : Option Chars) {extra : Nat} (hextra : extra ≤ n) :
    Bounded final n s.offset (.ok (.take extra (s.emit terminator).1 (s.emit terminator).2)) := by
  obtain ⟨statistics, hemit, -⟩ := s.emit_fst terminator
  have hready : (s.emit terminator).1.IsReady := by
    rw [hemit]
    exact hs.congr rfl rfl
  exact .take _ hextra hready (by rw [hemit])

section Append

variable {base : Nat} {cs : Chars} {f : Splitter → Except Fault Move}

theorem append (hs : s.IsReady) (hplace : s.offset = place)
    (hf : ∀ t : Splitter, t.IsReady → t.offset = place → Bounded final n place (f t)) :
    Bounded final n place (append o base s cs >>= f) := by
  rw [append_eq_ite]
  split
  · exact .error _
  · exact hf _ (hs.congr rfl rfl) hplace

theorem token (hs : s.IsReady) (hplace : s.offset = place)
    (hf : ∀ t : Splitter, t.IsReady → t.offset = place → Bounded final n place (f t)) :
    Bounded final n place (token o base s cs >>= f) := by
  unfold Splitter.token
  exact append (hs.congr rfl rfl) hplace hf

theorem appendIf {kept : Bool} (hs : s.IsReady)
    (hplace : s.offset = place)
    (hf : ∀ t : Splitter, t.IsReady → t.offset = place → Bounded final n place (f t)) :
    Bounded final n place (appendIf o base s kept cs >>= f) := by
  cases kept with
  | false => exact hf s hs hplace
  | true => exact append hs hplace hf

end Append

end Bounded

/-! ## Steps of each mode -/

section Step

variable (o : Options) (base : Nat) (final : Bool) (hs : s.IsReady) (c : Char) (rest : Chars)
include hs

theorem openQuote_bounded (mark : Mark) (escapes : Bool) :
    Bounded final n s.offset (openQuote o base s mark escapes c) :=
  .token (hs.congr rfl rfl) rfl fun _ ht hp => .take _ (Nat.zero_le _) (ht.enter rfl (by simp)) hp

theorem plain_bounded :
    Bounded final n s.offset (do return .take 0 (← token o base s [c]) none) :=
  .token hs rfl fun _ ht hp => .take _ (Nat.zero_le _) ht hp

theorem openLineComment_bounded {marker : Chars} (h : marker.length - 1 ≤ n) :
    Bounded final n s.offset (.ok (openLineComment o s marker)) :=
  .take _ h (hs.enter rfl (by simp)) rfl

theorem openPlainComment_bounded (h : 0 < n) :
    Bounded final n s.offset (.ok (openPlainComment o s)) :=
  .take _ h (hs.enter rfl (by simp)) rfl

theorem openBlockComment_bounded (x : Char) :
    Bounded final (x :: rest).length s.offset (openBlockComment o base final s rest) := by
  have hplain := openPlainComment_bounded (n := (x :: rest).length) o final hs (by simp)
  unfold openBlockComment
  refine .ite (fun _ => ?_) fun _ => hplain
  cases rest with
  | nil =>
    cases final with
    | false => exact .hold rfl
    | true => exact hplain
  | cons y rest =>
    refine .ite (fun _ => ?_) fun _ => hplain
    exact .token (hs.congr rfl rfl) rfl fun _ ht hp => .take _ (by simp) (ht.enter rfl (by simp)) hp

theorem delimiterLine_bounded :
    Bounded final rest.length s.offset (.ok (delimiterLine final s (c :: rest))) := by
  have hlength : ((c :: rest).takeWhile (· != '\n')).length - 1 ≤ rest.length := by
    have := (List.takeWhile_sublist (· != '\n') (l := c :: rest)).length_le
    rw [List.length_cons] at this
    omega
  unfold delimiterLine
  dsimp only
  split
  · next hwaits =>
    simp only [Bool.and_eq_true, Bool.not_eq_true'] at hwaits
    exact .hold hwaits.2
  · cases hwords : words (((c :: rest).takeWhile (· != '\n')).drop "DELIMITER".length) with
    | nil => exact .take _ hlength hs rfl
    | cons delimiter others =>
      obtain ⟨hne, hsolid⟩ := solid_of_mem_words (hwords ▸ List.mem_cons_self)
      exact .take _ hlength ⟨⟨hne, hs.tag⟩, hsolid⟩ rfl

theorem readWord_bounded : Bounded final rest.length s.offset (readWord o base final s c rest) := by
  have hlength : (rest.takeWhile isWordPart).length ≤ rest.length :=
    (List.takeWhile_sublist isWordPart).length_le
  unfold readWord
  dsimp only
  refine .ite (fun hwaits => ?_) fun _ => .ite (fun _ => ?_) fun _ => ?_
  · simp only [Bool.and_eq_true, Bool.not_eq_true'] at hwaits
    exact .hold hwaits.2
  · exact delimiterLine_bounded final hs c rest
  · exact .token hs rfl fun _ ht hp => .take _ hlength (ht.congr rfl rfl) hp

theorem readToken_bounded :
    Bounded final rest.length s.offset (readToken o base final s c rest) := by
  have hplain {n : Nat} := plain_bounded (n := n) o base final hs c
  have hquote {n : Nat} := openQuote_bounded (n := n) o base final hs c
  unfold readToken
  refine .ite (fun _ => readWord_bounded o base final hs c rest) fun _ => ?_
  refine .ite (fun _ => .take _ (Nat.zero_le _) (hs.congr rfl rfl) rfl) fun _ => ?_
  refine .ite (fun _ => hquote _ _) fun _ => .ite (fun _ => hquote _ _) fun _ => ?_
  refine .ite (fun _ => hquote _ _) fun _ => .ite (fun _ => hquote _ _) fun _ => ?_
  refine .ite (fun _ => ?dash) fun _ => .ite (fun _ => ?slash) fun _ => ?_
  case dash =>
    cases rest with
    | nil =>
      cases final with
      | false => exact .hold rfl
      | true => exact hplain
    | cons x rest =>
      exact .ite (fun _ => openLineComment_bounded o final hs (by simp)) fun _ => hplain
  case slash =>
    cases rest with
    | nil =>
      cases final with
      | false => exact .hold rfl
      | true => exact hplain
    | cons x rest =>
      exact .ite (fun _ => openBlockComment_bounded o base final hs rest x) fun _ => hplain
  refine .ite (fun _ => openLineComment_bounded o final hs (by simp)) fun _ => ?_
  refine .ite (fun _ => ?_) fun _ => hplain
  cases htag : dollarTag? rest with
  | some tag =>
    have hlength := length_dollarTag? htag
    obtain ⟨_, _, heq⟩ := eq_of_dollarTag? htag
    refine .token (hs.congr rfl rfl) rfl fun t ht hp => .take _ (by omega) ?_ hp
    exact ht.enter rfl (by simp [heq])
  | none =>
    refine .ite (fun hwaits => ?_) fun _ => hplain
    simp only [Bool.and_eq_true, Bool.not_eq_true'] at hwaits
    exact .hold hwaits.1

theorem stepNormal_bounded :
    Bounded final rest.length s.offset (stepNormal o base final s c rest) := by
  unfold stepNormal
  refine .ite (fun hstarts => ?_) fun _ => .ite (fun hwaits => ?_) fun _ => ?_
  · have hlength := (startsWith_iff.1 hstarts).length_le
    rw [List.length_cons] at hlength
    dsimp only
    refine .ite (fun _ => ?_) fun _ => ?_
    · generalize s.draft.settle = settled
      obtain ⟨draft, ends⟩ := settled
      have hdraft : IsReady { s with draft } := hs.congr rfl rfl
      cases ends with
      | true => exact .emit hdraft _ (Nat.zero_le _)
      | false => exact readToken_bounded o base final hdraft c rest
    · exact .emit hs _ (by rw [emit_delimiter]; omega)
  · simp only [Bool.and_eq_true, Bool.not_eq_true'] at hwaits
    exact .hold hwaits.1
  · exact readToken_bounded o base final hs c rest

theorem stepQuoted_bounded (mark : Mark) (escapes : Bool) :
    Bounded final rest.length s.offset (stepQuoted o base final s mark escapes c rest) := by
  have hstay {cs : Chars} {extra : Nat} (hextra : extra ≤ rest.length) :
      Bounded final rest.length s.offset (do return .take extra (← append o base s cs) none) :=
    .append hs rfl fun _ ht hp => .take _ hextra ht hp
  have hclose {cs : Chars} : Bounded final rest.length s.offset
      (do return .take 0 { (← append o base s cs) with mode := .normal } none) :=
    .append hs rfl fun _ ht hp => .take _ (Nat.zero_le _) (ht.enter rfl (by simp)) hp
  unfold stepQuoted
  refine .ite (fun _ => ?_) fun _ => .ite (fun _ => ?_) fun _ => hstay (Nat.zero_le _)
  · cases rest with
    | nil =>
      cases final with
      | false => exact .hold rfl
      | true => exact hstay (Nat.zero_le _)
    | cons x rest => exact hstay (by simp)
  · cases rest with
    | nil =>
      cases final with
      | false => exact .hold rfl
      | true => exact hclose
    | cons x rest => exact .ite (fun _ => hstay (by simp)) fun _ => hclose

theorem stepLineComment_bounded : Bounded final n s.offset (.ok (stepLineComment o s c)) := by
  unfold stepLineComment
  split
  · exact .take _ (Nat.zero_le _) (hs.enter rfl (by simp)) rfl
  · split
    · exact .take _ (Nat.zero_le _) (hs.congr rfl rfl) rfl
    · exact .take _ (Nat.zero_le _) hs rfl

theorem stepBlockComment_bounded (kept : Bool) :
    Bounded final rest.length s.offset (stepBlockComment o base final s kept c rest) := by
  have hplain : Bounded final rest.length s.offset
      (do return .take 0 (← appendIf o base s kept [c]) none) :=
    .appendIf hs rfl fun _ ht hp => .take _ (Nat.zero_le _) ht hp
  unfold stepBlockComment
  refine .ite (fun _ => ?_) fun _ => hplain
  cases rest with
  | nil =>
    cases final with
    | false => exact .hold rfl
    | true => exact hplain
  | cons x rest =>
    refine .ite (fun _ => ?_) fun _ => hplain
    exact .appendIf hs rfl fun t ht hp => .take _ (by simp) (ht.enter rfl (by simp)) hp

theorem stepDollarQuoted_bounded (tag : Chars) :
    Bounded final rest.length s.offset (stepDollarQuoted o base final s tag c rest) := by
  unfold stepDollarQuoted
  refine .ite (fun hstarts => ?_) fun _ => .ite (fun hwaits => ?_) fun _ => ?_
  · have hlength := (startsWith_iff.1 hstarts).length_le
    rw [List.length_cons] at hlength
    exact .append hs rfl fun _ ht hp => .take _ (by omega) (ht.enter rfl (by simp)) hp
  · simp only [Bool.and_eq_true, Bool.not_eq_true'] at hwaits
    exact .hold hwaits.1
  · exact .append hs rfl fun _ ht hp => .take _ (Nat.zero_le _) ht hp

theorem step_bounded : Bounded final rest.length s.offset (step o base final s c rest) := by
  unfold step
  cases s.mode with
  | normal => exact stepNormal_bounded o base final hs c rest
  | quoted mark escapes => exact stepQuoted_bounded o base final hs c rest mark escapes
  | lineComment => exact stepLineComment_bounded o final hs c
  | blockComment kept => exact stepBlockComment_bounded o base final hs c rest kept
  | dollarQuoted tag => exact stepDollarQuoted_bounded o base final hs c rest tag

end Step

/-! ## Scans -/

/-- A scan leaves a splitter that is ready and holds back the end of the characters at hand, behind
those that were taken. To the end of a script nothing is held back. -/
theorem IsReady.of_scan (hs : s.IsReady) {base : Nat} {held : Chars} {done found : List Statement}
    (h : scan o base final s held done = .ok (t, found)) :
    t.IsReady ∧ (final = true → t.held = []) ∧
      ∃ taken, held = taken ++ t.held ∧ t.offset = s.offset + taken.length := by
  revert hs h
  apply scan_induction (motive := fun s held _ r => s.IsReady → r = .ok (t, found) →
    t.IsReady ∧ (final = true → t.held = []) ∧
      ∃ taken, held = taken ++ t.held ∧ t.offset = s.offset + taken.length)
  case nil =>
    rintro s done hs ⟨⟩
    exact ⟨hs.congr rfl rfl, fun _ => rfl, [], rfl, rfl⟩
  case error =>
    rintro s c rest done e - - ⟨⟩
  case hold =>
    rintro s c rest done hstep hs ⟨⟩
    have hbounded := step_bounded o base final hs c rest
    rw [hstep] at hbounded
    cases hbounded with
    | hold hfinal => exact ⟨hs.congr rfl rfl, fun h => by simp [hfinal] at h, [], rfl, rfl⟩
  case take =>
    intro s c rest done extra next more hstep ih hs h
    have hbounded := step_bounded o base final hs c rest
    rw [hstep] at hbounded
    cases hbounded with
    | take _ hextra hnext hplace =>
      obtain ⟨ht, hheld, taken, hrest, hoffset⟩ := ih (hnext.advance _) h
      refine ⟨ht, hheld, c :: rest.take extra ++ taken, ?_, ?_⟩
      · rw [List.append_assoc, ← hrest, List.cons_append, List.take_append_drop]
      · rw [hoffset, Splitter.advance, hplace, List.length_append, Nat.add_assoc]

end SqlFerry.Splitter
