import Mathlib.Data.List.Chain
import SqlFerry.Proofs.Text.Blanks
import SqlFerry.Value.Decimal

/-!
# Numbers as they are written

The digits of a whole number, which reading takes back to the number, and the characters that other
numbers are written with.
-/

namespace SqlFerry.Value

open Text

variable {c : Char} {cs : Chars} {n : Int}

theorem toList_toString_of_nonneg (h : 0 ≤ n) :
    (toString n).toList = Nat.toDigits 10 n.natAbs := by
  obtain ⟨m, rfl⟩ := Int.eq_ofNat_of_zero_le h
  exact Nat.toList_repr

theorem toList_toString_of_neg (h : n < 0) :
    (toString n).toList = '-' :: Nat.toDigits 10 n.natAbs := by
  obtain ⟨m, rfl⟩ := Int.eq_negSucc_of_lt_zero h
  change ("-" ++ (m + 1).repr).toList = _
  rw [String.toList_append, Nat.toList_repr]
  rfl

/-! ## Digits -/

theorem toNat_of_isDigit (h : c.isDigit = true) : 48 ≤ c.toNat ∧ c.toNat ≤ 57 := by
  simp only [Char.isDigit, Bool.and_eq_true, decide_eq_true_eq, UInt32.le_iff_toNat_le] at h
  exact h

theorem isAsciiDigit_of_isDigit (h : c.isDigit = true) : isAsciiDigit c = true := by
  obtain ⟨hlow, hhigh⟩ := toNat_of_isDigit h
  simp only [isAsciiDigit, Char.le_def, UInt32.le_iff_toNat_le, Bool.and_eq_true,
    decide_eq_true_eq]
  exact ⟨hlow, hhigh⟩

theorem digitValue?_of_isDigit (h : c.isDigit = true) : digitValue? c = some (c.toNat - 48) := by
  obtain ⟨-, hhigh⟩ := toNat_of_isDigit h
  rw [digitValue?, if_pos (by omega), isAsciiDigit_of_isDigit h, if_pos rfl]

theorem isDecimal_of_isDigit (h : c.isDigit = true) : isDecimal c = true := by
  rw [isDecimal, digitValue?_of_isDigit h, Option.isSome_some]

theorem isDigitForm_of_isDigit (h : c.isDigit = true) : isDigitForm c = true := by
  rw [isDigitForm, isDecimal_of_isDigit h, Bool.true_or]

theorem isWord_of_isDigit (h : c.isDigit = true) : isWord c = true := by
  obtain ⟨-, hhigh⟩ := toNat_of_isDigit h
  rw [isWord, isLetterOrNumber, if_pos (by omega), isAsciiDigit_of_isDigit h, Bool.or_true,
    Bool.true_or]

theorem isDigit_of_mem_toDigits {n : Nat} (h : c ∈ Nat.toDigits 10 n) : c.isDigit = true :=
  Nat.isDigit_of_mem_toDigits (by decide) (by decide) h

/-! ## Reading -/

theorem readNat?_of_isDigit (hne : cs ≠ []) (h : ∀ c ∈ cs, c.isDigit = true) :
    readNat? cs = some (Nat.ofDigitChars 10 cs 0) := by
  have fold (init : Nat) : cs.foldl (fun n c => n.bind fun n =>
      (digitValue? c).map fun d => 10 * n + d) (some init) =
        some (Nat.ofDigitChars 10 cs init) := by
    clear hne
    induction cs generalizing init with
    | nil => rfl
    | cons c cs ih =>
      rw [List.foldl_cons, Option.bind_some, digitValue?_of_isDigit (h c List.mem_cons_self),
        Option.map_some, ih fun x hx => h x (List.mem_cons_of_mem _ hx)]
      rfl
  rw [readNat?, List.isEmpty_eq_false_iff.2 hne]
  exact fold 0

theorem ungroup?_of_isDigit (h : ∀ c ∈ cs, c.isDigit = true) : ungroup? cs = some cs := by
  have after (digit : Bool) : ungroupAfter digit cs = some cs := by
    induction cs generalizing digit with
    | nil => rfl
    | cons c cs ih =>
      have hc : (c == '_') = false := by
        rw [beq_eq_false_iff_ne]
        rintro rfl
        exact absurd (h '_' List.mem_cons_self) (by decide)
      rw [ungroupAfter, hc, if_neg Bool.false_ne_true,
        ih fun x hx => h x (List.mem_cons_of_mem _ hx), Option.map_some]
  exact after false

theorem readWhole_of_splitSign {text : String} {negative : Bool} {m : Nat}
    (hsign : splitSign (trimSpace text.toList) = (negative, Nat.toDigits 10 m)) :
    readWhole text = if maxDigits < (Nat.toDigits 10 m).length then
      .error (.tooLong (Nat.toDigits 10 m).length) else
        .ok (if negative then -(m : Int) else m) := by
  have hdigits : ∀ c ∈ Nat.toDigits 10 m, c.isDigit = true := fun _ => isDigit_of_mem_toDigits
  have hrun : (Nat.toDigits 10 m).takeWhile (fun c => isDecimal c || c == '_') =
      Nat.toDigits 10 m := by
    refine List.takeWhile_eq_self_iff.2 fun c hc => ?_
    rw [isDecimal_of_isDigit (hdigits c hc), Bool.true_or]
  rw [readWhole, hsign]
  dsimp only
  rw [hrun, ungroup?_of_isDigit hdigits]
  dsimp only
  rw [readNat?_of_isDigit Nat.toDigits_ne_nil hdigits]
  dsimp only
  rw [if_pos rfl, Nat.ofDigitChars_ten_toDigits]

/-- A whole number is read back from how it is written, unless it has too many digits. -/
theorem readWhole_toString_eq (n : Int) : readWhole (toString n) =
    if maxDigits < (Nat.toDigits 10 n.natAbs).length then
      .error (.tooLong (Nat.toDigits 10 n.natAbs).length) else .ok n := by
  have hspace {cs : Chars} (hcs : ∀ c ∈ cs, c.isDigit = true ∨ c = '-') : trimSpace cs = cs := by
    have hkeep : ∀ c ∈ cs, ¬isWhiteSpace c = true := by
      intro c hc
      have hblank : isBlank c = false := by
        rcases hcs c hc with hdigit | rfl
        · exact not_isBlank_of_isWord (isWord_of_isDigit hdigit)
        · decide
      simp [isWhiteSpace, hblank]
    have hleft : cs.dropWhile isWhiteSpace = cs := by
      cases cs with
      | nil => rfl
      | cons c cs => exact List.dropWhile_cons_of_neg (hkeep c List.mem_cons_self)
    have hright : cs.reverse.dropWhile isWhiteSpace = cs.reverse := by
      cases hcs' : cs.reverse with
      | nil => rfl
      | cons c rest =>
        exact List.dropWhile_cons_of_neg (hkeep c (List.mem_reverse.1 (hcs' ▸ List.mem_cons_self)))
    rw [trimSpace, hleft, hright, List.reverse_reverse]
  rcases Int.lt_or_le n 0 with hneg | hpos
  · have hsign : splitSign (trimSpace (toString n).toList) =
        (true, Nat.toDigits 10 n.natAbs) := by
      rw [toList_toString_of_neg hneg, hspace]
      · rfl
      · intro c hc
        exact (List.mem_cons.1 hc).symm.imp_left isDigit_of_mem_toDigits
    rw [readWhole_of_splitSign hsign, if_pos rfl, Int.ofNat_natAbs_of_nonpos (by omega),
      Int.neg_neg]
  · have hsign : splitSign (trimSpace (toString n).toList) =
        (false, Nat.toDigits 10 n.natAbs) := by
      rw [toList_toString_of_nonneg hpos, hspace fun c hc => .inl (isDigit_of_mem_toDigits hc)]
      unfold splitSign
      split
      · next h => exact absurd (isDigit_of_mem_toDigits (h ▸ List.mem_cons_self)) (by decide)
      · next h => exact absurd (isDigit_of_mem_toDigits (h ▸ List.mem_cons_self)) (by decide)
      · rfl
    rw [readWhole_of_splitSign hsign, if_neg Bool.false_ne_true, Int.natAbs_of_nonneg hpos]

theorem readWhole_toString (h : HasFewDigits n) : readWhole (toString n) = .ok n := by
  rw [readWhole_toString_eq, if_neg (Nat.not_lt.2 h)]

/-! ## Characters -/

def isNumberChar (c : Char) : Bool :=
  c.isDigit || ['.', '+', 'e', 'E'].contains c

structure IsNumberText (cs : Chars) : Prop where
  chars : ∀ c ∈ cs, isNumberChar c = true ∨ c = '-'
  dashes : cs.IsChain fun a b => a = '-' → b ≠ '-'

theorem ne_dash_of_isNumberChar (h : isNumberChar c = true) : c ≠ '-' := by
  rintro rfl
  exact absurd h (by decide)

theorem isNumberChar_of_isDigit (h : c.isDigit = true) : isNumberChar c = true := by
  rw [isNumberChar, h, Bool.true_or]

namespace IsNumberText

variable {a b : Chars}

theorem unsigned (h : ∀ c ∈ cs, isNumberChar c = true) : IsNumberText cs where
  chars := fun c hc => .inl (h c hc)
  dashes := List.Pairwise.isChain <| List.pairwise_of_forall_mem_list
    fun c hc _ _ hdash => absurd hdash (ne_dash_of_isNumberChar (h c hc))

theorem after (ha : ∀ c ∈ a, isNumberChar c = true) (hb : IsNumberText b) :
    IsNumberText (a ++ b) where
  chars := fun c hc => (List.mem_append.1 hc).elim (fun hc => .inl (ha c hc)) (hb.chars c)
  dashes := List.isChain_append.2 ⟨(unsigned ha).dashes, hb.dashes, fun c hc _ _ hdash =>
    absurd hdash (ne_dash_of_isNumberChar (ha c (List.mem_of_mem_getLast? hc)))⟩

theorem negative (h : IsNumberText cs) (hfirst : cs.head? ≠ some '-') :
    IsNumberText ('-' :: cs) where
  chars := by
    intro c hc
    rcases List.mem_cons.1 hc with rfl | hc
    · exact .inr rfl
    · exact h.chars c hc
  dashes := List.isChain_cons.2 ⟨fun c hc _ hdash => hfirst (hdash ▸ hc), h.dashes⟩

/-- A power of ten behind other characters of a number. -/
theorem power (ha : ∀ c ∈ a, isNumberChar c = true) (hb : ∀ c ∈ b, isNumberChar c = true)
    {sign : Char} (hsign : sign = '-' ∨ sign = '+') : IsNumberText (a ++ sign :: b) := by
  refine after ha ?_
  rcases hsign with rfl | rfl
  · exact (unsigned hb).negative fun hfirst =>
      ne_dash_of_isNumberChar (hb _ (List.mem_of_mem_head? hfirst)) rfl
  · refine unsigned fun c hc => ?_
    rcases List.mem_cons.1 hc with rfl | hc
    · decide
    · exact hb c hc

end IsNumberText

theorem isNumberText_toString (n : Int) : IsNumberText (toString n).toList := by
  have hdigits : ∀ c ∈ Nat.toDigits 10 n.natAbs, isNumberChar c = true :=
    fun c hc => isNumberChar_of_isDigit (isDigit_of_mem_toDigits hc)
  rcases Int.lt_or_le n 0 with hneg | hpos
  · rw [toList_toString_of_neg hneg]
    exact (IsNumberText.unsigned hdigits).negative fun hfirst =>
      ne_dash_of_isNumberChar (hdigits _ (List.mem_of_mem_head? hfirst)) rfl
  · rw [toList_toString_of_nonneg hpos]
    exact .unsigned hdigits

/-! ## Binary numbers -/

theorem isDigit_of_mem_digitText {d : Digits} (h : c ∈ digitText d) : c.isDigit = true := by
  rcases List.mem_append.1 h with h | h
  · rw [List.eq_of_mem_replicate h]
    decide
  · exact isDigit_of_mem_toDigits h

theorem mem_of_mem_dropZeros (h : c ∈ dropZeros cs) : c ∈ cs :=
  List.mem_reverse.1 ((List.dropWhile_sublist _).mem (List.mem_reverse.1 h))

theorem isDigit_of_mem_placed (hcs : ∀ c ∈ cs, c.isDigit = true) (point : Int) :
    (∀ c ∈ (placed cs point).1, c.isDigit = true) ∧
      ∀ c ∈ (placed cs point).2, c.isDigit = true := by
  have hzeros (n : Nat) : ∀ c ∈ List.replicate n '0', c.isDigit = true := by
    intro c hc
    rw [List.eq_of_mem_replicate hc]
    decide
  unfold placed
  split
  · refine ⟨by simp, fun c hc => ?_⟩
    exact (List.mem_append.1 hc).elim (hzeros _ c) (hcs c)
  · refine ⟨fun c hc => ?_, fun c hc => hcs c (List.mem_of_mem_drop hc)⟩
    exact (List.mem_append.1 hc).elim (fun hc => hcs c (List.mem_of_mem_take hc)) (hzeros _ c)

theorem isNumberText_signed {x : Dyadic} (h : IsNumberText cs) (hfirst : cs.head? ≠ some '-') :
    IsNumberText (signed x cs).toList := by
  rw [signed, String.toList_ofList]
  split
  · exact h.negative hfirst
  · exact h

theorem isNumberText_scientific (hcs : ∀ c ∈ cs, c.isDigit = true) (point : Int) :
    IsNumberText (scientific cs point) ∧ (scientific cs point).head? ≠ some '-' := by
  have hhead : ∀ c ∈ cs.take 1 ++ (if (cs.drop 1).isEmpty then [] else '.' :: cs.drop 1) ++ ['e'],
      isNumberChar c = true := by
    intro c hc
    have hpart {n : Nat} (hc : c ∈ cs.drop n ∨ c ∈ cs.take n) : isNumberChar c = true :=
      isNumberChar_of_isDigit (hcs c (hc.elim List.mem_of_mem_drop List.mem_of_mem_take))
    simp only [List.mem_append, List.mem_singleton] at hc
    rcases hc with (hc | hc) | rfl
    · exact hpart (.inr hc)
    · split at hc
      · cases hc
      · rcases List.mem_cons.1 hc with rfl | hc
        · decide
        · exact hpart (.inl hc)
    · decide
  have hpower : ∀ c ∈ List.replicate (2 - (Nat.toDigits 10 (point - 1).natAbs).length) '0' ++
      Nat.toDigits 10 (point - 1).natAbs, isNumberChar c = true := by
    intro c hc
    rcases List.mem_append.1 hc with hc | hc
    · rw [List.eq_of_mem_replicate hc]
      decide
    · exact isNumberChar_of_isDigit (isDigit_of_mem_toDigits hc)
  have hsplit : scientific cs point =
      (cs.take 1 ++ (if (cs.drop 1).isEmpty then [] else '.' :: cs.drop 1) ++ ['e']) ++
        (if point - 1 < 0 then '-' else '+') ::
          (List.replicate (2 - (Nat.toDigits 10 (point - 1).natAbs).length) '0' ++
            Nat.toDigits 10 (point - 1).natAbs) := by
    simp [scientific]
  rw [hsplit]
  refine ⟨.power hhead hpower (by split <;> simp), fun hfirst => ?_⟩
  rw [List.head?_append_of_ne_nil _ (by simp)] at hfirst
  exact ne_dash_of_isNumberChar (hhead _ (List.mem_of_mem_head? hfirst)) rfl

/-- A finite binary number is written without two dashes side by side. -/
theorem isNumberText_floatText {x : Float} (hnan : x.isNaN = false) (hinf : x.isInf = false) :
    IsNumberText (floatText x).toList := by
  have hspecial : special? x = none := by
    rw [special?, hnan, hinf]
    rfl
  have hdigits {s : Digits} : ∀ c ∈ dropZeros (digitText s), c.isDigit = true :=
    fun c hc => isDigit_of_mem_digitText (mem_of_mem_dropZeros hc)
  rw [floatText, hspecial]
  dsimp only
  split
  · exact isNumberText_signed (.unsigned (List.all_eq_true.1 (by decide))) (by decide)
  · split
    · obtain ⟨hwhole, hpart⟩ := isDigit_of_mem_placed (hdigits (s := shortestDigits (dyadic x)))
        (shortestDigits (dyadic x)).point
      generalize placed _ _ = p at hwhole hpart ⊢
      have hall : ∀ c ∈ p.1 ++ '.' :: (if p.2.isEmpty then ['0'] else p.2),
          isNumberChar c = true := by
        intro c hc
        rcases List.mem_append.1 hc with hc | hc
        · exact isNumberChar_of_isDigit (hwhole c hc)
        · rcases List.mem_cons.1 hc with rfl | hc
          · decide
          · split at hc
            · rw [List.mem_singleton.1 hc]
              decide
            · exact isNumberChar_of_isDigit (hpart c hc)
      exact isNumberText_signed (.unsigned hall) fun hfirst =>
        ne_dash_of_isNumberChar (hall _ (List.mem_of_mem_head? hfirst)) rfl
    · obtain ⟨hnumber, hfirst⟩ := isNumberText_scientific hdigits _
      exact isNumberText_signed hnumber hfirst

theorem mem_of_special? {x : Float} {s : String} (h : special? x = some s) :
    s ∈ ["nan", "inf", "-inf"] := by
  unfold special? at h
  split at h
  · cases h
    decide
  · split at h
    · cases h
      split <;> decide
    · cases h

/-- No text of a binary number has a quote in it. -/
theorem quote_notMem_floatText (x : Float) : '\'' ∉ (floatText x).toList := by
  cases hspecial : special? x with
  | some s =>
    have hs : ∀ s ∈ ["nan", "inf", "-inf"], '\'' ∉ s.toList := by decide
    rw [floatText, hspecial]
    exact hs s (mem_of_special? hspecial)
  | none =>
    have hfinite : x.isNaN = false ∧ x.isInf = false := by
      rw [special?] at hspecial
      split at hspecial
      · cases hspecial
      · next hnan =>
        split at hspecial
        · cases hspecial
        · next hinf => exact ⟨by simpa using hnan, by simpa using hinf⟩
    intro hquote
    rcases (isNumberText_floatText hfinite.1 hfinite.2).chars _ hquote with h | h
    · exact absurd h (by decide)
    · cases h

/-! ## Decimal numbers -/

/-- Digits with a point among them, a sign before them and a power of ten behind them. -/
theorem isNumberText_of_parts (negative : Bool) {body : Chars}
    (hbody : ∀ c ∈ body, isNumberChar c = true) (power : Int) :
    IsNumberText ((if negative then "-" else "") ++ String.ofList body ++
      if power = 0 then "" else
        "E" ++ (if power < 0 then "-" else "+") ++ toString power.natAbs).toList := by
  have hunsigned : ∀ c ∈ body ++ ['E'], isNumberChar c = true := by
    intro c hc
    rcases List.mem_append.1 hc with hc | hc
    · exact hbody c hc
    · rw [List.mem_singleton.1 hc]
      decide
  have hsign : (if power < 0 then "-" else "+").toList = [if power < 0 then '-' else '+'] := by
    split <;> rfl
  have hfirst {b : Chars} (hb : b.head? ≠ some '-') : (body ++ b).head? ≠ some '-' := by
    cases body with
    | nil => exact hb
    | cons c body =>
      intro hdash
      exact ne_dash_of_isNumberChar (hbody c List.mem_cons_self) (Option.some.inj hdash)
  have hnumber : ∃ b, (if power = 0 then "" else
      "E" ++ (if power < 0 then "-" else "+") ++ toString power.natAbs).toList = b ∧
        b.head? ≠ some '-' ∧ IsNumberText (body ++ b) := by
    split
    · exact ⟨[], rfl, by simp, by simpa using IsNumberText.unsigned hbody⟩
    · refine ⟨'E' :: (if power < 0 then '-' else '+') :: Nat.toDigits 10 power.natAbs, ?_, by simp,
        ?_⟩
      · simp [hsign]
      · have hsigns : (if power < 0 then '-' else '+') = '-' ∨
            (if power < 0 then '-' else '+') = '+' := by
          split <;> simp
        have := IsNumberText.power hunsigned
          (fun c hc => isNumberChar_of_isDigit (isDigit_of_mem_toDigits (n := power.natAbs) hc))
          hsigns
        simpa using this
  obtain ⟨b, hb, hhead, hnumber⟩ := hnumber
  rw [String.toList_append, String.toList_append, String.toList_ofList, hb]
  cases negative with
  | true => exact hnumber.negative (hfirst hhead)
  | false => exact hnumber

/-- A decimal number is written without two dashes side by side. -/
theorem Decimal.isNumberText_toText (negative : Bool) (coefficient : Nat) (power : Int) :
    IsNumberText (Decimal.finite negative coefficient power).toText.toList := by
  have hdigits : ∀ c ∈ Nat.toDigits 10 coefficient, isNumberChar c = true :=
    fun c hc => isNumberChar_of_isDigit (isDigit_of_mem_toDigits hc)
  have hzeros (n : Nat) : ∀ c ∈ List.replicate n '0', isNumberChar c = true := by
    intro c hc
    rw [List.eq_of_mem_replicate hc]
    decide
  have body (point : Int) : ∀ c ∈ (if point ≤ 0 then
      '0' :: '.' :: List.replicate (-point).toNat '0' ++ Nat.toDigits 10 coefficient
      else if (Nat.toDigits 10 coefficient).length ≤ point.toNat then
        Nat.toDigits 10 coefficient ++
          List.replicate (point.toNat - (Nat.toDigits 10 coefficient).length) '0'
      else (Nat.toDigits 10 coefficient).take point.toNat ++
        '.' :: (Nat.toDigits 10 coefficient).drop point.toNat), isNumberChar c = true := by
    intro c hc
    split at hc
    · simp only [List.mem_cons, List.cons_append, List.mem_append] at hc
      rcases hc with rfl | rfl | hc | hc
      · decide
      · decide
      · exact hzeros _ c hc
      · exact hdigits c hc
    · split at hc
      · exact (List.mem_append.1 hc).elim (hdigits c) (hzeros _ c)
      · simp only [List.mem_append, List.mem_cons] at hc
        rcases hc with hc | rfl | hc
        · exact hdigits c (List.mem_of_mem_take hc)
        · decide
        · exact hdigits c (List.mem_of_mem_drop hc)
  exact isNumberText_of_parts negative (body _) _

end SqlFerry.Value
