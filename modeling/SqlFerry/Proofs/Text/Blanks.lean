import Mathlib.Data.List.DropRight
import SqlFerry.Text.Basic

/-!
# Blanks

Characters of words are no blanks, and trimming takes the blanks off both ends of a text and nothing
else.
-/

namespace SqlFerry.Text

variable {x y cs pre post : Chars}

/-- What holds of the characters of a text is decided over the text, not over all characters. -/
instance decidableForallMem (x : Chars) (p : Char → Prop) [DecidablePred p] :
    Decidable (∀ c ∈ x, p c) :=
  List.decidableBAll p x

theorem isBlank_of_mem_space : ∀ c ∈ [' '], isBlank c = true :=
  List.forall_mem_singleton.2 (by decide)

def blankRanges : List (Nat × Nat) :=
  [(0x85, 0x85), (0xA0, 0xA0), (0x1680, 0x1680), (0x2000, 0x200A), (0x2028, 0x2028),
    (0x2029, 0x2029), (0x202F, 0x202F), (0x205F, 0x205F), (0x3000, 0x3000)]

theorem exists_blankRange {c : Char} (h : isBlank c = true) (hascii : ¬c.toNat < 128) :
    ∃ b ∈ blankRanges, b.1 ≤ c.toNat ∧ c.toNat ≤ b.2 := by
  rw [isBlank, if_neg hascii] at h
  simp only [Bool.or_eq_true, Bool.and_eq_true, beq_iff_eq, decide_eq_true_eq] at h
  simp only [blankRanges, List.mem_cons, List.not_mem_nil, or_false, exists_eq_or_imp,
    exists_eq_left]
  omega

def sparesBlanks (ranges : List (Nat × Nat)) : Bool :=
  blankRanges.all fun b => ranges.all fun r => r.2.blt b.1 || b.2.blt r.1

theorem lt_or_lt_of_sparesBlanks {ranges : List (Nat × Nat)} {r : Nat × Nat} {c : Char}
    (h : sparesBlanks ranges = true) (hr : r ∈ ranges) (hc : isBlank c = true)
    (hascii : ¬c.toNat < 128) : r.2 < c.toNat ∨ c.toNat < r.1 := by
  obtain ⟨b, hb, hlow, hhigh⟩ := exists_blankRange hc hascii
  have hout := List.all_eq_true.1 (List.all_eq_true.1 h b hb) r hr
  simp only [Bool.or_eq_true, Nat.blt_eq] at hout
  omega

theorem inRanges_of_isBlank {ranges : Array (Nat × Nat)} {c : Char}
    (h : sparesBlanks ranges.toList = true) (hc : isBlank c = true) (hascii : ¬c.toNat < 128) :
    inRanges ranges c.toNat = false := by
  rw [inRanges, ← Array.any_toList, List.any_eq_false]
  intro r hr
  have hout := lt_or_lt_of_sparesBlanks h hr hc hascii
  simp only [Bool.and_eq_true, decide_eq_true_eq, not_and]
  omega

theorem isWord_of_isBlank {c : Char} (h : isBlank c = true) : isWord c = false := by
  have hn : c.val.toNat = c.toNat := rfl
  have hunderscore : (c == '_') = false := by
    rw [beq_eq_false_iff_ne]
    rintro rfl
    exact absurd h (by decide)
  rw [isWord, hunderscore, Bool.or_false, isLetterOrNumber]
  split
  · next hascii =>
    unfold isBlank at h
    dsimp only at h
    rw [if_pos hascii] at h
    simp only [isAsciiLetter, isAsciiDigit, Char.le_def, UInt32.le_iff_toNat_le, hn]
    simp at h ⊢
    omega
  · next hascii => exact inRanges_of_isBlank (by decide +kernel) h hascii

theorem not_isBlank_of_isWord {c : Char} (h : isWord c = true) : isBlank c = false := by
  rw [Bool.eq_false_iff]
  intro hblank
  rw [isWord_of_isBlank hblank] at h
  cases h

theorem isDecimal_of_isBlank {c : Char} (h : isBlank c = true) : isDecimal c = false := by
  have hn : c.val.toNat = c.toNat := rfl
  rw [isDecimal, digitValue?]
  split
  · next hascii =>
    have hdigit : isAsciiDigit c = false := by
      rw [isBlank, if_pos hascii] at h
      simp only [isAsciiDigit, Char.le_def, UInt32.le_iff_toNat_le, hn]
      simp at h ⊢
      omega
    rw [hdigit]
    rfl
  · next hascii =>
    rw [Option.isSome_map, Option.isSome_eq_false_iff, Option.isNone_iff_eq_none,
      Array.find?_eq_none]
    intro r hr
    have hspares : sparesBlanks Table.decimalDigit.toList = true := by decide +kernel
    have hout := lt_or_lt_of_sparesBlanks hspares (Array.mem_toList_iff.2 hr) h hascii
    simp only [Bool.and_eq_true, decide_eq_true_eq, not_and]
    omega

/-! ## Trimming -/

theorem trimLeft_append (hx : ∀ c ∈ x, isBlank c = true) : trimLeft (x ++ y) = trimLeft y :=
  List.dropWhile_append_of_pos hx

theorem trimLeft_eq_self (h : ∀ c ∈ y.head?, isBlank c = false) : trimLeft y = y := by
  cases y with
  | nil => rfl
  | cons c y => rw [trimLeft, List.dropWhile_cons_of_neg (by simp [h c rfl])]

theorem trimLeft_trimLeft_append (a b : Chars) :
    trimLeft (trimLeft a ++ b) = trimLeft (a ++ b) := by
  rw [trimLeft, trimLeft, trimLeft]
  conv_rhs => rw [List.dropWhile_append]
  split
  · next h => rw [List.isEmpty_iff.1 h, List.nil_append]
  · next h =>
    have hidem : (a.dropWhile isBlank).dropWhile isBlank = a.dropWhile isBlank :=
      List.dropWhile_idempotent isBlank a
    rw [List.dropWhile_append, hidem, if_neg h]

theorem trimRight_append (hy : ∀ c ∈ y, isBlank c = true) : trimRight (x ++ y) = trimRight x := by
  rw [trimRight, List.reverse_append, List.dropWhile_append_of_pos (by simpa using hy), trimRight]

theorem trimRight_eq_self (h : ∀ c ∈ x.getLast?, isBlank c = false) : trimRight x = x := by
  have hreverse := trimLeft_eq_self (y := x.reverse) (by rwa [List.head?_reverse])
  rw [trimLeft] at hreverse
  rw [trimRight, hreverse, List.reverse_reverse]

theorem trim_eq_self (hfirst : ∀ c ∈ cs.head?, isBlank c = false)
    (hlast : ∀ c ∈ cs.getLast?, isBlank c = false) : trim cs = cs := by
  rw [trim, trimLeft_eq_self hfirst, trimRight_eq_self hlast]

theorem trim_eq_nil (h : ∀ c ∈ cs, isBlank c = true) : trim cs = [] := by
  rw [trim, ← List.append_nil cs, trimLeft_append h]
  rfl

theorem trim_append (hy : ∀ c ∈ y, isBlank c = true) : trim (x ++ y) = trim x := by
  rw [trim, trim, trimLeft, trimLeft, List.dropWhile_append]
  split
  · next hx => rw [List.isEmpty_iff.1 hx, List.dropWhile_eq_nil_iff.2 hy]
  · exact trimRight_append hy

/-- A text with the blanks that trimming takes off. -/
theorem exists_trim (cs : Chars) : ∃ pre post, cs = pre ++ trim cs ++ post ∧
    (∀ c ∈ pre, isBlank c = true) ∧ ∀ c ∈ post, isBlank c = true := by
  have hleft := List.takeWhile_append_dropWhile (p := isBlank) (l := cs)
  have hright := congrArg List.reverse
    (List.takeWhile_append_dropWhile (p := isBlank) (l := (trimLeft cs).reverse))
  rw [List.reverse_append, List.reverse_reverse] at hright
  refine ⟨cs.takeWhile isBlank, ((trimLeft cs).reverse.takeWhile isBlank).reverse, ?_,
    fun c hc => List.mem_takeWhile_imp hc, fun c hc => ?_⟩
  · conv_lhs => rw [← hleft, ← trimLeft, ← hright]
    rw [List.append_assoc]
    rfl
  · exact List.mem_takeWhile_imp (List.mem_reverse.1 hc)

theorem not_isBlank_of_mem_getLast?_trim (cs : Chars) :
    ∀ c ∈ (trim cs).getLast?, isBlank c = false := by
  intro c hc
  have hnot := List.head?_dropWhile_not isBlank (trimLeft cs).reverse
  rw [trim, trimRight, List.getLast?_reverse] at hc
  rw [hc] at hnot
  exact hnot

/-- Blanks around a text that neither begins nor ends with one are taken off. -/
theorem trim_of_blanks (hpre : ∀ c ∈ pre, isBlank c = true) (hpost : ∀ c ∈ post, isBlank c = true)
    (hfirst : ∀ c ∈ cs.head?, isBlank c = false) (hlast : ∀ c ∈ cs.getLast?, isBlank c = false) :
    trim (pre ++ cs ++ post) = cs := by
  cases cs with
  | nil =>
    rw [List.append_nil]
    exact trim_eq_nil fun c hc => (List.mem_append.1 hc).elim (hpre c) (hpost c)
  | cons c cs =>
    rw [trim, List.append_assoc, trimLeft_append hpre, trimLeft_eq_self (by simpa using hfirst),
      trimRight_append hpost, trimRight_eq_self hlast]

end SqlFerry.Text
