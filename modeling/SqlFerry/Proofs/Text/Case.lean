import SqlFerry.Proofs.Text.Blanks

/-!
# Case of texts

What holds of every ASCII character is found by trying them all. Upper case goes character by
character. Lower case does so but for the capital sigma; it makes no character a space but the space
itself, so that it keeps the first word of a text apart from what follows.
-/

namespace SqlFerry.Text

variable {before : List Char} {c : Char} {x y cs : Chars}

/-! ## ASCII -/

@[elab_as_elim]
theorem of_ascii {p : Char → Prop} (c : Char) (hc : c.toNat < 128)
    (h : ∀ n : Fin 128, p (Char.ofNat n)) : p c := by
  have hp := h ⟨c.toNat, hc⟩
  rwa [Char.ofNat_toNat] at hp

theorem toNat_of_isAsciiLetter (hc : isAsciiLetter c = true) : c.toNat < 128 := by
  have hn : c.val.toNat = c.toNat := rfl
  simp only [isAsciiLetter, Char.le_def, UInt32.le_iff_toNat_le, hn, Bool.or_eq_true,
    Bool.and_eq_true, decide_eq_true_eq] at hc
  simp at hc
  omega

theorem toNat_of_isAsciiDigit (hc : isAsciiDigit c = true) : c.toNat < 128 := by
  have hn : c.val.toNat = c.toNat := rfl
  simp only [isAsciiDigit, Char.le_def, UInt32.le_iff_toNat_le, hn, Bool.and_eq_true,
    decide_eq_true_eq] at hc
  simp at hc
  omega

/-! ## Texts -/

theorem toList_upper (s : String) : (upper s).toList = s.toList.flatMap upperChar :=
  String.toList_ofList

theorem toList_lower (s : String) : (lower s).toList = lowerFrom [] s.toList :=
  String.toList_ofList

/-! ## Lower case -/

/-- Where each character becomes one, and none is a capital sigma. -/
theorem lowerFrom_append_map {f : Char → Char} (hx : ∀ c ∈ x, lowerChar c = [f c] ∧ c ≠ 'Σ') :
    lowerFrom before (x ++ y) = x.map f ++ lowerFrom (x.reverse ++ before) y := by
  induction x generalizing before with
  | nil => rfl
  | cons c x ih =>
    obtain ⟨hlower, hsigma⟩ := hx c List.mem_cons_self
    have hc : (c == 'Σ') = false := beq_eq_false_iff_ne.2 hsigma
    rw [List.cons_append, lowerFrom]
    simp only [hc, hlower, Bool.false_eq_true, if_false]
    rw [ih fun x hx' => hx x (List.mem_cons_of_mem _ hx')]
    simp

theorem lowerFrom_append (hx : ∀ c ∈ x, lowerChar c = [c] ∧ c ≠ 'Σ') :
    lowerFrom before (x ++ y) = x ++ lowerFrom (x.reverse ++ before) y := by
  have hmap : lowerFrom before (x ++ y) = x.map id ++ lowerFrom (x.reverse ++ before) y :=
    lowerFrom_append_map hx
  rwa [List.map_id] at hmap

theorem toNat_ofNat (n : Nat) : (Char.ofNat n).toNat = 0 ∨ (Char.ofNat n).toNat = n := by
  by_cases hvalid : n.isValidChar
  · rw [Char.ofNat, dif_pos hvalid]
    exact .inr rfl
  · rw [Char.ofNat, dif_neg hvalid]
    exact .inl rfl

/-- The lower case of a character past ASCII has no digits and no marks of ASCII. -/
theorem toNat_of_mem_lowerChar {x : Char} (hascii : ¬c.toNat < 128) (hx : x ∈ lowerChar c) :
    x.toNat = 0 ∨ 64 < x.toNat := by
  have hspelled : Table.lowerSpelled.toList.all (fun p => p.2.all (64 < ·)) = true := by
    decide
  have hruns : Table.lowerRuns.toList.all (fun r => (64 : Int) < r.first + r.shift) = true := by
    decide +kernel
  rw [lowerChar, if_neg hascii] at hx
  cases hfind : spelled Table.lowerSpelled c with
  | some cs =>
    rw [hfind, Option.getD_some] at hx
    rw [spelled] at hfind
    obtain ⟨p, hp, rfl⟩ := Option.map_eq_some_iff.1 hfind
    obtain ⟨n, hn, rfl⟩ := List.mem_map.1 hx
    have hmem := List.all_eq_true.1 hspelled p
      (Array.mem_toList_iff.2 (Array.mem_of_find?_eq_some hp))
    have hlarge := List.all_eq_true.1 hmem n hn
    rw [decide_eq_true_eq] at hlarge
    rcases toNat_ofNat n with h | h <;> omega
  | none =>
    rw [hfind, Option.getD_none, List.mem_singleton, shift] at hx
    split at hx
    · next r hr =>
      have hmem := List.all_eq_true.1 hruns r
        (Array.mem_toList_iff.2 (Array.mem_of_find?_eq_some hr))
      have hfirst := Array.find?_some hr
      simp only [Bool.and_eq_true, decide_eq_true_eq] at hfirst hmem
      subst hx
      rcases toNat_ofNat ((c.toNat : Int) + r.shift).toNat with h | h <;> omega
    · subst hx
      omega

theorem space_notMem_lowerChar (hc : c ≠ ' ') : ' ' ∉ lowerChar c := by
  intro hspace
  by_cases hascii : c.toNat < 128
  · have hlower : c ≠ ' ' → c.toLower ≠ ' ' := of_ascii c hascii (by decide)
    rw [lowerChar, if_pos hascii, List.mem_singleton] at hspace
    exact hlower hc hspace.symm
  · have hlarge := toNat_of_mem_lowerChar hascii hspace
    exact absurd hlarge (by decide)

theorem head?_lowerChar_of_small (hc : c.toNat ≤ 64) : (lowerChar c).head? = some c := by
  have hascii : c.toNat < 128 := by omega
  have hself : c.toNat ≤ 64 → c.toLower = c := of_ascii c hascii (by decide)
  rw [lowerChar, if_pos hascii, hself hc]
  rfl

theorem eq_of_head?_lowerChar {a : Char} (ha : 0 < a.toNat) (ha' : a.toNat ≤ 64)
    (h : (lowerChar c).head? = some a) : c = a := by
  have hmem : a ∈ lowerChar c := List.mem_of_mem_head? h
  by_cases hascii : c.toNat < 128
  · have hself : c.toLower.toNat ≤ 64 → c.toLower = c := of_ascii c hascii (by decide)
    rw [lowerChar, if_pos hascii, List.mem_singleton] at hmem
    rw [hmem, hself (hmem ▸ ha')]
  · have hlarge := toNat_of_mem_lowerChar hascii hmem
    omega

/-- Blanks, digits and marks of ASCII are told apart in lower case, too. -/
theorem eq_iff_of_head?_lowerChar_eq {a b : Char} (hc : 0 < c.toNat) (hc' : c.toNat ≤ 64)
    (h : (lowerChar a).head? = (lowerChar b).head?) : a = c ↔ b = c := by
  constructor
  · rintro rfl
    rw [head?_lowerChar_of_small hc'] at h
    exact eq_of_head?_lowerChar hc hc' h.symm
  · rintro rfl
    rw [head?_lowerChar_of_small hc'] at h
    exact eq_of_head?_lowerChar hc hc' h

theorem exists_lowerFrom_append (before y : List Char) (hx : ' ' ∉ x) : ∃ z, ' ' ∉ z ∧
    lowerFrom before (x ++ y) = z ++ lowerFrom (x.reverse ++ before) y := by
  induction x generalizing before with
  | nil => exact ⟨[], by simp, rfl⟩
  | cons c x ih =>
    obtain ⟨z, hz, heq⟩ : ∃ z, ' ' ∉ z ∧
        lowerFrom (c :: before) (x ++ y) = z ++ lowerFrom (x.reverse ++ c :: before) y :=
      ih (c :: before) fun h => hx (List.mem_cons_of_mem _ h)
    have hc : c ≠ ' ' := fun h => hx (h ▸ List.mem_cons_self)
    obtain ⟨here, hhere, hstep⟩ : ∃ here, ' ' ∉ here ∧
        lowerFrom before (c :: (x ++ y)) = here ++ lowerFrom (c :: before) (x ++ y) := by
      refine ⟨_, ?_, rfl⟩
      split
      · split <;> simp
      · exact space_notMem_lowerChar hc
    refine ⟨here ++ z, by simp [hhere, hz], ?_⟩
    rw [List.cons_append, hstep, heq, List.append_assoc, List.reverse_cons, List.append_assoc]
    rfl

/-! ## Blanks in lower case -/

theorem lowerChar_of_isBlank (hc : isBlank c = true) : lowerChar c = [c] := by
  rw [lowerChar]
  split
  · next hascii =>
    have hkeep : isBlank c = true → c.toLower = c := of_ascii c hascii (by decide)
    rw [hkeep hc]
  next hascii =>
  have hspelled : Table.lowerSpelled.find? (fun p => p.1 == c.toNat) = none := by
    rw [Array.find?_eq_none]
    intro p hp
    have hspares : sparesBlanks (Table.lowerSpelled.toList.map fun p => (p.1, p.1)) = true := by
      decide +kernel
    have hout := lt_or_lt_of_sparesBlanks hspares
      (List.mem_map_of_mem (Array.mem_toList_iff.2 hp)) hc hascii
    rw [beq_iff_eq]
    dsimp only at hout
    omega
  have hruns : Table.lowerRuns.find? (fun r => r.first ≤ c.toNat && c.toNat ≤ r.last &&
      (c.toNat - r.first) % r.stride == 0) = none := by
    rw [Array.find?_eq_none]
    intro r hr
    have hspares : sparesBlanks (Table.lowerRuns.toList.map fun r => (r.first, r.last)) = true := by
      decide +kernel
    have hout := lt_or_lt_of_sparesBlanks hspares
      (List.mem_map_of_mem (Array.mem_toList_iff.2 hr)) hc hascii
    simp only [Bool.and_eq_true, decide_eq_true_eq]
    dsimp only at hout
    omega
  rw [spelled, hspelled, Option.map_none, Option.getD_none, shift, hruns]

theorem mem_lowerFrom_of_isBlank (hc : isBlank c = true) (hmem : c ∈ cs) :
    c ∈ lowerFrom before cs := by
  induction cs generalizing before with
  | nil => cases hmem
  | cons c' cs ih =>
    rw [lowerFrom]
    refine List.mem_append.2 ?_
    rcases List.mem_cons.1 hmem with rfl | hmem
    · left
      have hsigma : (c == 'Σ') = false := by
        rw [beq_eq_false_iff_ne]
        rintro rfl
        revert hc
        decide
      simp [hsigma, lowerChar_of_isBlank hc]
    · exact .inr (ih hmem)

end SqlFerry.Text
