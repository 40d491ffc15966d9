import Mathlib.Data.List.Infix
import SqlFerry.Text.Basic

/-!
# Parts of a text and their replacement

A text is a part of another if it stands somewhere in it. A part in which some character does not
occur stands on one side of any place of that character. How `replace` reads a text: a part that
begins with what is replaced becomes the replacement, and another character stays. Texts in which a
character was written in a longer form are read back.
-/

namespace SqlFerry.Text

/-! ## Parts -/

section Parts

variable {s a b cs part rest : Chars} {x : Char}

theorem eq_append_of_after? (h : after? part cs = some rest) : cs = part ++ rest := by
  induction part generalizing cs with
  | nil =>
    cases h
    rfl
  | cons c part ih =>
    cases cs with
    | nil => cases h
    | cons d cs =>
      rw [after?, Option.ite_none_right_eq_some] at h
      rw [List.cons_append, ← ih h.2, beq_iff_eq.1 h.1]

theorem hasPart_iff : hasPart part cs = true ↔ part <:+: cs := by
  induction cs with
  | nil => cases part <;> simp [hasPart, cut?]
  | cons c cs ih =>
    rw [List.infix_cons_iff, ← ih, ← startsWith_iff]
    cases h : after? part (c :: cs) <;> simp [hasPart, cut?, startsWith, h]

theorem contains_iff {t part : String} : contains t part = true ↔ part.toList <:+: t.toList :=
  hasPart_iff

/-- What a text with a character begins with, if that character is not in it, ends before it. -/
theorem prefix_of_prefix_append_cons (hx : x ∉ s) (h : s <+: a ++ x :: b) : s <+: a := by
  rcases Nat.lt_or_ge a.length s.length with hlength | hlength
  · have hbegins : a ++ [x] <+: a ++ x :: b := ⟨b, by simp⟩
    have hpast : a ++ [x] <+: s := by
      refine List.prefix_of_prefix_length_le hbegins h ?_
      rwa [List.length_append, List.length_singleton]
    exact absurd (hpast.subset (by simp)) hx
  · exact List.prefix_of_prefix_length_le h (List.prefix_append ..) hlength

theorem infix_append_cons_iff (hx : x ∉ s) : s <:+: a ++ x :: b ↔ s <:+: a ∨ s <:+: b := by
  constructor
  · intro h
    induction a with
    | nil =>
      rcases List.infix_cons_iff.1 h with hprefix | hinfix
      · exact .inl (prefix_of_prefix_append_cons (a := []) hx hprefix).isInfix
      · exact .inr hinfix
    | cons c a ih =>
      rcases List.infix_cons_iff.1 h with hprefix | hinfix
      · exact .inl (prefix_of_prefix_append_cons (a := c :: a) hx hprefix).isInfix
      · exact (ih hinfix).imp_left fun h => h.trans (List.suffix_cons c a).isInfix
  · rintro (h | h)
    · exact h.trans (List.prefix_append ..).isInfix
    · exact h.trans ((List.suffix_cons x b).trans (List.suffix_append ..)).isInfix

end Parts

/-! ## Replacement -/

variable {old new rest a b cs : Chars} {c : Char}

theorem after?_append (old rest : Chars) : after? old (old ++ rest) = some rest := by
  induction old with
  | nil => rfl
  | cons a old ih => simp [after?, ih]

theorem cut?_append (h : old ≠ []) : cut? old (old ++ rest) = some ([], rest) := by
  obtain ⟨c, cs, rfl⟩ := List.exists_cons_of_ne_nil h
  have h := after?_append (c :: cs) rest
  simp only [List.cons_append] at h ⊢
  simp only [cut?, h]

theorem cut?_cons (h : after? old (c :: rest) = none) :
    cut? old (c :: rest) = (cut? old rest).map fun p => (c :: p.1, p.2) := by
  simp only [cut?, h]

/-- A text is cut where the separator stands, and it stands nowhere before. -/
theorem of_cut?_eq_some (h : cut? old cs = some (a, b)) : cs = a ++ (old ++ b) ∧
    ∀ p c q, a = p ++ c :: q → startsWith old (c :: q ++ (old ++ b)) = false := by
  induction cs generalizing a with
  | nil =>
    rw [cut?] at h
    split at h
    · next hempty =>
      cases h
      simp [List.isEmpty_iff.1 hempty]
    · cases h
  | cons x cs ih =>
    cases hafter : after? old (x :: cs) with
    | some rest =>
      rw [cut?, hafter] at h
      cases h
      have hcs := eq_append_of_after? hafter
      exact ⟨hcs, by simp⟩
    | none =>
      rw [cut?_cons hafter, Option.map_eq_some_iff] at h
      obtain ⟨⟨a', b'⟩, hcut, heq⟩ := h
      cases heq
      obtain ⟨rfl, hfirst⟩ := ih hcut
      refine ⟨rfl, fun p c q hsplit => ?_⟩
      rcases List.cons_eq_append_iff.1 hsplit with ⟨rfl, hcons⟩ | ⟨p', rfl, hsplit'⟩
      · cases hcons
        rw [startsWith, List.cons_append, hafter]
        rfl
      · exact hfirst p' c q hsplit'

theorem not_startsWith_of_cut?_eq_none (h : cut? old cs = none) (hcs : cs = a ++ b) :
    startsWith old b = false := by
  rw [Bool.eq_false_iff, Ne, startsWith_iff]
  intro hprefix
  have hpart : hasPart old cs = true :=
    hasPart_iff.2 (hcs ▸ hprefix.isInfix.trans (List.suffix_append a b).isInfix)
  rw [hasPart, h] at hpart
  cases hpart

theorem splitOnFuel_congr {n m : Nat} (h : old ≠ []) (hn : cs.length ≤ n) (hm : cs.length ≤ m) :
    splitOnFuel old n cs = splitOnFuel old m cs := by
  have zero {cs : Chars} {m : Nat} (hcs : cs.length ≤ 0) : splitOnFuel old m cs = [cs] := by
    cases List.length_eq_zero_iff.1 (Nat.le_zero.1 hcs)
    cases m with
    | zero => rfl
    | succ m => simp [splitOnFuel, cut?, h]
  induction n generalizing m cs with
  | zero => rw [zero hn, zero hn]
  | succ n ih =>
    cases m with
    | zero => rw [zero hm, zero hm]
    | succ m =>
      simp only [splitOnFuel]
      cases hc : cut? old cs with
      | none => rfl
      | some p =>
        have hl := length_cut? hc
        have hpos := List.length_pos_iff.2 h
        dsimp only
        rw [ih (m := m) (by omega) (by omega)]

theorem splitOn_of_cut? (h : old ≠ []) (hc : cut? old cs = some (a, b)) :
    splitOn old cs = a :: splitOn old b := by
  have hl := length_cut? hc
  have hpos := List.length_pos_iff.2 h
  rw [splitOn, splitOnFuel_congr h (Nat.le_refl _) (Nat.le_succ _), splitOnFuel, hc]
  dsimp only
  rw [splitOnFuel_congr h (m := b.length) (by omega) (Nat.le_refl _), splitOn]

theorem splitOn_of_uncut (hc : cut? old cs = none) : splitOn old cs = [cs] := by
  rw [splitOn]
  cases cs with
  | nil => rfl
  | cons c cs => rw [List.length_cons, splitOnFuel, hc]

theorem replace_nil (h : old ≠ []) : replace old new [] = [] := by
  rw [replace, splitOn_of_uncut (by simp [cut?, h])]
  simp

theorem replace_append (h : old ≠ []) (rest : Chars) :
    replace old new (old ++ rest) = new ++ replace old new rest := by
  rw [replace, splitOn_of_cut? h (cut?_append h), replace]
  cases hs : splitOn old rest with
  | nil =>
    -- there is always a last piece
    cases hc : cut? old rest with
    | none => rw [splitOn_of_uncut hc] at hs; cases hs
    | some p => rw [splitOn_of_cut? h hc] at hs; cases hs
  | cons x l => simp

theorem replace_cons (h : old ≠ []) (hc : after? old (c :: rest) = none) :
    replace old new (c :: rest) = c :: replace old new rest := by
  rw [replace, replace]
  cases hr : cut? old rest with
  | none =>
    rw [splitOn_of_uncut hr, splitOn_of_uncut (by rw [cut?_cons hc, hr]; rfl)]
    simp
  | some p =>
    rw [splitOn_of_cut? h (a := p.1) (b := p.2) hr,
      splitOn_of_cut? h (a := c :: p.1) (b := p.2) (by rw [cut?_cons hc, hr]; rfl)]
    cases splitOn old p.2 <;> simp

/-- Replacing goes along a text: what is replaced is taken as a whole where it stands, and else the
next character is kept. -/
theorem replace_induction {motive : (cs out : Chars) → Prop} (hold : old ≠ [])
    (nil : motive [] [])
    (keep : ∀ c cs, after? old (c :: cs) = none → motive cs (replace old new cs) →
      motive (c :: cs) (c :: replace old new cs))
    (take : ∀ cs, motive cs (replace old new cs) → motive (old ++ cs) (new ++ replace old new cs))
    (cs : Chars) : motive cs (replace old new cs) := by
  induction hn : cs.length using Nat.strongRecOn generalizing cs with
  | ind n ih =>
    cases cs with
    | nil =>
      rw [replace_nil hold]
      exact nil
    | cons c cs =>
      cases hafter : after? old (c :: cs) with
      | none =>
        rw [replace_cons hold hafter]
        exact keep c cs hafter (ih cs.length (by simp [← hn]) cs rfl)
      | some rest =>
        have hlength := length_after? hafter
        have hpos := List.length_pos_iff.2 hold
        rw [eq_append_of_after? hafter, replace_append hold]
        exact take rest (ih rest.length (by omega) rest rfl)

/-- Where `old` was written for the character `q` and no other character begins as `old` does,
replacing `old` finds exactly the places of `q`. -/
theorem replace_flatMap {q : Char} (h : old ≠ [])
    (hcs : ∀ c ∈ cs, c ≠ q → ∀ x ∈ old.head?, c ≠ x) :
    replace old new (cs.flatMap fun c => if c = q then old else [c]) =
      cs.flatMap fun c => if c = q then new else [c] := by
  induction cs with
  | nil => exact replace_nil h
  | cons c cs ih =>
    have ih := ih fun x hx => hcs x (by simp [hx])
    simp only [List.flatMap_cons]
    by_cases hc : c = q
    · rw [if_pos hc, if_pos hc, replace_append h, ih]
    · rw [if_neg hc, if_neg hc, List.singleton_append, List.singleton_append,
        replace_cons h ?_, ih]
      obtain ⟨x, old', rfl⟩ := List.exists_cons_of_ne_nil h
      have hx := hcs c (by simp) hc x rfl
      simp [after?, Ne.symm hx]

/-- Nothing is replaced where the first character of what is replaced does not occur. -/
theorem replace_of_notMem {c : Char} (hc : c ∉ cs) (old new : Chars) :
    replace (c :: old) new cs = cs := by
  have hne : ∀ x ∈ cs, x ≠ c := fun x hx he => hc (he ▸ hx)
  have hnone : cs.flatMap (fun x => if x = c then c :: old else [x]) = cs.flatMap fun x => [x] :=
    List.flatMap_congr fun x hx => if_neg (hne x hx)
  have hnew : cs.flatMap (fun x => if x = c then new else [x]) = cs.flatMap fun x => [x] :=
    List.flatMap_congr fun x hx => if_neg (hne x hx)
  have h : replace (c :: old) new (cs.flatMap fun x => if x = c then c :: old else [x]) =
      cs.flatMap fun x => if x = c then new else [x] := by
    refine replace_flatMap (List.cons_ne_nil _ _) ?_
    rintro x - hx y ⟨⟩
    exact hx
  rwa [hnone, hnew, List.flatMap_singleton'] at h

/-! ## Cutting at a character -/

theorem cut?_of_notMem (h : c ∉ cs) : cut? [c] cs = none := by
  induction cs with
  | nil => rfl
  | cons x cs ih =>
    have hx : (c == x) = false := beq_eq_false_iff_ne.2 fun he => h (he ▸ List.mem_cons_self)
    have hnone : after? [c] (x :: cs) = none := by
      rw [after?, hx]
      rfl
    rw [cut?_cons hnone, ih fun hc => h (List.mem_cons_of_mem _ hc), Option.map_none]

theorem splitOn_of_notMem (h : c ∉ cs) : splitOn [c] cs = [cs] :=
  splitOn_of_uncut (cut?_of_notMem h)

theorem splitOn_append (h : c ∉ a) :
    splitOn [c] (a ++ c :: b) = a :: splitOn [c] b := by
  refine splitOn_of_cut? (by simp) ?_
  induction a with
  | nil => exact cut?_append (List.cons_ne_nil c [])
  | cons x a ih =>
    have hx : (c == x) = false := beq_eq_false_iff_ne.2 fun he => h (he ▸ List.mem_cons_self)
    have hnone : after? [c] (x :: (a ++ c :: b)) = none := by
      rw [after?, hx]
      rfl
    rw [List.cons_append, cut?_cons hnone, ih fun hc => h (List.mem_cons_of_mem _ hc)]
    rfl

end SqlFerry.Text
