import SqlFerry.Proofs.Pattern.Reads

/-!
# Replacing matches one after another

The text from a place on with its matches replaced is determined by what happens at that place: a
character where nothing matches stays, and a match becomes its replacement.
-/

namespace SqlFerry.Text.Pattern

variable {p : Pattern} {before : Option Char} {c : Char} {taken rest : Chars} {n : Nat} {m : Match}

/-! ## Searching -/

theorem searchFrom?_eq_of_matchAt? {c : Cursor} (h : p.matchAt? c = some m) :
    p.searchFrom? c = some m := by
  obtain ⟨before, rest, n⟩ := c
  cases rest with
  | nil => exact h
  | cons c rest => simp only [searchFrom?, searchIn, h]

theorem searchFrom?_cons (h : p.matchAt? ⟨before, c :: rest, n⟩ = none) :
    p.searchFrom? ⟨before, c :: rest, n⟩ = p.searchFrom? ⟨some c, rest, n + 1⟩ := by
  simp only [searchFrom?, searchIn, h]

/-- A match that is found is a part of the text, and the rest of the text is what follows it. -/
theorem spec_of_searchFrom? {c : Cursor} (h : p.searchFrom? c = some m) :
    ∃ skipped, c.rest = skipped ++ m.text ++ m.rest ∧ m.start = c.offset + skipped.length ∧
      m.stop = m.start + m.text.length := by
  obtain ⟨before, rest, n⟩ := c
  induction rest generalizing before n with
  | nil =>
    obtain ⟨hrest, hstart, hstop⟩ := spec_of_matchAt? (c := ⟨before, [], n⟩) h
    exact ⟨[], hrest, hstart, by rw [hstop, hstart]⟩
  | cons c rest ih =>
    cases hm : p.matchAt? ⟨before, c :: rest, n⟩ with
    | some m' =>
      rw [searchFrom?_eq_of_matchAt? hm, Option.some.injEq] at h
      subst h
      obtain ⟨hrest, hstart, hstop⟩ := spec_of_matchAt? hm
      exact ⟨[], hrest, hstart, by rw [hstop, hstart]⟩
    | none =>
      rw [searchFrom?_cons hm] at h
      obtain ⟨skipped, hrest, hstart, hstop⟩ := ih (some c) (n + 1) h
      refine ⟨c :: skipped, by simpa using hrest, ?_, hstop⟩
      rw [hstart, List.length_cons]
      dsimp only
      omega

/-! ## Replacing -/

/-- More rounds than there are characters are enough. -/
theorem collect_congr {c : Cursor} {i j : Nat} (hi : c.rest.length < i) (hj : c.rest.length < j) :
    collect p i c = collect p j c := by
  induction i generalizing j c with
  | zero => omega
  | succ i ih =>
    cases j with
    | zero => omega
    | succ j =>
      simp only [collect]
      cases hs : p.searchFrom? c with
      | none => rfl
      | some m =>
        obtain ⟨skipped, hrest, hstart, hstop⟩ := spec_of_searchFrom? hs
        rw [hrest] at hi hj
        simp only [List.length_append] at hi hj
        dsimp only
        split
        · cases hr : m.rest with
          | nil => rfl
          | cons x rest =>
            rw [hr, List.length_cons] at hi hj
            dsimp only
            rw [ih (j := j)]
            · dsimp only
              omega
            · dsimp only
              omega
        · rw [ih (j := j)]
          · dsimp only
            omega
          · dsimp only
            omega

/-- Where nothing matches, the matches are those of the rest of the text. -/
theorem collect_cons (h : p.matchAt? ⟨before, c :: rest, n⟩ = none) :
    collect p (rest.length + 1 + 1) ⟨before, c :: rest, n⟩ =
      collect p (rest.length + 1) ⟨some c, rest, n + 1⟩ := by
  have hc : collect p (rest.length + 1 + 1) ⟨before, c :: rest, n⟩ =
      collect p (rest.length + 1 + 1) ⟨some c, rest, n + 1⟩ := by
    simp only [collect, searchFrom?_cons h]
    cases hs : p.searchFrom? ⟨some c, rest, n + 1⟩ with
    | none => rfl
    | some m =>
      obtain ⟨skipped, hrest, hstart, hstop⟩ := spec_of_searchFrom? hs
      dsimp only
      split
      · rfl
      · next hne =>
        have ht : m.text.isEmpty = false := by
          cases ht : m.text with
          | nil => simp [ht] at hstop; omega
          | cons => rfl
        simp only [ht, Bool.false_eq_true, if_false]
  rw [hc]
  exact collect_congr (by dsimp only; omega) (by dsimp only; omega)

/-- A match that is not empty comes first, before those of what follows it. -/
theorem collect_append (h : p.matchAt? ⟨before, taken ++ rest, n⟩ = some m)
    (ht : m.text = taken) (hne : taken ≠ []) :
    collect p ((taken ++ rest).length + 1) ⟨before, taken ++ rest, n⟩ =
        m :: collect p (rest.length + 1) ⟨taken.getLast?, rest, n + taken.length⟩ ∧
      m.start = n ∧ m.stop = n + taken.length := by
  obtain ⟨hrest, hstart, hstop⟩ := spec_of_matchAt? h
  subst ht
  have hrest : m.rest = rest := (List.append_cancel_left hrest).symm
  have hpos := List.length_pos_iff.2 hne
  have hf : collect p (m.text.length + rest.length) ⟨m.text.getLast?, rest, n + m.text.length⟩ =
      collect p (rest.length + 1) ⟨m.text.getLast?, rest, n + m.text.length⟩ :=
    collect_congr (by dsimp only; omega) (by dsimp only; omega)
  simp only at hstart hstop
  refine ⟨?_, hstart, hstop⟩
  simp only [List.length_append, collect, searchFrom?_eq_of_matchAt? h]
  rw [if_neg (by omega), List.isEmpty_eq_false_iff.2 hne]
  simp only [Bool.false_eq_true, if_false, hstop, hrest]
  rw [hf]
  rfl

variable (p) in
def replaceFrom (f : Match → Chars) (c : Cursor) : Chars :=
  spliceFrom f c.offset c.rest (collect p (c.rest.length + 1) c)

variable {f : Match → Chars}

/-- At the end of the text nothing is left to replace. -/
theorem replaceFrom_nil (h : p.matchAt? ⟨before, [], n⟩ = none) :
    p.replaceFrom f ⟨before, [], n⟩ = [] := by
  simp [replaceFrom, collect, searchFrom?, searchIn, h, spliceFrom]

/-- A character stays where nothing matches. -/
theorem replaceFrom_cons (h : p.matchAt? ⟨before, c :: rest, n⟩ = none) :
    p.replaceFrom f ⟨before, c :: rest, n⟩ = c :: p.replaceFrom f ⟨some c, rest, n + 1⟩ := by
  simp only [replaceFrom, List.length_cons, collect_cons h]
  simp only [collect]
  cases hs : p.searchFrom? ⟨some c, rest, n + 1⟩ with
  | none => rfl
  | some m =>
    obtain ⟨skipped, hrest, hstart, hstop⟩ := spec_of_searchFrom? hs
    simp only at hstart
    have hstart' : m.start - n = m.start - (n + 1) + 1 := by omega
    have hstop' : m.stop - n = m.stop - (n + 1) + 1 := by omega
    dsimp only
    split
    · split <;> simp [spliceFrom, hstart', hstop']
    · simp [spliceFrom, hstart', hstop']

/-- A match that is not empty becomes its replacement. -/
theorem replaceFrom_append (h : p.matchAt? ⟨before, taken ++ rest, n⟩ = some m)
    (ht : m.text = taken) (hne : taken ≠ []) :
    p.replaceFrom f ⟨before, taken ++ rest, n⟩ =
      f m ++ p.replaceFrom f ⟨taken.getLast?, rest, n + taken.length⟩ := by
  obtain ⟨hcollect, hstart, hstop⟩ := collect_append h ht hne
  simp only [replaceFrom, hcollect, spliceFrom, hstart, hstop, Nat.sub_self, List.take_zero,
    List.nil_append, Nat.add_sub_cancel_left, List.drop_left]

/-- A text at no place of which a match begins stays. -/
theorem replaceFrom_keeps
    (h : ∀ x y, taken = x ++ y → y ≠ [] → Refuses p (x.getLast?.or before) (y ++ rest)) :
    p.replaceFrom f ⟨before, taken ++ rest, n⟩ =
      taken ++ p.replaceFrom f ⟨taken.getLast?.or before, rest, n + taken.length⟩ := by
  induction taken generalizing before n with
  | nil => rfl
  | cons c taken ih =>
    have hhere : Refuses p before (c :: (taken ++ rest)) :=
      h [] (c :: taken) rfl (List.cons_ne_nil _ _)
    rw [List.cons_append, replaceFrom_cons (hhere.matchAt? n), ih fun x y hxy hy => ?_,
      getLast?_cons_or, List.length_cons, Nat.add_assoc, Nat.add_comm 1]
    · rfl
    · exact getLast?_cons_or c x before ▸ h (c :: x) y (by rw [hxy, List.cons_append]) hy

end SqlFerry.Text.Pattern
