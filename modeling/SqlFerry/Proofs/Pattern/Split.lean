import SqlFerry.Proofs.Pattern.Replace
import SqlFerry.Proofs.Pattern.Words

/-!
# The pieces between matches

The pieces of a text from a place on are determined by what happens at that place: a character
where nothing matches goes to the first piece, and a match ends a piece.
-/

namespace SqlFerry.Text.Pattern

variable {p : Pattern} {before : Option Char} {c : Char} {x t v taken rest u : Chars} {n : Nat}
  {m : Match} {us : List Chars} {gs hs : List (Nat × Chars)} {s : String}

variable (p) in
def splitFrom (c : Cursor) : List Chars :=
  gapsFrom c.offset c.rest (collect p (c.rest.length + 1) c)

theorem splitFrom_nil (h : p.matchAt? ⟨before, [], n⟩ = none) :
    p.splitFrom ⟨before, [], n⟩ = [[]] := by
  simp [splitFrom, collect, searchFrom?, searchIn, h, gapsFrom]

theorem splitFrom_cons (h : p.matchAt? ⟨before, c :: rest, n⟩ = none) :
    p.splitFrom ⟨before, c :: rest, n⟩ =
      (p.splitFrom ⟨some c, rest, n + 1⟩).modifyHead (c :: ·) := by
  simp only [splitFrom, List.length_cons, collect_cons h]
  simp only [collect]
  cases hs : p.searchFrom? ⟨some c, rest, n + 1⟩ with
  | none => rfl
  | some m =>
    obtain ⟨skipped, hrest, hstart, hstop⟩ := spec_of_searchFrom? hs
    simp only at hstart
    have hstart' : m.start - n = m.start - (n + 1) + 1 := by omega
    have hstop' : m.stop - n = m.stop - (n + 1) + 1 := by omega
    dsimp only
    split
    · split <;> simp [gapsFrom, hstart', hstop']
    · simp [gapsFrom, hstart', hstop']

theorem splitFrom_append (h : p.matchAt? ⟨before, taken ++ rest, n⟩ = some m)
    (ht : m.text = taken) (hne : taken ≠ []) :
    p.splitFrom ⟨before, taken ++ rest, n⟩ =
      [] :: p.splitFrom ⟨taken.getLast?, rest, n + taken.length⟩ := by
  obtain ⟨hcollect, hstart, hstop⟩ := collect_append h ht hne
  simp only [splitFrom, hcollect, gapsFrom, hstart, hstop, Nat.sub_self, List.take_zero,
    Nat.add_sub_cancel_left, List.drop_left]

variable (p) in
/-- A text after the character `before`, read from left to right, falls into the pieces. -/
inductive Splits : (before : Option Char) → Chars → List Chars → Prop
  | nil {before : Option Char} (h : Refuses p before []) : Splits before [] [[]]
  | keep {before : Option Char} {c : Char} {x u : Chars} {us : List Chars}
      (h : Refuses p before (c :: x)) (hx : Splits (some c) x (u :: us)) :
      Splits before (c :: x) ((c :: u) :: us)
  | cut {before : Option Char} {t x : Chars} {gs : List (Nat × Chars)} {us : List Chars}
      (h : Reads p before t x gs) (ht : t ≠ []) (hx : Splits t.getLast? x us) :
      Splits before (t ++ x) ([] :: us)

namespace Splits

theorem ne_nil (h : Splits p before x us) : us ≠ [] := by
  cases h <;> exact List.cons_ne_nil _ _

theorem splitFrom_eq (h : Splits p before x us) : p.splitFrom ⟨before, x, n⟩ = us := by
  induction h generalizing n with
  | nil h => exact splitFrom_nil (h.matchAt? n)
  | keep h _ ih => rw [splitFrom_cons (h.matchAt? n), ih, List.modifyHead_cons]
  | cut h ht _ ih =>
    obtain ⟨m, hm, htext, -⟩ := h.matchAt? n
    rw [splitFrom_append hm htext ht, ih]

theorem split_eq (h : Splits p none x us) : p.split x = us :=
  h.splitFrom_eq

/-- A text at no place of which a match begins goes to the first piece of what follows it. -/
theorem keeps (h : ∀ x y, taken = x ++ y → y ≠ [] → Refuses p (x.getLast?.or before) (y ++ rest))
    (hrest : Splits p (taken.getLast?.or before) rest (u :: us)) :
    Splits p before (taken ++ rest) ((taken ++ u) :: us) := by
  induction taken generalizing before with
  | nil => exact hrest
  | cons c taken ih =>
    refine .keep (h [] (c :: taken) rfl (List.cons_ne_nil _ _)) (ih (fun x y hxy hy => ?_) ?_)
    · exact getLast?_cons_or c x before ▸ h (c :: x) y (by rw [hxy, List.cons_append]) hy
    · exact getLast?_cons_or c taken before ▸ hrest

/-- A text is one piece, or its last piece stands behind a match. -/
theorem eq_singleton_or_last (h : Splits p before x us) : us = [x] ∨ ∃ w t v,
    x = w ++ t ++ v ∧ us.tail.getLast? = some v ∧ ∃ gs, Reads p (w.getLast?.or before) t v gs := by
  induction h with
  | nil => exact .inl rfl
  | @keep before c x u us _ _ ih =>
    rcases ih with hone | ⟨w, t, v, rfl, hv, hread⟩
    · cases hone
      exact .inl rfl
    · exact .inr ⟨c :: w, t, v, rfl, hv, getLast?_cons_or c w before ▸ hread⟩
  | @cut before t x gs us h ht _ ih =>
    rcases ih with rfl | ⟨w, t', v, rfl, hv, hread⟩
    · exact .inr ⟨[], t, x, rfl, rfl, gs, h⟩
    · refine .inr ⟨t ++ w, t', v, by simp, ?_, ?_⟩
      · cases us with
        | nil => cases hv
        | cons u us =>
          rw [List.tail_cons] at hv ⊢
          rw [List.getLast?_cons, hv]
          rfl
      · rw [List.getLast?_append, Option.or_assoc]
        obtain ⟨c, hc⟩ := Option.isSome_iff_exists.1 (List.getLast?_isSome.2 ht)
        rw [hc] at hread ⊢
        exact hread

end Splits

/-! ## Whole words -/

def wholeWord (s : String) : Pattern :=
  edge ++ word s ++ edge

theorem refuses_edge (h : Cursor.atEdge ⟨before, x, 0⟩ = false) : Refuses edge before x := by
  intro n captures
  have hn : Cursor.atEdge ⟨before, x, n⟩ = false := h
  simp [Fails, ends, hn]

theorem reads_wholeWord (hx : opensWith s.toList t = true) (hlength : t.length = s.length)
    (hfirst : Cursor.atEdge ⟨before, t ++ rest, 0⟩ = true)
    (hlast : Cursor.atEdge ⟨t.getLast?.or before, rest, 0⟩ = true) :
    Reads (wholeWord s) before t rest [] := by
  have hword := (Reads.edge hfirst).seq (reads_word hx hlength)
  have hwhole := hword.seq (y := []) (Reads.edge hlast)
  rwa [List.append_nil] at hwhole

/-- A word is read where it stands by itself, and refused elsewhere. -/
theorem reads_or_refuses_wholeWord (s : String) (before : Option Char) (x : Chars) :
    (∃ t y, x = t ++ y ∧ t.length = s.length ∧ opensWith s.toList t = true ∧
      Reads (wholeWord s) before t y []) ∨ Refuses (wholeWord s) before x := by
  by_cases hopens : opensWith s.toList (x ++ []) = true
  · obtain ⟨t, y, rfl, hlength, ht⟩ := exists_of_opensWith_append hopens (by simp)
    rw [String.length_toList] at hlength
    by_cases hfirst : Cursor.atEdge ⟨before, t ++ y, 0⟩ = true
    · by_cases hlast : Cursor.atEdge ⟨t.getLast?.or before, y, 0⟩ = true
      · exact .inl ⟨t, y, rfl, hlength, ht, reads_wholeWord ht hlength hfirst hlast⟩
      · exact .inr (.assoc (.edge_seq (.after (only_word hlength)
          (refuses_edge (Bool.eq_false_iff.2 hlast)))))
    · exact .inr (.seq_left (.seq_left (refuses_edge (Bool.eq_false_iff.2 hfirst))))
  · rw [List.append_nil, Bool.not_eq_true] at hopens
    exact .inr (.seq_left (.edge_seq (refuses_word hopens)))

theorem Reads.unique {y : Chars} (h : Reads p before t v gs) (h' : Reads p before x y hs)
    (heq : t ++ v = x ++ y) : t = x := by
  obtain ⟨m, hm, ht, -⟩ := h.matchAt? 0
  obtain ⟨m', hm', hx, -⟩ := h'.matchAt? 0
  rw [heq, hm', Option.some.injEq] at hm
  rw [← ht, ← hx, hm]

theorem opensWith_of_reads_wholeWord (h : Reads (wholeWord s) before t v gs) :
    t.length = s.length ∧ opensWith s.toList t = true := by
  rcases reads_or_refuses_wholeWord s before (t ++ v) with ⟨x, y, hxy, hlength, hx, hread⟩ | hnone
  · obtain rfl := h.unique hread hxy
    exact ⟨hlength, hx⟩
  · obtain ⟨m, hm, -⟩ := h.matchAt? 0
    rw [hnone.matchAt? 0] at hm
    cases hm

theorem exists_splits_wholeWord (hs : 0 < s.length) (before : Option Char) (x : Chars) :
    ∃ us, Splits (wholeWord s) before x us := by
  induction hn : x.length using Nat.strongRecOn generalizing before x with
  | ind n ih =>
    rcases reads_or_refuses_wholeWord s before x with ⟨t, y, rfl, hlength, -, hread⟩ | hnone
    · have ht : t ≠ [] := List.ne_nil_of_length_pos (hlength ▸ hs)
      rw [List.length_append] at hn
      obtain ⟨us, hus⟩ := ih y.length (by omega) t.getLast? y rfl
      exact ⟨_, .cut hread ht hus⟩
    · cases x with
      | nil => exact ⟨_, .nil hnone⟩
      | cons c x =>
        rw [List.length_cons] at hn
        obtain ⟨us, hus⟩ := ih x.length (by omega) (some c) x rfl
        obtain ⟨u, us, rfl⟩ := List.exists_cons_of_ne_nil hus.ne_nil
        exact ⟨_, .keep hnone hus⟩

end SqlFerry.Text.Pattern
