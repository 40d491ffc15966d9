import SqlFerry.Proofs.Text.Blanks
import SqlFerry.Proofs.Text.Cells

/-!
# Texts with other blanks

Two texts that differ only in which blanks stand between their other characters: where one has
blanks the other has some too. They have the same words, and a part of one that ends at a character
that is no blank has its counterpart in the other.
-/

namespace SqlFerry.Text

variable {a b g g' x y z : Chars} {c : Char} {before before' : Option Char}

structure IsBlanks (g : Chars) : Prop where
  ne_nil : g ≠ []
  isBlank : ∀ c ∈ g, isBlank c = true

namespace IsBlanks

theorem singleton (hc : Text.isBlank c = true) : IsBlanks [c] :=
  ⟨List.cons_ne_nil _ _, List.forall_mem_singleton.2 hc⟩

theorem append (hg : IsBlanks g) (hg' : IsBlanks g') : IsBlanks (g ++ g') :=
  ⟨by simp [hg.ne_nil], List.forall_mem_append.2 ⟨hg.isBlank, hg'.isBlank⟩⟩

theorem reverse (hg : IsBlanks g) : IsBlanks g.reverse :=
  ⟨by simpa using hg.ne_nil, by simpa using hg.isBlank⟩

theorem exists_cons (hg : IsBlanks g) : ∃ c g₁, g = c :: g₁ ∧ Text.isBlank c = true := by
  obtain ⟨c, g₁, rfl⟩ := List.exists_cons_of_ne_nil hg.ne_nil
  exact ⟨c, g₁, rfl, hg.isBlank c List.mem_cons_self⟩

theorem notMem (hg : IsBlanks g) (hc : Text.isBlank c = false) : c ∉ g := by
  intro h
  rw [hg.isBlank c h] at hc
  cases hc

end IsBlanks

def BeginsSolid (x : Chars) : Prop :=
  ∀ c ∈ x.head?, isBlank c = false

theorem beginsSolid_nil : BeginsSolid [] :=
  fun _ h => by cases h

theorem beginsSolid_cons : BeginsSolid (c :: x) ↔ isBlank c = false := by
  simp [BeginsSolid]

theorem BeginsSolid.append (h : BeginsSolid x) (hne : x ≠ []) (y : Chars) :
    BeginsSolid (x ++ y) := by
  rwa [BeginsSolid, List.head?_append_of_ne_nil _ hne]

theorem IsBlanks.not_beginsSolid (hg : IsBlanks g) : ¬BeginsSolid (g ++ x) := by
  obtain ⟨c, g, rfl, hc⟩ := hg.exists_cons
  rw [List.cons_append, beginsSolid_cons, hc]
  exact Bool.true_eq_false.mp

theorem exists_blanks_append (x : Chars) :
    ∃ g y, x = g ++ y ∧ (∀ c ∈ g, isBlank c = true) ∧ BeginsSolid y := by
  refine ⟨x.takeWhile isBlank, x.dropWhile isBlank, List.takeWhile_append_dropWhile.symm,
    fun c hc => List.mem_takeWhile_imp hc, fun c hc => ?_⟩
  have hnot := List.head?_dropWhile_not isBlank x
  rw [hc] at hnot
  exact hnot

/-- The two texts differ only in which blanks stand between their other characters. -/
inductive Reflowed : Chars → Chars → Prop
  | nil : Reflowed [] []
  | solid {c : Char} {x y : Chars} (hc : isBlank c = false) (h : Reflowed x y) :
      Reflowed (c :: x) (c :: y)
  | blanks {g g' x y : Chars} (hg : IsBlanks g) (hg' : IsBlanks g') (hx : BeginsSolid x)
      (hy : BeginsSolid y) (h : Reflowed x y) : Reflowed (g ++ x) (g' ++ y)

namespace Reflowed

theorem symm (h : Reflowed x y) : Reflowed y x := by
  induction h with
  | nil => exact .nil
  | solid hc _ ih => exact .solid hc ih
  | blanks hg hg' hx hy _ ih => exact .blanks hg' hg hy hx ih

theorem nil_left (h : Reflowed [] y) : y = [] := by
  generalize hx : ([] : Chars) = x at h
  cases h with
  | nil => rfl
  | solid => cases hx
  | blanks hg => exact absurd (List.append_eq_nil_iff.1 hx.symm).1 hg.ne_nil

/-- What corresponds to a text that begins with a character that is no blank. -/
theorem of_cons (h : Reflowed (c :: x) z) (hc : isBlank c = false) :
    ∃ y, z = c :: y ∧ Reflowed x y := by
  generalize hw : c :: x = w at h
  cases h with
  | nil => cases hw
  | solid _ h =>
    cases hw
    exact ⟨_, rfl, h⟩
  | blanks hg =>
    obtain ⟨c', g, rfl, hc'⟩ := hg.exists_cons
    cases hw
    rw [hc'] at hc
    cases hc

/-- Blanks may be put before two such texts, also where these begin with blanks. -/
theorem gap (hg : IsBlanks g) (hg' : IsBlanks g') (h : Reflowed x y) :
    Reflowed (g ++ x) (g' ++ y) := by
  cases h with
  | nil => exact .blanks hg hg' beginsSolid_nil beginsSolid_nil .nil
  | solid hc h =>
    exact .blanks hg hg' (beginsSolid_cons.2 hc) (beginsSolid_cons.2 hc) (.solid hc h)
  | blanks hk hk' hx hy h =>
    rw [← List.append_assoc, ← List.append_assoc]
    exact .blanks (hg.append hk) (hg'.append hk') hx hy h

theorem refl (x : Chars) : Reflowed x x := by
  induction x with
  | nil => exact .nil
  | cons c x ih =>
    cases hc : isBlank c with
    | false => exact .solid hc ih
    | true => exact gap (.singleton hc) (.singleton hc) ih

theorem append (h : Reflowed a b) (h' : Reflowed x y) : Reflowed (a ++ x) (b ++ y) := by
  induction h with
  | nil => exact h'
  | solid hc _ ih => exact .solid hc ih
  | blanks hg hg' _ _ _ ih =>
    rw [List.append_assoc, List.append_assoc]
    exact gap hg hg' ih

theorem eq_nil_iff (h : Reflowed x y) : x = [] ↔ y = [] := by
  constructor
  · rintro rfl
    exact h.nil_left
  · rintro rfl
    exact h.symm.nil_left

theorem eq_of_solid (h : Reflowed x y) (hx : ∀ c ∈ x, isBlank c = false) : x = y := by
  induction h with
  | nil => rfl
  | solid _ _ ih => rw [ih fun c hc => hx c (List.mem_cons_of_mem _ hc)]
  | blanks hg _ _ _ _ _ =>
    obtain ⟨c, g, rfl, hc⟩ := hg.exists_cons
    rw [hx c List.mem_cons_self] at hc
    cases hc

theorem count_eq (h : Reflowed x y) (hc : isBlank c = false) : x.count c = y.count c := by
  induction h with
  | nil => rfl
  | solid _ _ ih => rw [List.count_cons, List.count_cons, ih]
  | blanks hg hg' _ _ _ ih =>
    rw [List.count_append, List.count_append, List.count_eq_zero.2 (hg.notMem hc),
      List.count_eq_zero.2 (hg'.notMem hc), ih]

theorem mem_iff (h : Reflowed x y) (hc : isBlank c = false) : c ∈ x ↔ c ∈ y := by
  rw [← List.count_pos_iff, h.count_eq hc, List.count_pos_iff]

/-! ## Words at the ends -/

end Reflowed

def isWordAt (c : Option Char) : Bool :=
  (c.map isWord).getD false

theorem IsBlanks.isWordAt_head? (hg : IsBlanks g) : isWordAt (g ++ x).head? = false := by
  obtain ⟨c, g, rfl, hc⟩ := hg.exists_cons
  exact isWord_of_isBlank hc

theorem IsBlanks.isWordAt_getLast? (hg : IsBlanks g) : isWordAt (g.getLast?.or before) = false := by
  rw [List.getLast?_eq_some_getLast hg.ne_nil, Option.some_or]
  exact isWord_of_isBlank (hg.isBlank _ (List.getLast_mem hg.ne_nil))

namespace Reflowed

theorem isWordAt_head? (h : Reflowed x y) : isWordAt x.head? = isWordAt y.head? := by
  cases h with
  | nil => rfl
  | solid => rfl
  | blanks hg hg' => rw [hg.isWordAt_head?, hg'.isWordAt_head?]

theorem isWordAt_getLast? (h : Reflowed x y) (hbefore : isWordAt before = isWordAt before') :
    isWordAt (x.getLast?.or before) = isWordAt (y.getLast?.or before') := by
  induction h generalizing before before' with
  | nil => exact hbefore
  | @solid c x y _ _ ih =>
    have hlast (z : Chars) (before : Option Char) :
        (c :: z).getLast?.or before = z.getLast?.or (some c) := by
      cases z <;> rfl
    rw [hlast, hlast]
    exact ih rfl
  | blanks hg hg' _ _ _ ih =>
    rw [List.getLast?_append, List.getLast?_append, Option.or_assoc, Option.or_assoc]
    exact ih (by rw [hg.isWordAt_getLast?, hg'.isWordAt_getLast?])

end Reflowed

/-! ## Words -/

/-- How a character changes the first run of a text and the runs behind it. -/
def addToWords (c : Char) (acc : Chars × List Chars) : Chars × List Chars :=
  if isBlank c then ([], if acc.1.isEmpty then acc.2 else acc.1 :: acc.2)
  else (c :: acc.1, acc.2)

theorem foldr_addToWords_blanks (hg : IsBlanks g) (acc : Chars × List Chars) :
    g.foldr addToWords acc = ([], if acc.1.isEmpty then acc.2 else acc.1 :: acc.2) := by
  obtain ⟨hne, hblank⟩ := hg
  induction g with
  | nil => exact absurd rfl hne
  | cons c g ih =>
    obtain ⟨hc, hblank⟩ := List.forall_mem_cons.1 hblank
    cases g with
    | nil => simp [addToWords, hc]
    | cons c' g =>
      rw [List.foldr_cons, ih (List.cons_ne_nil _ _) hblank]
      simp [addToWords, hc]

theorem words_append_blanks (hg : ∀ c ∈ g, isBlank c = true) (x : Chars) :
    words (g ++ x) = words x := by
  induction g with
  | nil => rfl
  | cons c g ih =>
    obtain ⟨hc, hg⟩ := List.forall_mem_cons.1 hg
    exact (words_append_blank hc [] (g ++ x)).trans (ih hg)

theorem words_of_solid (hx : ∀ c ∈ x, isBlank c = false) (hne : x ≠ []) : words x = [x] := by
  rw [words_eq_splitOnP, List.splitOnP_eq_singleton hx]
  simpa using hne

theorem toList_oneLine (x : Chars) :
    (oneLine (String.ofList x)).toList = [' '].intercalate (words x) := by
  rw [oneLine, String.toList_ofList, String.toList_intercalate, List.map_map]
  congr 1
  exact (List.map_congr_left fun w _ => String.toList_ofList).trans (List.map_id _)

namespace Reflowed

theorem words_eq (h : Reflowed x y) : words x = words y := by
  have state : x.foldr addToWords ([], []) = y.foldr addToWords ([], []) := by
    induction h with
    | nil => rfl
    | solid _ _ ih => rw [List.foldr_cons, List.foldr_cons, ih]
    | blanks hg hg' _ _ _ ih =>
      rw [List.foldr_append, List.foldr_append, foldr_addToWords_blanks hg,
        foldr_addToWords_blanks hg', ih]
  change (if (x.foldr addToWords ([], [])).1.isEmpty then (x.foldr addToWords ([], [])).2
    else (x.foldr addToWords ([], [])).1 :: (x.foldr addToWords ([], [])).2) = _
  rw [state]
  rfl

theorem oneLine_eq (h : Reflowed x y) : oneLine (String.ofList x) = oneLine (String.ofList y) := by
  rw [oneLine, oneLine, String.toList_ofList, String.toList_ofList, h.words_eq]

/-- Neither end of the text is a blank: its words, joined by single spaces, differ in blanks. -/
theorem oneLine (hfirst : BeginsSolid x) (hlast : BeginsSolid x.reverse) :
    Reflowed x (oneLine (String.ofList x)).toList := by
  rw [toList_oneLine]
  induction hn : x.length using Nat.strongRecOn generalizing x with
  | ind n ih =>
    obtain ⟨s, r, rfl, hs, hr⟩ : ∃ s r, x = s ++ r ∧ (∀ c ∈ s, isBlank c = false) ∧
        ∀ c ∈ r.head?, isBlank c = true := by
      refine ⟨x.takeWhile (!isBlank ·), x.dropWhile (!isBlank ·),
        List.takeWhile_append_dropWhile.symm, fun c hc => ?_, fun c hc => ?_⟩
      · simpa using List.mem_takeWhile_imp hc
      · have hnot := List.head?_dropWhile_not (!isBlank ·) x
        rw [hc] at hnot
        simpa using hnot
    cases r with
    | nil =>
      rw [List.append_nil]
      by_cases hne : s = []
      · subst hne
        exact .nil
      · rw [words_of_solid hs hne, List.intercalate_singleton]
        exact .refl s
    | cons c r =>
      obtain ⟨g, y, rfl, hg, hy⟩ := exists_blanks_append r
      have hc : isBlank c = true := hr c rfl
      have hne : s ≠ [] := by
        rintro rfl
        rw [hfirst c rfl] at hc
        cases hc
      have hgap : IsBlanks (c :: g) := ⟨List.cons_ne_nil _ _, List.forall_mem_cons.2 ⟨hc, hg⟩⟩
      have hyne : y ≠ [] := by
        rintro rfl
        refine (IsBlanks.reverse hgap).not_beginsSolid (x := s.reverse) ?_
        simpa using hlast
      have hyend : BeginsSolid y.reverse := by
        intro c' hc'
        refine hlast c' ?_
        rw [List.reverse_append, List.reverse_cons, List.reverse_append]
        simp [List.head?_append, Option.mem_def.1 hc']
      have hrest := ih y.length (by simp at hn; omega) hy hyend rfl
      have hwords : words y ≠ [] := by
        intro hnil
        rw [hnil] at hrest
        exact hyne (hrest.eq_nil_iff.2 rfl)
      rw [words_append_blank hc, words_append_blanks hg, words_of_solid hs hne]
      obtain ⟨w, ws, hws⟩ := List.exists_cons_of_ne_nil hwords
      rw [List.singleton_append, hws, List.intercalate_cons_cons, ← hws]
      have hspace : IsBlanks [' '] := .singleton (by decide)
      rw [List.append_assoc]
      exact .append (.refl s) (.gap hgap hspace hrest)

/-! ## Trimming -/

theorem trimLeft (h : Reflowed x y) : Reflowed (trimLeft x) (trimLeft y) := by
  cases h with
  | nil => exact .nil
  | solid hc h =>
    rw [trimLeft_eq_self (beginsSolid_cons.2 hc), trimLeft_eq_self (beginsSolid_cons.2 hc)]
    exact .solid hc h
  | blanks hg hg' hx hy h =>
    rwa [trimLeft_append hg.isBlank, trimLeft_append hg'.isBlank, trimLeft_eq_self hx,
      trimLeft_eq_self hy]

theorem reverse (h : Reflowed x y) : Reflowed x.reverse y.reverse := by
  induction h with
  | nil => exact .nil
  | solid hc _ ih =>
    rw [List.reverse_cons, List.reverse_cons]
    exact ih.append (.solid hc .nil)
  | blanks hg hg' _ _ _ ih =>
    rw [List.reverse_append, List.reverse_append]
    have hend := gap hg.reverse hg'.reverse .nil
    rw [List.append_nil, List.append_nil] at hend
    exact ih.append hend

theorem trim (h : Reflowed x y) : Reflowed (Text.trim x) (Text.trim y) :=
  h.trimLeft.reverse.trimLeft.reverse

/-- Characters of a class without blanks may be taken off the beginning. -/
theorem dropWhile {f : Char → Bool} (hf : ∀ c, isBlank c = true → f c = false)
    (h : Reflowed x y) : Reflowed (x.dropWhile f) (y.dropWhile f) := by
  induction h with
  | nil => exact .nil
  | @solid c x y hc h ih =>
    by_cases hcf : f c = true
    · rwa [List.dropWhile_cons_of_pos hcf, List.dropWhile_cons_of_pos hcf]
    · rw [List.dropWhile_cons_of_neg hcf, List.dropWhile_cons_of_neg hcf]
      exact .solid hc h
  | blanks hg hg' hx hy h _ =>
    obtain ⟨c, g, rfl, hc⟩ := hg.exists_cons
    obtain ⟨c', g', rfl, hc'⟩ := hg'.exists_cons
    rw [List.cons_append, List.cons_append, List.dropWhile_cons_of_neg (by simp [hf c hc]),
      List.dropWhile_cons_of_neg (by simp [hf c' hc'])]
    exact .blanks hg hg' hx hy h

/-- A character that is no blank has the same text before and behind it but for blanks. -/
theorem exists_of_append_cons (h : Reflowed (a ++ c :: b) z) (hc : isBlank c = false) :
    ∃ x y, z = x ++ c :: y ∧ Reflowed a x ∧ Reflowed b y := by
  generalize hw : a ++ c :: b = w at h
  induction h generalizing a with
  | nil => simp at hw
  | @solid c' x y hc' h ih =>
    cases a with
    | nil =>
      cases hw
      exact ⟨[], y, rfl, .nil, h⟩
    | cons c₁ a =>
      cases hw
      obtain ⟨u, v, rfl, hu, hv⟩ := ih rfl
      exact ⟨c' :: u, v, rfl, .solid hc' hu, hv⟩
  | @blanks g g' x y hg hg' _ _ _ ih =>
    obtain ⟨a, rfl, rfl⟩ : ∃ a₁, a = g ++ a₁ ∧ x = a₁ ++ c :: b := by
      rcases List.append_eq_append_iff.1 hw with ⟨t, rfl, ht⟩ | ⟨t, rfl, ht⟩
      · cases t with
        | nil => exact ⟨[], by simp, by simpa using ht.symm⟩
        | cons c₁ t =>
          cases ht
          rw [hg.isBlank c (by simp)] at hc
          cases hc
      · exact ⟨t, rfl, ht⟩
    obtain ⟨u, v, rfl, hu, hv⟩ := ih rfl
    exact ⟨g' ++ u, v, by rw [List.append_assoc], .gap hg hg' hu, hv⟩

end Reflowed

end SqlFerry.Text
