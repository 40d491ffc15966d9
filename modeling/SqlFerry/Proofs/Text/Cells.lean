import SqlFerry.Text.Basic

/-!
# Texts with quoted parts

Characters that know whether they stand within quotes, and the runs that blanks outside quotes
leave between them. Two texts that have the same runs differ only in how long those blanks are.
-/

namespace SqlFerry.Text

abbrev Cell := Char × Bool

def isGap (m : Cell) : Bool :=
  !m.2 && isBlank m.1

/-- The maximal runs without blanks outside quotes. -/
def runs (ms : List Cell) : List (List Cell) :=
  (ms.splitOnP isGap).filter (!·.isEmpty)

variable {a b ms tail : List Cell} {m m' : Cell}

/-! ## Words -/

theorem words_eq_splitOnP (cs : Chars) :
    words cs = (cs.splitOnP isBlank).filter (!·.isEmpty) := by
  let step (c : Char) (acc : Chars × List Chars) : Chars × List Chars :=
    if isBlank c then ([], if acc.1.isEmpty then acc.2 else acc.1 :: acc.2)
    else (c :: acc.1, acc.2)
  have state : ∃ others, cs.splitOnP isBlank = (cs.foldr step ([], [])).1 :: others ∧
      (cs.foldr step ([], [])).2 = others.filter (!·.isEmpty) := by
    induction cs with
    | nil => exact ⟨[], List.splitOnP_nil, rfl⟩
    | cons c cs ih =>
      obtain ⟨others, hs, hf⟩ := ih
      simp only [List.foldr_cons]
      generalize cs.foldr step ([], []) = acc at hs hf
      rw [List.splitOnP_cons_eq_if_modifyHead, hs]
      by_cases hc : isBlank c
      · refine ⟨acc.1 :: others, by simp [step, hc], ?_⟩
        cases hr : acc.1 <;> simp [step, hc, hf, hr]
      · exact ⟨others, by simp [step, hc], by simp [step, hc, hf]⟩
  obtain ⟨others, hs, hf⟩ := state
  rw [hs]
  change (if (cs.foldr step ([], [])).1.isEmpty then (cs.foldr step ([], [])).2
    else (cs.foldr step ([], [])).1 :: (cs.foldr step ([], [])).2) = _
  rw [hf]
  cases hr : (cs.foldr step ([], [])).1 <;> simp

/-- What stands between the places where a text is split has no character that splits it. -/
theorem not_of_mem_splitOnP {p : Char → Bool} {w cs : Chars} (hw : w ∈ cs.splitOnP p) :
    ∀ c ∈ w, p c = false := by
  induction cs generalizing w with
  | nil =>
    rw [List.splitOnP_nil, List.mem_singleton] at hw
    simp [hw]
  | cons x cs ih =>
    rw [List.splitOnP_cons_eq_if_modifyHead] at hw
    split at hw
    · rcases List.mem_cons.1 hw with rfl | hw
      · simp
      · exact ih hw
    · next hx =>
      obtain ⟨first, others, hsplit⟩ := List.exists_cons_of_ne_nil (List.splitOnP_ne_nil p cs)
      rw [hsplit] at hw ih
      rw [List.modifyHead_cons] at hw
      rcases List.mem_cons.1 hw with rfl | hw
      · exact List.forall_mem_cons.2 ⟨by simpa using hx, ih List.mem_cons_self⟩
      · exact ih (List.mem_cons_of_mem _ hw)

theorem solid_of_mem_words {w cs : Chars} (hw : w ∈ words cs) :
    w ≠ [] ∧ ∀ c ∈ w, isBlank c = false := by
  rw [words_eq_splitOnP, List.mem_filter] at hw
  exact ⟨by simpa using hw.2, not_of_mem_splitOnP hw.1⟩

theorem words_append_blank {c : Char} (hc : isBlank c = true) (xs ys : Chars) :
    words (xs ++ c :: ys) = words xs ++ words ys := by
  simp only [words_eq_splitOnP, List.splitOnP_append_cons xs ys hc, List.filter_append]

/-! ## Runs -/

theorem runs_nil : runs [] = [] := rfl

theorem runs_append_gap (h : isGap m = true) (a b : List Cell) :
    runs (a ++ m :: b) = runs a ++ runs b := by
  simp only [runs, List.splitOnP_append_cons a b h, List.filter_append]

theorem runs_cons_gap (h : isGap m = true) (a : List Cell) : runs (m :: a) = runs a :=
  runs_append_gap h [] a

theorem runs_append_gaps (h : ∀ m ∈ b, isGap m = true) : runs (a ++ b) = runs a := by
  induction b generalizing a with
  | nil => rw [List.append_nil]
  | cons m b ih =>
    rw [runs_append_gap (h m List.mem_cons_self), ← List.nil_append b,
      ih fun m hm => h m (List.mem_cons_of_mem _ hm), runs_nil, List.append_nil]

theorem runs_of_solid (h : ∀ m ∈ a, isGap m = false) (ha : a ≠ []) : runs a = [a] := by
  rw [runs, List.splitOnP_eq_singleton h]
  simpa using ha

/-- Induction on the blanks outside quotes: a text without any, and two texts around one. -/
theorem gap_induction {motive : List Cell → Prop}
    (solid : ∀ ms, (∀ m ∈ ms, isGap m = false) → motive ms)
    (gap : ∀ a m b, isGap m = true → motive a → motive b → motive (a ++ m :: b))
    (ms : List Cell) : motive ms := by
  induction hn : ms.length using Nat.strongRecOn generalizing ms with
  | ind n ih =>
    by_cases h : ∃ m ∈ ms, isGap m = true
    · obtain ⟨m, hm, hgap⟩ := h
      obtain ⟨a, b, rfl⟩ := List.append_of_mem hm
      simp only [List.length_append, List.length_cons] at hn
      exact gap a m b hgap (ih a.length (by omega) a rfl) (ih b.length (by omega) b rfl)
    · exact solid ms fun m hm => by simpa using fun hg => h ⟨m, hm, hg⟩

/-- The words of a text are found in its runs, one after another. -/
theorem words_eq_runs (ms : List Cell) :
    words (ms.map Prod.fst) = (runs ms).flatMap fun r => words (r.map Prod.fst) := by
  induction ms using gap_induction with
  | solid ms h =>
    by_cases hms : ms = []
    · rw [hms]
      rfl
    · rw [runs_of_solid h hms, List.flatMap_singleton]
  | gap a m b hgap iha ihb =>
    have hblank : isBlank m.1 = true := by
      simp only [isGap, Bool.and_eq_true] at hgap
      exact hgap.2
    rw [List.map_append, List.map_cons, words_append_blank hblank, runs_append_gap hgap,
      List.flatMap_append, iha, ihb]

theorem runs_ne_nil (hm : m ∈ ms) (h : isGap m = false) : runs ms ≠ [] := by
  induction ms using gap_induction with
  | solid ms hms =>
    rw [runs_of_solid hms (List.ne_nil_of_mem hm)]
    exact List.cons_ne_nil _ _
  | gap a x b hgap iha ihb =>
    rw [runs_append_gap hgap, Ne, List.append_eq_nil_iff]
    rintro ⟨ha, hb⟩
    rcases List.mem_append.1 hm with hm | hm
    · exact iha hm ha
    · rcases List.mem_cons.1 hm with rfl | hm
      · rw [h] at hgap
        cases hgap
      · exact ihb hm hb

/-! ## Texts that go on alike -/

/-- Whether two texts have the same runs whatever follows both. -/
def SameRuns (a b : List Cell) : Prop :=
  ∀ tail, runs (a ++ tail) = runs (b ++ tail)

def EndsOpen (a : List Cell) : Prop :=
  ∀ m ∈ a.getLast?, isGap m = true

theorem endsOpen_concat (h : isGap m = true) : EndsOpen (a ++ [m]) := by
  simp [EndsOpen, h]

namespace SameRuns

theorem refl (a : List Cell) : SameRuns a a :=
  fun _ => rfl

theorem trans {c : List Cell} (h : SameRuns a b) (h' : SameRuns b c) : SameRuns a c :=
  fun tail => (h tail).trans (h' tail)

theorem runs_eq (h : SameRuns a b) : runs a = runs b := by
  simpa using h []

theorem append (h : SameRuns a b) (tail : List Cell) : SameRuns (a ++ tail) (b ++ tail) := by
  intro more
  simpa only [List.append_assoc] using h (tail ++ more)

/-- One blank is as good as another. -/
theorem gap (h : SameRuns a b) (hm : isGap m = true) (hm' : isGap m' = true) :
    SameRuns (a ++ [m]) (b ++ [m']) := by
  intro tail
  rw [List.append_assoc, List.append_assoc, List.singleton_append, List.singleton_append,
    runs_append_gap hm, runs_append_gap hm', h.runs_eq]

/-- Where no run is under way, one more blank makes no difference. -/
theorem more_gap (h : SameRuns a b) (ha : EndsOpen a) (hm : isGap m = true) :
    SameRuns a (b ++ [m]) := by
  refine trans (fun tail => ?_) (h.append [m])
  rw [List.append_assoc, List.singleton_append]
  rcases List.eq_nil_or_concat a with rfl | ⟨a, x, rfl⟩
  · rw [List.nil_append, List.nil_append, runs_cons_gap hm]
  · have hx : isGap x = true := ha x (by simp)
    simp only [List.concat_eq_append, List.append_assoc, List.singleton_append,
      runs_append_gap hx, runs_cons_gap hm]

end SameRuns

/-! ## Trimming -/

/-- Whether a text begins and ends with characters that trimming leaves, but for blanks outside
quotes after it. -/
def Framed (ms : List Cell) : Prop :=
  ∃ body gaps, ms = body ++ gaps ∧ (∀ m ∈ gaps, isGap m = true) ∧ (body = [] → gaps = []) ∧
    (∀ m ∈ body.head?, isBlank m.1 = false) ∧ ∀ m ∈ body.getLast?, isBlank m.1 = false

namespace Framed

theorem nil : Framed [] :=
  ⟨[], [], rfl, by simp, fun _ => rfl, by simp, by simp⟩

theorem append_gap (h : Framed ms) (hms : ms ≠ []) (hm : isGap m = true) :
    Framed (ms ++ [m]) := by
  obtain ⟨body, gaps, rfl, hgaps, hbody, hfirst, hlast⟩ := h
  refine ⟨body, gaps ++ [m], by simp, fun x hx => ?_, fun hb => ?_, hfirst, hlast⟩
  · rcases List.mem_append.1 hx with hx | hx
    · exact hgaps x hx
    · rw [List.mem_singleton.1 hx]
      exact hm
  · exact absurd (by rw [hb, hbody hb, List.append_nil]) hms

theorem append (h : Framed ms) (ha : a ≠ []) (hfirst : ∀ m ∈ a.head?, isBlank m.1 = false)
    (hlast : ∀ m ∈ a.getLast?, isBlank m.1 = false) : Framed (ms ++ a) := by
  refine ⟨ms ++ a, [], by simp, by simp, by simp, ?_, ?_⟩
  · obtain ⟨body, gaps, rfl, -, hbody, hfirst', -⟩ := h
    cases body with
    | nil => simpa [hbody rfl] using hfirst
    | cons x body => exact hfirst'
  · obtain ⟨init, m, rfl⟩ := (List.eq_nil_or_concat a).resolve_left ha
    simpa [← List.append_assoc] using hlast

/-- What trimming leaves has the same runs. -/
theorem trim (h : Framed ms) :
    ∃ body, Text.trim (ms.map Prod.fst) = body.map Prod.fst ∧ runs body = runs ms := by
  obtain ⟨body, gaps, rfl, hgaps, hbody, hfirst, hlast⟩ := h
  refine ⟨body, ?_, (runs_append_gaps hgaps).symm⟩
  have hblank : ∀ c ∈ (gaps.map Prod.fst).reverse, isBlank c = true := by
    intro c hc
    obtain ⟨m, hm, rfl⟩ := List.mem_map.1 (List.mem_reverse.1 hc)
    have := hgaps m hm
    simp only [isGap, Bool.and_eq_true] at this
    exact this.2
  have hleft : trimLeft ((body ++ gaps).map Prod.fst) = (body ++ gaps).map Prod.fst := by
    cases body with
    | nil => simp [hbody rfl, trimLeft]
    | cons m body =>
      have := hfirst m rfl
      simp [trimLeft, this]
  have hright : (body.map Prod.fst).reverse.dropWhile isBlank = (body.map Prod.fst).reverse := by
    rcases List.eq_nil_or_concat body with rfl | ⟨body, m, rfl⟩
    · rfl
    · have := hlast m (by simp)
      simp [this]
  rw [Text.trim, hleft, trimRight, List.map_append, List.reverse_append,
    List.dropWhile_append_of_pos hblank, hright, List.reverse_reverse]

end Framed

end SqlFerry.Text
