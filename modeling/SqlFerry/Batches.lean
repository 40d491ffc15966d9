/-!
# Groups

A list of rows comes in groups of at most a given size, one after the other. How it is cut is up to
the one who hands it over.
-/

namespace SqlFerry

def batches {α : Type} (n : Nat) (rows : List α) : List (List α) :=
  if n = 0 ∨ rows = [] then []
  else rows.take n :: batches n (rows.drop n)
termination_by rows.length
decreasing_by
  rename_i h
  have : rows.length ≠ 0 := fun h0 => h (.inr (List.length_eq_zero_iff.1 h0))
  simp only [List.length_drop]
  omega

section Lemmas

variable {α : Type} {n : Nat}

/-- No row is lost, and none changes its place. -/
theorem flatten_batches (h : 0 < n) (rows : List α) : (batches n rows).flatten = rows := by
  fun_induction batches n rows with
  | case1 rows hr =>
    rcases hr with hr | hr
    · omega
    · simp [hr]
  | case2 rows _ ih => simp [ih]

theorem ne_nil_of_mem_batches {rows b : List α} (hb : b ∈ batches n rows) : b ≠ [] := by
  fun_induction batches n rows with
  | case1 => simp at hb
  | case2 rows hr ih =>
    rcases List.mem_cons.1 hb with rfl | hb
    · rw [ne_eq, List.take_eq_nil_iff]
      exact fun h => hr h
    · exact ih hb

theorem length_le_of_mem_batches {rows b : List α} (hb : b ∈ batches n rows) : b.length ≤ n := by
  fun_induction batches n rows with
  | case1 => simp at hb
  | case2 rows hr ih =>
    rcases List.mem_cons.1 hb with rfl | hb
    · exact List.length_take_le n rows
    · exact ih hb

end Lemmas

/-- A way to cut lists into groups that are not empty and have at most a given size. None of a list
is lost, and none changes its place. -/
structure Cutting (α : Type) where
  groups : (size : Nat) → List α → List (List α)
  flatten_groups : ∀ {n}, 0 < n → ∀ rows, (groups n rows).flatten = rows
  ne_nil_of_mem : ∀ {n rows g}, g ∈ groups n rows → g ≠ []
  length_le_of_mem : ∀ {n rows g}, g ∈ groups n rows → g.length ≤ n

def Cutting.full {α : Type} : Cutting α where
  groups := batches
  flatten_groups := flatten_batches
  ne_nil_of_mem := ne_nil_of_mem_batches
  length_le_of_mem := length_le_of_mem_batches

end SqlFerry
