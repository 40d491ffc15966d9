import Mathlib.Data.List.Forall2
import Mathlib.Data.List.Nodup
import SqlFerry.Ddl.Table
import SqlFerry.Proofs.Work

/-!
# Building tables

Steps that build a table without a fault, and what a table takes: a column of another name than its
own, and every key, index and constraint over columns that it has.
-/

namespace SqlFerry

open Text

/-! ## Tables that keep their rules -/

namespace Table

variable {t u : Table} {owner : String} {names : List String} {cs : List Column} {c : Column}
  {k : Constraint} {i : Index}

def DistinctColumns (cs : List Column) : Prop :=
  (cs.map (lower ·.name)).Nodup

structure IsChecked (t : Table) : Prop where
  distinct : DistinctColumns t.columns
  key : t.requireColumns "primary key" t.primaryKey = .ok ()
  indexes : ∀ i ∈ t.indexes, t.checkIndex i = .ok ()
  constraints : ∀ k ∈ t.constraints, t.checkConstraint k = .ok ()

theorem checkDistinct_eq_ok {seen : List String} : t.checkDistinct seen cs = .ok () ↔
    DistinctColumns cs ∧ ∀ c ∈ cs, lower c.name ∉ seen := by
  induction cs generalizing seen with
  | nil => exact iff_of_true rfl ⟨List.nodup_nil, by simp⟩
  | cons c cs ih =>
    rw [checkDistinct, DistinctColumns, List.map_cons, List.nodup_cons, List.forall_mem_cons]
    split
    · next hseen =>
      rw [List.contains_iff_mem] at hseen
      exact iff_of_false (by simp) fun h => h.2.1 hseen
    · next hseen =>
      rw [List.contains_iff_mem] at hseen
      have hfresh : (∀ x ∈ cs, lower x.name ∉ lower c.name :: seen) ↔
          lower c.name ∉ cs.map (lower ·.name) ∧ ∀ x ∈ cs, lower x.name ∉ seen := by
        simp only [List.mem_cons, not_or, List.mem_map, not_exists, not_and, forall_and]
      rw [ih, hfresh, DistinctColumns]
      tauto

theorem check_eq_ok : t.check = .ok () ↔ t.IsChecked := by
  rw [check, bind_eq_ok, bind_eq_ok, bind_eq_ok, checkDistinct_eq_ok, forM_eq_ok, forM_eq_ok]
  constructor
  · rintro ⟨⟨hdistinct, -⟩, hkey, hindexes, hconstraints⟩
    exact ⟨hdistinct, hkey, hindexes, hconstraints⟩
  · rintro ⟨hdistinct, hkey, hindexes, hconstraints⟩
    exact ⟨⟨hdistinct, by simp⟩, hkey, hindexes, hconstraints⟩

/-! ## What a table takes -/

theorem requireColumns_eq_ok :
    t.requireColumns owner names = .ok () ↔ ∀ n ∈ names, t.hasColumn n = true := by
  unfold requireColumns
  cases hfind : names.find? (!t.hasColumn ·) with
  | none => simpa using hfind
  | some n =>
    have hmem := List.mem_of_find?_eq_some hfind
    have hnot := List.find?_some hfind
    simp only [reduceCtorEq, false_iff, not_forall]
    exact ⟨n, hmem, by simpa using hnot⟩

theorem requireColumns_congr (hu : u.columns = t.columns)
    (h : t.requireColumns owner names = .ok ()) : u.requireColumns owner names = .ok () := by
  rw [requireColumns_eq_ok] at h ⊢
  intro n hn
  rw [hasColumn, hu]
  exact h n hn

theorem setPrimaryKey_eq_ok (hu : u.columns = t.columns)
    (h : t.requireColumns "primary key" names = .ok ()) :
    u.setPrimaryKey names = .ok { u with primaryKey := names } := by
  rw [setPrimaryKey, requireColumns_congr hu h]
  rfl

theorem addConstraint_eq_ok (hu : u.columns = t.columns) (h : t.checkConstraint k = .ok ()) :
    u.addConstraint k = .ok { u with constraints := u.constraints ++ [k] } := by
  rw [addConstraint, checkConstraint, requireColumns_congr hu h]
  rfl

/-- An index by columns may be taken with another origin. -/
theorem addIndex_eq_ok (hu : u.columns = t.columns) (h : t.checkIndex i = .ok ())
    {origin : Option Dialect} : u.addIndex { i with origin } =
      .ok { u with indexes := u.indexes ++ [{ i with origin }] } := by
  have hcheck : u.checkIndex { i with origin } = .ok () := by
    unfold checkIndex at h ⊢
    dsimp only at h ⊢
    split at h
    · next hexpression => rw [if_pos hexpression]
    · next hexpression =>
      rw [if_neg hexpression]
      exact requireColumns_congr hu h
  rw [addIndex, hcheck]
  rfl

theorem addColumn_eq_ok (h : DistinctColumns (u.columns ++ [c])) :
    u.addColumn c = .ok { u with columns := u.columns ++ [c] } := by
  have hnew : u.hasColumn c.name = false := by
    rw [DistinctColumns, List.map_append, List.nodup_append] at h
    rw [hasColumn, List.any_eq_false]
    intro x hx hsame
    exact h.2.2 _ (List.mem_map_of_mem hx) _ (List.mem_map_of_mem (List.mem_singleton_self c))
      (by simpa [sameName] using hsame)
  rw [addColumn, hnew]
  rfl

end Table

/-! ## Steps without a fault -/

namespace Ddl.Building

variable {α β : Type} {m : Building α} {f : α → Building β} {t t' t'' : Table} {a : α} {b : β}

/-- The steps lead from one table to the other without a fault and return `a`. -/
def Gives (m : Building α) (t : Table) (a : α) (t' : Table) : Prop :=
  m.run t = (.ok a, t')

namespace Gives

theorem pure (a : α) (t : Table) : Gives (Pure.pure a) t a t := rfl

theorem get (t : Table) : Gives MonadState.get t t t := rfl

theorem lift {x : Except Fault α} (h : x = .ok a) (t : Table) : Gives (liftM x) t a t := by
  subst h
  rfl

theorem bind (hm : Gives m t a t') (hf : Gives (f a) t' b t'') : Gives (m >>= f) t b t'' := by
  change (ExceptT.bind m f).run t = _
  rw [Gives, ExceptT.run] at hm
  rw [ExceptT.bind, ExceptT.run, ExceptT.mk]
  change (StateT.bind m (ExceptT.bindCont f)) t = _
  rw [StateT.bind, hm]
  exact hf

theorem change {f : Table → Except Refusal Table} (h : f t = .ok t') :
    Gives (Building.change f) t () t' := by
  refine bind (get t) ?_
  rw [h]
  rfl

theorem forM_cons {ι : Type} {f : ι → Building Unit} {i : ι} {l : List ι}
    (hi : Gives (f i) t () t') (hl : Gives (l.forM f) t' () t'') :
    Gives ((i :: l).forM f) t () t'' :=
  hi.bind hl

end Gives

end Ddl.Building

end SqlFerry
