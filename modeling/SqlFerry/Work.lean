import SqlFerry.Fault

/-!
# Work that can fail

Steps that read their surroundings, change a state, and may fail. What was done before a failure
stays done.
-/

namespace SqlFerry

/-- Work in surroundings `ρ` on a state `σ`. -/
abbrev Work (ρ σ α : Type) : Type :=
  ReaderT ρ (ExceptT Fault (StateM σ)) α

namespace Work

variable {ρ σ τ υ α β : Type}

def result (w : Work ρ σ α) (place : ρ) (s : σ) : Except Fault α × σ :=
  (w place).run s

def outcome (w : Work ρ σ α) : Work ρ σ (Except Fault α) :=
  fun place => ExceptT.mk fun s => let (r, s) := w.result place s; (.ok r, s)

def ofOutcome : Except Fault α → Work ρ σ α
  | .ok a => return a
  | .error e => throw e

/-- Work on a part of wider surroundings and of a larger state. -/
def within (place : ρ → τ) (part : σ → υ) (put : υ → σ → σ) (w : Work τ υ α) : Work ρ σ α :=
  fun p => ExceptT.mk fun s => let (r, u) := w.result (place p) (part s); (r, put u s)

/-- Some work and then, whatever comes of it, some more. A failure at the end is the one that
counts. -/
def andFinally (w : Work ρ σ α) (last : Work ρ σ Unit) : Work ρ σ α := do
  let r ← w.outcome
  last
  ofOutcome r

theorem ofOutcome_ok (a : α) : (ofOutcome (.ok a) : Work ρ σ α) = pure a := rfl

@[simp]
theorem result_pure (a : α) (p : ρ) (s : σ) :
    (pure a : Work ρ σ α).result p s = (.ok a, s) := rfl

@[simp]
theorem result_throw (e : Fault) (p : ρ) (s : σ) :
    (throw e : Work ρ σ α).result p s = (.error e, s) := rfl

@[simp]
theorem result_outcome (w : Work ρ σ α) (p : ρ) (s : σ) :
    w.outcome.result p s = (.ok (w.result p s).1, (w.result p s).2) := rfl

theorem result_bind (w : Work ρ σ α) (f : α → Work ρ σ β) (p : ρ) (s : σ) :
    (w >>= f).result p s = match w.result p s with
      | (.ok a, s) => (f a).result p s
      | (.error e, s) => (.error e, s) := by
  simp only [result, bind, ReaderT.bind, ExceptT.bind, ExceptT.run, ExceptT.mk, ExceptT.bindCont,
    StateT.bind]
  cases w p s with
  | mk r s => cases r <;> rfl

section Result

variable (p : ρ) (s : σ)

@[simp]
theorem result_read : (read : Work ρ σ ρ).result p s = (.ok p, s) := rfl

@[simp]
theorem result_get : (get : Work ρ σ σ).result p s = (.ok s, s) := rfl

@[simp]
theorem result_set (s' : σ) : (set s' : Work ρ σ PUnit).result p s = (.ok ⟨⟩, s') := rfl

@[simp]
theorem result_modify (f : σ → σ) :
    (modify f : Work ρ σ PUnit).result p s = (.ok ⟨⟩, f s) := rfl

@[simp]
theorem result_ofOutcome (r : Except Fault α) :
    (ofOutcome r : Work ρ σ α).result p s = (r, s) := by
  cases r <;> rfl

@[simp]
theorem result_within (place : ρ → τ) (part : σ → υ) (put : υ → σ → σ) (w : Work τ υ α) :
    (within place part put w).result p s =
      ((w.result (place p) (part s)).1, put (w.result (place p) (part s)).2 s) := rfl

theorem result_andFinally (w : Work ρ σ α) (last : Work ρ σ Unit) :
    (w.andFinally last).result p s =
      match last.result p (w.result p s).2 with
      | (.ok _, s') => ((w.result p s).1, s')
      | (.error e, s') => (.error e, s') := by
  simp only [andFinally, result_bind, result_outcome]
  cases last.result p (w.result p s).2 with
  | mk r s' => cases r <;> simp

end Result

end Work

end SqlFerry
