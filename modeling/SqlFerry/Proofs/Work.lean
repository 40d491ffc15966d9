import Mathlib.Data.List.Forall2
import Mathlib.Logic.Relation
import SqlFerry.Act

/-!
# Where work leads

Work follows a relation if it takes the state from step to step of the relation, whatever comes of
it. Steps that only add requests of a class to a log give the log of a whole run its shape.
-/

namespace SqlFerry

/-! ## Outcomes -/

theorem exists_of_bind_eq_ok {ε α β : Type} {x : Except ε α} {f : α → Except ε β} {b : β}
    (h : x >>= f = .ok b) : ∃ a, x = .ok a ∧ f a = .ok b := by
  cases x with
  | error e => cases h
  | ok a => exact ⟨a, rfl, h⟩

theorem exists_of_map_eq_ok {ε α β : Type} {x : Except ε α} {f : α → β} {b : β}
    (h : x.map f = .ok b) : ∃ a, x = .ok a ∧ f a = b := by
  cases x with
  | error e => cases h
  | ok a => exact ⟨a, rfl, Except.ok.inj h⟩

theorem bind_eq_ok {ε α : Type} {x : Except ε Unit} {y : Except ε α} {a : α} :
    (x >>= fun _ => y) = .ok a ↔ x = .ok () ∧ y = .ok a := by
  constructor
  · intro h
    obtain ⟨⟨⟩, hx, hy⟩ := exists_of_bind_eq_ok h
    exact ⟨hx, hy⟩
  · rintro ⟨rfl, rfl⟩
    rfl

theorem forM_eq_ok {ε α : Type} {f : α → Except ε Unit} {l : List α} :
    l.forM f = .ok () ↔ ∀ a ∈ l, f a = .ok () := by
  induction l with
  | nil => exact iff_of_true rfl (by simp)
  | cons a l ih => rw [List.forall_mem_cons, ← ih, ← bind_eq_ok (y := l.forM f)]; rfl

theorem forall_of_mapM_eq_ok {ε α β : Type} {f : α → Except ε β} {P : β → Prop} {l : List α}
    {r : List β} (h : l.mapM f = .ok r) (hf : ∀ a ∈ l, ∀ b, f a = .ok b → P b) : ∀ b ∈ r, P b := by
  induction l generalizing r with
  | nil =>
    cases h
    simp
  | cons a l ih =>
    rw [List.mapM_cons] at h
    obtain ⟨b, hb, h⟩ := exists_of_bind_eq_ok h
    obtain ⟨r, hr, h⟩ := exists_of_bind_eq_ok h
    cases h
    exact List.forall_mem_cons.2 ⟨hf a List.mem_cons_self b hb,
      ih hr fun a ha => hf a (List.mem_cons_of_mem _ ha)⟩

theorem forall₂_of_mapM_eq_ok {α β : Type} {f : α → Except Fault β} {P : α → β → Prop}
    (hf : ∀ a b, f a = .ok b → P a b) {l : List α} {r : List β} (h : l.mapM f = .ok r) :
    List.Forall₂ P l r := by
  induction l generalizing r with
  | nil =>
    cases h
    exact .nil
  | cons a l ih =>
    rw [List.mapM_cons] at h
    obtain ⟨b, hb, h⟩ := exists_of_bind_eq_ok h
    obtain ⟨bs, hbs, h⟩ := exists_of_bind_eq_ok h
    cases h
    exact .cons (hf a b hb) (ih hbs)

namespace Work

open Relation

variable {ρ σ τ υ α β : Type} {R : σ → σ → Prop} {p : ρ}

/-! ## Work that succeeds -/

/-- Work returns a value if something can be read off it. -/
theorem exists_ok_of_map_eq_some {w : Work ρ σ α} {s : σ} {f : α → β} {b : β}
    (h : (w.result p s).1.toOption.map f = some b) :
    ∃ a s', w.result p s = (.ok a, s') ∧ f a = b := by
  cases hr : w.result p s with
  | mk r s' =>
    rw [hr] at h
    cases r with
    | error e => cases h
    | ok a => exact ⟨a, s', rfl, Option.some.inj h⟩

theorem exists_of_result_bind_eq_ok {w : Work ρ σ α} {f : α → Work ρ σ β} {s s' : σ} {b : β}
    (h : (w >>= f).result p s = (.ok b, s')) :
    ∃ a s₁, w.result p s = (.ok a, s₁) ∧ (f a).result p s₁ = (.ok b, s') := by
  rw [result_bind] at h
  cases hr : w.result p s with
  | mk r s₁ =>
    rw [hr] at h
    cases r with
    | error e => cases h
    | ok a => exact ⟨a, s₁, rfl, h⟩

theorem of_read_bind_eq_ok {f : ρ → Work ρ σ β} {s s' : σ} {b : β}
    (h : (read >>= f).result p s = (.ok b, s')) : (f p).result p s = (.ok b, s') := by
  obtain ⟨_, _, hread, h⟩ := exists_of_result_bind_eq_ok h
  cases hread
  exact h

theorem exists_of_ofOutcome_bind_eq_ok {x : Except Fault α} {f : α → Work ρ σ β} {s s' : σ} {b : β}
    (h : (ofOutcome x >>= f).result p s = (.ok b, s')) :
    ∃ a, x = .ok a ∧ (f a).result p s = (.ok b, s') := by
  obtain ⟨a, _, houtcome, h⟩ := exists_of_result_bind_eq_ok h
  rw [result_ofOutcome] at houtcome
  obtain ⟨hx, rfl⟩ := Prod.mk.inj houtcome
  exact ⟨a, hx, h⟩

theorem exists_of_within_eq_ok {place : ρ → τ} {part : σ → υ} {put : υ → σ → σ} {w : Work τ υ α}
    {s s' : σ} {a : α} (h : (within place part put w).result p s = (.ok a, s')) :
    ∃ u, w.result (place p) (part s) = (.ok a, u) ∧ s' = put u s := by
  rw [result_within] at h
  obtain ⟨ha, rfl⟩ := Prod.mk.inj h
  exact ⟨_, Prod.ext ha rfl, rfl⟩

/-- Work on a connection of its own returns what the work returns on it. -/
theorem exists_of_connected_eq_ok {send : Request → Work ρ σ Unit} {w : Work ρ σ α} {s s' : σ}
    {a : α} (h : (connected send w).result p s = (.ok a, s')) :
    ∃ s₁ s₂, (send .connect).result p s = (.ok (), s₁) ∧ w.result p s₁ = (.ok a, s₂) ∧
      (send .close).result p s₂ = (.ok (), s') := by
  obtain ⟨_, s₁, hconnect, h⟩ := exists_of_result_bind_eq_ok h
  obtain ⟨r, s₂, hwork, h⟩ := exists_of_result_bind_eq_ok h
  obtain ⟨closed, s₃, hclose, h⟩ := exists_of_result_bind_eq_ok h
  rw [result_outcome] at hwork hclose
  obtain ⟨hr, rfl⟩ := Prod.mk.inj hwork
  obtain ⟨hclosed, rfl⟩ := Prod.mk.inj hclose
  cases r with
  | error e => cases closed <;> cases h
  | ok b =>
    cases closed with
    | error e => cases h
    | ok _ =>
      cases h
      exact ⟨s₁, _, hconnect, Prod.ext (Except.ok.inj hr) rfl, Prod.ext (Except.ok.inj hclosed) rfl⟩

/-- If work on each member of a list succeeds and keeps what held, work on the list succeeds, and
what each member brings about holds after it. -/
theorem result_forM_of_ok {l : List β} {f : β → Work ρ σ PUnit} {Q : β → σ → Prop}
    (hf : ∀ b ∈ l, ∀ s, ∃ s', (f b).result p s = (.ok ⟨⟩, s') ∧ Q b s' ∧
      ∀ b', Q b' s → Q b' s') (s : σ) :
    ∃ s', (l.forM f).result p s = (.ok ⟨⟩, s') ∧ (∀ b ∈ l, Q b s') ∧ ∀ b, Q b s → Q b s' := by
  induction l generalizing s with
  | nil => exact ⟨s, rfl, by simp, fun _ h => h⟩
  | cons b l ih =>
    obtain ⟨s₁, hb, hQ, hkeep⟩ := hf b (by simp) s
    obtain ⟨s₂, hl, hall, hkeep'⟩ := ih (fun b' hb' => hf b' (by simp [hb'])) s₁
    refine ⟨s₂, ?_, ?_, fun b' h => hkeep' b' (hkeep b' h)⟩
    · change (f b >>= fun _ => l.forM f).result p s = _
      rw [result_bind, hb]
      exact hl
    · intro b' hb'
      rcases List.mem_cons.1 hb' with rfl | hb'
      · exact hkeep' _ hQ
      · exact hall b' hb'

/-! ## What work returns -/

def Returns (P : α → Prop) (p : ρ) (w : Work ρ σ α) : Prop :=
  ∀ s a s', w.result p s = (.ok a, s') → P a

namespace Returns

variable {P : α → Prop} {Q : β → Prop}

theorem pure {a : α} (h : P a) : Returns P p (Pure.pure a : Work ρ σ α) := by
  rintro s _ _ ⟨⟩
  exact h

theorem read : Returns (· = p) p (MonadReader.read : Work ρ σ ρ) := by
  rintro s _ _ ⟨⟩
  rfl

theorem ofOutcome {r : Except Fault α} (h : ∀ a, r = .ok a → P a) :
    Returns P p (Work.ofOutcome r : Work ρ σ α) := by
  intro s a s' hr
  rw [result_ofOutcome] at hr
  exact h a (congrArg Prod.fst hr)

theorem bind {w : Work ρ σ α} {f : α → Work ρ σ β} (hw : Returns P p w)
    (hf : ∀ a, P a → Returns Q p (f a)) : Returns Q p (w >>= f) := by
  intro s b s' h
  obtain ⟨a, s₁, ha, hb⟩ := exists_of_result_bind_eq_ok h
  exact hf a (hw s a s₁ ha) s₁ b s' hb

/-- Either of two goes before the same work. -/
theorem ite_bind {c : Prop} [Decidable c] {w v : Work ρ σ α} {f : α → Work ρ σ β}
    (hw : c → Returns P p w) (hv : ¬c → Returns P p v) (hf : ∀ a, P a → Returns Q p (f a)) :
    Returns Q p (if c then w >>= f else v >>= f) := by
  split
  · next hc => exact (hw hc).bind hf
  · next hc => exact (hv hc).bind hf

/-- Nothing need be known of what comes before. -/
theorem seq {w : Work ρ σ α} {f : α → Work ρ σ β} (hf : ∀ a, Returns Q p (f a)) :
    Returns Q p (w >>= f) :=
  bind (P := fun _ => True) (fun _ _ _ _ => trivial) fun a _ => hf a

theorem mapM {l : List β} {f : β → Work ρ σ α} (hf : ∀ b ∈ l, Returns P p (f b)) :
    Returns (∀ a ∈ ·, P a) p (l.mapM f) := by
  induction l with
  | nil => exact pure (by simp)
  | cons b l ih =>
    rw [List.mapM_cons]
    refine (hf b List.mem_cons_self).bind fun a ha => ?_
    refine (ih fun b' hb => hf b' (List.mem_cons_of_mem _ hb)).bind fun as has => ?_
    exact pure (List.forall_mem_cons.2 ⟨ha, has⟩)

theorem within {place : ρ → τ} {part : σ → υ} {put : υ → σ → σ} {w : Work τ υ α}
    (hw : Returns P (place p) w) : Returns P p (Work.within place part put w) := by
  intro s a s' h
  obtain ⟨u, ha, -⟩ := exists_of_within_eq_ok h
  exact hw (part s) a u ha

theorem connected {send : Request → Work ρ σ Unit} {w : Work ρ σ α} (hw : Returns P p w) :
    Returns P p (Work.connected send w) := by
  have houtcome : Returns (∀ a, · = .ok a → P a) p w.outcome := by
    rintro s r s' hr a rfl
    rw [result_outcome] at hr
    obtain ⟨hok, -⟩ := Prod.mk.inj hr
    exact hw s a _ (Prod.ext (Except.ok.inj hok) rfl)
  refine seq fun _ => houtcome.bind fun r hr => seq fun closed => ?_
  cases r with
  | error e =>
    rintro s a s' ⟨⟩
  | ok a =>
    cases closed with
    | error e => rintro s a s' ⟨⟩
    | ok _ => exact pure (hr a rfl)

end Returns

/-! ## What work fails with -/

def Throws (E : Fault → Prop) (p : ρ) (w : Work ρ σ α) : Prop :=
  ∀ s e, (w.result p s).1 = .error e → E e

namespace Throws

variable {E : Fault → Prop}

theorem pure (a : α) : Throws E p (Pure.pure a : Work ρ σ α) := by
  rintro s e ⟨⟩

theorem throw {e : Fault} (h : E e) : Throws E p (MonadExcept.throw e : Work ρ σ α) := by
  rintro s _ ⟨⟩
  exact h

theorem ofOutcome {r : Except Fault α} (h : ∀ e, r = .error e → E e) :
    Throws E p (Work.ofOutcome r : Work ρ σ α) := by
  intro s e he
  rw [result_ofOutcome] at he
  exact h e he

theorem ite {c : Prop} [Decidable c] {w v : Work ρ σ α} (hw : Throws E p w) (hv : Throws E p v) :
    Throws E p (if c then w else v) := by
  split
  · exact hw
  · exact hv

theorem modify (f : σ → σ) : Throws E p (modify f : Work ρ σ PUnit) := by
  rintro s e ⟨⟩

theorem mono {E' : Fault → Prop} {w : Work ρ σ α} (hw : Throws E p w) (hE : ∀ e, E e → E' e) :
    Throws E' p w :=
  fun s e he => hE e (hw s e he)

theorem bind {w : Work ρ σ α} {f : α → Work ρ σ β} (hw : Throws E p w)
    (hf : ∀ a, Throws E p (f a)) : Throws E p (w >>= f) := by
  intro s e h
  have hw := hw s
  rw [result_bind] at h
  cases hr : w.result p s with
  | mk r s₁ =>
    rw [hr] at h hw
    cases r with
    | error e' =>
      cases h
      exact hw e rfl
    | ok a => exact hf a s₁ e h

theorem read_bind {f : ρ → Work ρ σ α} (hf : Throws E p (f p)) : Throws E p (read >>= f) := by
  intro s e h
  rw [result_bind, result_read] at h
  exact hf s e h

/-- What goes on from an outcome fails for a reason of its own or for that of the work. -/
theorem outcome_bind {w : Work ρ σ α} {f : Except Fault α → Work ρ σ β} (hw : Throws E p w)
    (hok : ∀ a, Throws E p (f (.ok a))) (herror : ∀ e, E e → Throws E p (f (.error e))) :
    Throws E p (w.outcome >>= f) := by
  intro s e h
  have hw := hw s
  rw [result_bind, result_outcome] at h
  dsimp only at h
  cases hr : w.result p s with
  | mk r s₁ =>
    rw [hr] at h hw
    cases r with
    | error e' => exact herror e' (hw e' rfl) s₁ e h
    | ok a => exact hok a s₁ e h

theorem forM {l : List β} {f : β → Work ρ σ PUnit} (hf : ∀ b ∈ l, Throws E p (f b)) :
    Throws E p (l.forM f) := by
  induction l with
  | nil => exact pure _
  | cons b l ih => exact (hf b (by simp)).bind fun _ => ih fun b' hb => hf b' (by simp [hb])

theorem within {place : ρ → τ} {part : σ → υ} {put : υ → σ → σ} {w : Work τ υ α}
    (hw : Throws E (place p) w) : Throws E p (Work.within place part put w) :=
  fun s => hw (part s)

end Throws

/-! ## Steps -/

/-- Whatever comes of the work, the state after it is reached by steps of `R`. -/
def Follows (R : σ → σ → Prop) (p : ρ) (w : Work ρ σ α) : Prop :=
  ∀ s, ReflTransGen R s (w.result p s).2

namespace Follows

theorem of_still {w : Work ρ σ α} (h : ∀ s, (w.result p s).2 = s) : Follows R p w := by
  intro s
  rw [h]

theorem pure (a : α) : Follows R p (Pure.pure a : Work ρ σ α) :=
  of_still fun _ => rfl

theorem throw (e : Fault) : Follows R p (MonadExcept.throw e : Work ρ σ α) :=
  of_still fun _ => rfl

theorem read : Follows R p (MonadReader.read : Work ρ σ ρ) :=
  of_still fun _ => rfl

theorem modify {f : σ → σ} (h : ∀ s, R s (f s)) :
    Follows R p (modify f : Work ρ σ PUnit) :=
  fun s => .single (h s)

/-- What comes after may rely on how the work before it ended. -/
theorem bind_of {w : Work ρ σ α} {f : α → Work ρ σ β} (hw : Follows R p w)
    (hf : ∀ a s, (w.result p s).1 = .ok a → Follows R p (f a)) : Follows R p (w >>= f) := by
  intro s
  have h := hw s
  have hf := fun a => hf a s
  rw [result_bind]
  cases hr : w.result p s with
  | mk r s' =>
    rw [hr] at h hf
    cases r with
    | error e => exact h
    | ok a => exact h.trans (hf a rfl s')

theorem bind {w : Work ρ σ α} {f : α → Work ρ σ β} (hw : Follows R p w)
    (hf : ∀ a, Follows R p (f a)) : Follows R p (w >>= f) :=
  hw.bind_of fun a _ _ => hf a

theorem ite {c : Prop} [Decidable c] {w v : Work ρ σ α} (hw : Follows R p w)
    (hv : Follows R p v) : Follows R p (if c then w else v) := by
  split
  · exact hw
  · exact hv

/-- Either of two goes before the same work. -/
theorem ite_bind {c : Prop} [Decidable c] {w v : Work ρ σ α} {f : α → Work ρ σ β}
    (hw : Follows R p w) (hv : Follows R p v) (hf : ∀ a, Follows R p (f a)) :
    Follows R p (if c then w >>= f else v >>= f) :=
  .ite (hw.bind hf) (hv.bind hf)

theorem outcome {w : Work ρ σ α} (hw : Follows R p w) : Follows R p w.outcome :=
  hw

theorem forM {l : List β} {f : β → Work ρ σ PUnit} (hf : ∀ b ∈ l, Follows R p (f b)) :
    Follows R p (l.forM f) := by
  induction l with
  | nil => exact pure _
  | cons b l ih =>
    exact (hf b (by simp)).bind fun _ => ih fun b' hb => hf b' (by simp [hb])

theorem ofOutcome (r : Except Fault α) : Follows R p (Work.ofOutcome r : Work ρ σ α) :=
  of_still fun s => by rw [result_ofOutcome]

theorem mapM {l : List β} {f : β → Work ρ σ α} (hf : ∀ b ∈ l, Follows R p (f b)) :
    Follows R p (l.mapM f) := by
  induction l with
  | nil => exact pure _
  | cons b l ih =>
    rw [List.mapM_cons]
    exact (hf b (by simp)).bind fun _ => (ih fun b' hb => hf b' (by simp [hb])).bind fun _ => pure _

theorem within {place : ρ → τ} {part : σ → υ} {put : υ → σ → σ} {w : Work τ υ α}
    {S : υ → υ → Prop} (hw : Follows S (place p) w) (hput : ∀ s, put (part s) s = s)
    (hS : ∀ s u u', S u u' → R (put u s) (put u' s)) :
    Follows R p (Work.within place part put w) := by
  intro s
  have h := (hw (part s)).lift (fun u => put u s) fun u u' => hS s u u'
  change ReflTransGen R (put (part s) s) _ at h
  rw [hput] at h
  exact h

theorem mono {S : σ → σ → Prop} {w : Work ρ σ α} (hw : Follows R p w)
    (h : ∀ s s', R s s' → S s s') : Follows S p w :=
  fun s => ReflTransGen.mono h _ _ (hw s)

/-- What every step keeps, the work keeps. -/
theorem keeps {w : Work ρ σ α} {I : σ → Prop} (hw : Follows R p w)
    (hI : ∀ s s', R s s' → I s → I s') {s : σ} (hs : I s) : I (w.result p s).2 := by
  have h := hw s
  generalize (w.result p s).2 = s' at h
  induction h with
  | refl => exact hs
  | tail _ hstep ih => exact hI _ _ hstep ih

end Follows

/-! ## Requests in a log -/

def Adds (A : Request → Prop) (log log' : Log) : Prop :=
  ∃ r, A r ∧ log' = log ++ [r]

/-- A step of which a log shows nothing or one request of the class `A`. -/
def Logs (log : σ → Log) (A : Request → Prop) (s s' : σ) : Prop :=
  log s' = log s ∨ Adds A (log s) (log s')

theorem Follows.log_eq {log : σ → Log} {A : Request → Prop} {w : Work ρ σ α}
    (hw : Follows (Logs log A) p w) (s : σ) :
    ∃ new, log (w.result p s).2 = log s ++ new ∧ ∀ r ∈ new, A r := by
  have h := hw s
  generalize (w.result p s).2 = s' at h ⊢
  induction h with
  | refl => exact ⟨[], by simp⟩
  | @tail s₁ s₂ _ hstep ih =>
    obtain ⟨new, hlog, hnew⟩ := ih
    rcases hstep with hsame | ⟨r, hr, hadd⟩
    · exact ⟨new, hsame.trans hlog, hnew⟩
    · refine ⟨new ++ [r], by rw [hadd, hlog, List.append_assoc], fun x hx => ?_⟩
      rcases List.mem_append.1 hx with hx | hx
      · exact hnew x hx
      · rw [List.mem_singleton.1 hx]
        exact hr

/-- Work on a connection of its own adds the requests for it, whatever the work adds. -/
theorem Follows.connected {send : Request → Work ρ σ Unit} {w : Work ρ σ α}
    (hs : ∀ r ∈ [Request.connect, .close], Follows R p (send r)) (hw : Follows R p w) :
    Follows R p (Work.connected send w) := by
  refine (hs .connect (by simp)).bind fun _ => hw.outcome.bind fun r => ?_
  refine (hs .close (by simp)).outcome.bind fun closed => ?_
  cases r with
  | ok a => cases closed <;> exact of_still fun _ => rfl
  | error e => exact .throw e

/-- Work in a transaction adds the requests for it, whatever the work adds. -/
theorem Follows.transacted {send : Request → Work ρ σ Unit} {w : Work ρ σ α}
    (hs : ∀ r ∈ [Request.connect, .start, .commit, .rollback, .close], Follows R p (send r))
    (hw : Follows R p w) : Follows R p (Work.transacted send w) := by
  refine (hs .connect (by simp)).bind fun _ => (hs .start (by simp)).bind fun _ =>
    hw.outcome.bind fun r => ?_
  cases r with
  | ok a => exact (hs .commit (by simp)).bind fun _ => (hs .close (by simp)).bind fun _ => .pure a
  | error e =>
    exact (hs .rollback (by simp)).outcome.bind fun _ => (hs .close (by simp)).outcome.bind fun _ =>
      .throw e

/-- Work inside a savepoint adds the requests for it, whatever the work adds. -/
theorem Follows.inSavepoint {send : Request → Work ρ σ Unit} {w : Work ρ σ α}
    (hs : ∀ r ∈ [Request.savepoint, .release, .rollbackTo], Follows R p (send r))
    (hw : Follows R p w) : Follows R p (Work.inSavepoint send w) := by
  refine (hs .savepoint (by simp)).bind fun _ => hw.outcome.bind fun r => ?_
  cases r with
  | ok a => exact (hs .release (by simp)).bind fun _ => .pure a
  | error e => exact (hs .rollbackTo (by simp)).outcome.bind fun _ => .throw e

end Work

theorem Act.exists_of_change_eq_ok {f : Files → Except Fault Files} {place : Surroundings}
    {w w' : World} (h : (Act.change f).result place w = (.ok ⟨⟩, w')) :
    ∃ files, f w.files = .ok files ∧ w' = { w with files } := by
  obtain ⟨_, _, hget, h⟩ := Work.exists_of_result_bind_eq_ok h
  cases hget
  obtain ⟨files, hfiles, h⟩ := Work.exists_of_ofOutcome_bind_eq_ok h
  cases h
  exact ⟨files, hfiles, rfl⟩

namespace Talk

open Work

variable {A : Request → Prop} {db : Database}

theorem send_follows {r : Request} (h : A r) : Follows (Adds A) db (send r) := by
  intro log
  rw [result_send]
  exact .single ⟨r, h, rfl⟩

theorem query_follows {sql : String} (h : A (.query sql)) : Follows (Adds A) db (query sql) :=
  (send_follows h).bind fun _ => .of_still fun _ => rfl

/-- What is asked later comes behind what was asked before. -/
theorem log_prefix {α : Type} {t : Talk α} (h : Follows (Adds A) db t) (log : Log) :
    log <+: (t.result db log).2 := by
  refine @Follows.keeps _ _ _ _ _ _ (log <+: ·) h ?_ _ (List.prefix_refl log)
  rintro log₁ _ ⟨r, -, rfl⟩ hlog
  exact hlog.trans (List.prefix_append log₁ [r])

theorem eq_of_send_eq_ok {r : Request} {log log' : Log} {u : Unit}
    (h : (send r).result db log = (.ok u, log')) : log' = log ++ [r] := by
  rw [result_send] at h
  exact (Prod.mk.inj h).2.symm

theorem send_throws {E : Fault → Prop} (hE : ∀ t : Trouble, E t.fault) (r : Request) :
    Throws E db (send r) := by
  intro log e h
  rw [result_send] at h
  cases hr : db.refuses log r with
  | none =>
    rw [hr] at h
    cases h
  | some t =>
    rw [hr] at h
    cases h
    exact hE t

end Talk

end SqlFerry
