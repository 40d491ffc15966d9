import Mathlib.Data.List.ReduceOption
import SqlFerry.Proofs.Convert.Skeleton

/-!
# What a conversion loses

Nothing that a column, an index or a foreign key had is gone without a warning that names it and its
table. Each step is compared with what it began with, under the assumption that all of its warnings
are among those of the whole conversion; so the steps can be put together, and the last column is
compared with the first.
-/

namespace SqlFerry

open Text

/-! ## What is kept or noted -/

def Convert.Notes (ws : List Warning) (severity : Severity) (entityType entity table : String) :
    Prop :=
  ∃ message, ⟨severity, entityType, entity, some table, message⟩ ∈ ws

section Accounts

variable (ws : List Convert.Warning) (table : String)

/-- Whether a column has what another has, except for what is noted. -/
structure Column.Keeps (c d : Column) : Prop where
  name : d.name = c.name
  autoIncrement : d.autoIncrement = c.autoIncrement ∨
    Convert.Notes ws .dropped "column" c.name table
  onUpdate : d.onUpdate = c.onUpdate ∨ Convert.Notes ws .dropped "column" c.name table
  default : c.default ≠ none → d.default ≠ none ∨ Convert.Notes ws .dropped "column" c.name table
  unsigned : d.unsigned = c.unsigned ∨ Convert.Notes ws .lossy "column" c.name table
  isArray : d.isArray = c.isArray ∨ Convert.Notes ws .lossy "column" c.name table

theorem Column.Keeps.refl (c : Column) : c.Keeps ws table c :=
  ⟨rfl, .inl rfl, .inl rfl, .inl, .inl rfl, .inl rfl⟩

/-- The type and what belongs to it may change. -/
theorem Column.Keeps.retyped (c : Column) (typeName : String) (length precision scale : Option Int)
    (enumValues : List String) : c.Keeps ws table
      { c with typeName, length, precision, scale, enumValues } :=
  ⟨rfl, .inl rfl, .inl rfl, .inl, .inl rfl, .inl rfl⟩

variable {ws table} in
theorem Column.Keeps.trans {c d e : Column} (h : c.Keeps ws table d) (h' : d.Keeps ws table e) :
    c.Keeps ws table e where
  name := h'.name.trans h.name
  autoIncrement := (h.name ▸ h'.autoIncrement).elim (fun heq => heq ▸ h.autoIncrement) .inr
  onUpdate := (h.name ▸ h'.onUpdate).elim (fun heq => heq ▸ h.onUpdate) .inr
  default := fun hc => (h.default hc).elim (fun hd => h.name ▸ h'.default hd) .inr
  unsigned := (h.name ▸ h'.unsigned).elim (fun heq => heq ▸ h.unsigned) .inr
  isArray := (h.name ▸ h'.isArray).elim (fun heq => heq ▸ h.isArray) .inr

def Column.IsListed (c : Column) : Prop :=
  c.typeName = "enum" ∨ c.typeName = "set"

structure Column.Accounts (c d : Column) : Prop extends c.Keeps ws table d where
  listed : c.IsListed → d.typeName = c.typeName ∨ Convert.Notes ws .lossy "column" c.name table

structure Index.Accounts (i j : Index) : Prop where
  name : j.name = i.name
  method : j.method = i.method ∨ Convert.Notes ws .dropped "index" i.name table
  columns : j.columns = i.columns ∨ Convert.Notes ws .lossy "index" i.name table

/-- What is said of an index that may be missing. -/
def Index.AccountsFor (i : Index) : Option Index → Prop
  | none => Convert.Notes ws .dropped "index" i.name table
  | some j => i.Accounts ws table j

def Constraint.label (k : Constraint) : String :=
  if given k.name then k.name.getD "" else "foreign_key"

structure Constraint.Accounts (k l : Constraint) : Prop where
  name : l.name = k.name
  kind : l.kind = k.kind
  onDelete : l.onDelete = k.onDelete ∨ Convert.Notes ws .lossy "constraint" k.label table
  onUpdate : l.onUpdate = k.onUpdate ∨ Convert.Notes ws .lossy "constraint" k.label table

/-- Whether a table has the columns, constraints and indexes of another in their order, except for
what is noted and for checks. -/
structure Table.Accounts (t u : Table) : Prop where
  name : u.name = t.name
  columns : List.Forall₂ (Column.Accounts ws t.name) t.columns u.columns
  constraints : ∃ kept added, List.Forall₂ (Constraint.Accounts ws t.name) t.constraints kept ∧
    u.constraints = kept ++ added ∧ ∀ k ∈ added, k.kind = .check
  indexes : ∃ outcomes, List.Forall₂ (Index.AccountsFor ws t.name) t.indexes outcomes ∧
    u.indexes = outcomes.reduceOption

theorem Table.Accounts.refl (t : Table) : t.Accounts ws t where
  name := rfl
  columns := List.forall₂_same.2 fun c _ => ⟨.refl .., fun _ => .inl rfl⟩
  constraints := ⟨t.constraints, [], List.forall₂_same.2 fun _ _ =>
    ⟨rfl, rfl, .inl rfl, .inl rfl⟩, by simp, by simp⟩
  indexes := ⟨t.indexes.map some, List.forall₂_map_right_iff.2 <| List.forall₂_same.2 fun _ _ =>
    ⟨rfl, .inl rfl, .inl rfl⟩, by simp [List.reduceOption]⟩

end Accounts

namespace Convert

/-! ## Work that declares its losses -/

/-- Whether work gives, if it succeeds, only warnings that `T` says, and results that `p` says if
its warnings are among `ws`. -/
structure Declares {α : Type} (ws : List Warning) (T : Warning → Prop) (p : α → Prop)
    (m : Converting α) : Prop where
  run : ∀ {before a after}, m.run before = .ok (a, after) → ∃ given, after = before ++ given ∧
    (∀ w ∈ given, T w) ∧ (given ⊆ ws → p a)

namespace Declares

variable {α β γ : Type} {ws : List Warning} {T : Warning → Prop} {p : α → Prop} {q : β → Prop}
  {m n : Converting α} {f : α → Converting β}

theorem pure {a : α} (ha : p a) : Declares ws T p (Pure.pure a) := by
  constructor
  rintro before _ _ ⟨⟩
  exact ⟨[], by simp, by simp, fun _ => ha⟩

theorem lift {x : Except Fault α} (hx : ∀ a, x = .ok a → p a) : Declares ws T p (liftM x) := by
  constructor
  intro before a after h
  cases x with
  | error e => cases h
  | ok b =>
    cases h
    exact ⟨[], by simp, by simp, fun _ => hx a rfl⟩

theorem mono {p' : α → Prop} (hm : Declares ws T p m) (h : ∀ a, p a → p' a) :
    Declares ws T p' m := by
  constructor
  intro before a after hrun
  obtain ⟨given, hafter, hT, hp⟩ := hm.run hrun
  exact ⟨given, hafter, hT, fun hws => h a (hp hws)⟩

theorem widen {T' : Warning → Prop} (hm : Declares ws T p m) (h : ∀ w, T w → T' w) :
    Declares ws T' p m := by
  constructor
  intro before a after hrun
  obtain ⟨given, hafter, hT, hp⟩ := hm.run hrun
  exact ⟨given, hafter, fun w hw => h w (hT w hw), hp⟩

theorem and {p' : α → Prop} (hm : Declares ws T p m) (h : Gives p' m) :
    Declares ws T (fun a => p a ∧ p' a) m := by
  constructor
  intro before a after hrun
  obtain ⟨given, hafter, hT, hp⟩ := hm.run hrun
  exact ⟨given, hafter, hT, fun hws => ⟨hp hws, h.run hrun⟩⟩

/-- What follows may use what is said of the result before, in what it says itself. -/
theorem bind (hm : Declares ws T p m) (hf : ∀ a, Declares ws T (fun b => p a → q b) (f a)) :
    Declares ws T q (m >>= f) := by
  constructor
  intro before b after h
  rw [StateT.run_bind] at h
  cases hrun : m.run before with
  | error e =>
    rw [hrun] at h
    cases h
  | ok r =>
    obtain ⟨a, between⟩ := r
    rw [hrun] at h
    obtain ⟨given, rfl, hT, hp⟩ := hm.run hrun
    obtain ⟨more, rfl, hT', hq⟩ := (hf a).run h
    refine ⟨given ++ more, by rw [List.append_assoc], ?_, fun hws => ?_⟩
    · exact List.forall_mem_append.2 ⟨hT, hT'⟩
    · have hsub := List.append_subset.1 hws
      exact hq hsub.2 (hp hsub.1)

theorem ite {c : Prop} [Decidable c] (hm : c → Declares ws T p m) (hn : ¬ c → Declares ws T p n) :
    Declares ws T p (if c then m else n) := by
  split
  · next hc => exact hm hc
  · next hc => exact hn hc

theorem mapM {R : γ → α → Prop} {f : γ → Converting α} {l : List γ}
    (hf : ∀ c ∈ l, Declares ws T (R c) (f c)) :
    Declares ws T (List.Forall₂ R l) (l.mapM f) := by
  induction l with
  | nil => exact pure .nil
  | cons c l ih =>
    rw [List.mapM_cons]
    exact (hf c (by simp)).bind fun a => (ih fun d hd => hf d (by simp [hd])).bind fun rest =>
      pure fun hrest ha => .cons ha hrest

theorem filterMapM {R : γ → Option α → Prop} {f : γ → Converting (Option α)}
    (hf : ∀ c, Declares ws T (R c) (f c)) (l : List γ) :
    Declares ws T (fun as => ∃ outcomes, List.Forall₂ R l outcomes ∧ as = outcomes.reduceOption)
      (l.filterMapM f) := by
  induction l with
  | nil => exact pure ⟨[], .nil, rfl⟩
  | cons c l ih =>
    rw [List.filterMapM_cons]
    refine (hf c).bind fun o => ?_
    cases o with
    | none =>
      exact ih.mono fun as ⟨outcomes, hl, has⟩ ho =>
        ⟨none :: outcomes, .cons ho hl, has.trans (List.reduceOption_cons_of_none _).symm⟩
    | some a =>
      refine ih.bind fun as => pure ?_
      rintro ⟨outcomes, hl, rfl⟩ ho
      exact ⟨some a :: outcomes, .cons ho hl, (List.reduceOption_cons_of_some _ _).symm⟩

end Declares

namespace Route

variable (r : Route) (t : Table) {ws : List Warning}

def NamesTable (table : String) (w : Warning) : Prop :=
  w.table = some table

theorem note_declares (severity : Severity) (entityType entity table message : String) :
    Declares ws (NamesTable table) (fun _ => Notes ws severity entityType entity table)
      (r.note severity entityType entity (some table) message) := by
  constructor
  intro before a after h
  unfold note warn at h
  split at h
  · cases h
  · cases h
    refine ⟨_, rfl, ?_, fun hws => ⟨message, hws List.mem_cons_self⟩⟩
    intro w hw
    rw [List.mem_singleton.1 hw]
    rfl

/-! ## Columns -/

theorem convert_of_isListed {c : Column} (hc : c.IsListed) (source : Dialect) :
    TypeName.convert c.typeName source .mysql = c.typeName := by
  rcases hc with htype | htype <;> rw [htype] <;> cases source <;> decide

theorem emulateEnum_declares (c : Column) :
    Declares ws (NamesTable t.name)
      (fun x => c.Keeps ws t.name x.1 ∧ Notes ws .lossy "column" c.name t.name)
      (r.emulateEnum t c) := by
  unfold emulateEnum
  refine .ite (fun _ => ?_) fun _ => ?_
  all_goals
    exact (r.note_declares ..).bind fun _ => .pure fun hnoted => ⟨.retyped .., hnoted⟩

theorem convertType_declares (c : Column) :
    Declares ws (NamesTable t.name) (fun x => c.Keeps ws t.name x.1 ∧
      (c.IsListed → r.target = .mysql ∧ x.1.typeName = c.typeName ∨
        Notes ws .lossy "column" c.name t.name)) (r.convertType t c) := by
  unfold convertType
  dsimp only
  split
  · exact (r.note_declares ..).bind fun _ => .pure fun hnoted =>
      ⟨⟨rfl, .inl rfl, .inl rfl, .inl, .inl rfl, .inr hnoted⟩, fun _ => .inr hnoted⟩
  · refine .ite (fun _ => ?_) fun hother => .pure ⟨?_, fun hlisted => ?_⟩
    · exact (r.emulateEnum_declares t c).mono fun x hx => ⟨hx.1, fun _ => .inr hx.2⟩
    · exact .retyped ..
    · have htarget : r.target = .mysql := by
        rcases hlisted with htype | htype <;> simpa [htype] using hother
      refine .inl ⟨htarget, ?_⟩
      rw [htarget]
      exact convert_of_isListed hlisted _

theorem fitArguments_declares (c : Column) (T : Warning → Prop) :
    Declares ws T (fun d => c.Keeps ws t.name d ∧ d.typeName = c.typeName)
      (liftM (r.fitArguments c)) := by
  refine .lift fun fitted h => ?_
  unfold fitArguments at h
  cases hdigits : takesDigits c.typeName with
  | error e =>
    rw [hdigits] at h
    cases h
  | ok digits =>
    rw [hdigits] at h
    cases h
    exact ⟨.retyped .., rfl⟩

theorem dropAttributes_declares (c : Column) :
    Declares ws (NamesTable t.name) (fun d => c.Keeps ws t.name d ∧ d.typeName = c.typeName)
      (r.dropAttributes t c) := by
  have hdropped (hunsigned : c.unsigned = false ∨ Notes ws .lossy "column" c.name t.name)
      (hupdate : given c.onUpdate = false ∨ Notes ws .dropped "column" c.name t.name) :
      c.Keeps ws t.name { c with
        unsigned := false, onUpdate := if given c.onUpdate then none else c.onUpdate
        comment := none } := by
    refine ⟨rfl, .inl rfl, hupdate.imp_left fun hnone => ?_, .inl,
      hunsigned.imp_left Eq.symm, .inl rfl⟩
    simp [hnone]
  unfold dropAttributes
  refine .ite (fun _ => .pure ⟨.refl .., rfl⟩) fun _ => .ite (fun _ => ?_) fun hunsigned => ?_
  · exact (r.note_declares ..).bind fun _ => .ite
      (fun _ => (r.note_declares ..).bind fun _ => .pure fun hupdate hunsigned =>
        ⟨hdropped (.inr hunsigned) (.inr hupdate), rfl⟩)
      fun hupdate => .pure fun hunsigned =>
        ⟨hdropped (.inr hunsigned) (.inl (Bool.eq_false_iff.2 hupdate)), rfl⟩
  · exact .ite
      (fun _ => (r.note_declares ..).bind fun _ => .pure fun hupdate =>
        ⟨hdropped (.inl (Bool.eq_false_iff.2 hunsigned)) (.inr hupdate), rfl⟩)
      fun hupdate => .pure
        ⟨hdropped (.inl (Bool.eq_false_iff.2 hunsigned)) (.inl (Bool.eq_false_iff.2 hupdate)), rfl⟩

theorem convertDefault_declares (c : Column) :
    Declares ws (NamesTable t.name) (fun d => c.Keeps ws t.name d ∧ d.typeName = c.typeName)
      (r.convertDefault t c) := by
  have hdefault (e : String) : c.Keeps ws t.name { c with default := some e } ∧
      ({ c with default := some e } : Column).typeName = c.typeName :=
    ⟨⟨rfl, .inl rfl, .inl rfl, fun _ => .inl (Option.some_ne_none e), .inl rfl, .inl rfl⟩, rfl⟩
  unfold convertDefault
  cases c.default with
  | none => exact .pure ⟨.refl .., rfl⟩
  | some text =>
    refine .ite (fun _ => ?uuid) fun _ => .ite (fun _ => .pure (hdefault _)) fun _ =>
      .ite (fun _ => ?truth) fun _ => .pure (hdefault _)
    case uuid =>
      cases Feature.uuidDefault.expression? r.target with
      | some e => exact .pure (hdefault e)
      | none =>
        exact (r.note_declares ..).bind fun _ => .pure fun hnoted =>
          ⟨⟨rfl, .inl rfl, .inl rfl, fun _ => .inr hnoted, .inl rfl, .inl rfl⟩, rfl⟩
    case truth =>
      split <;> exact .pure (hdefault _)

theorem convertAutoIncrement_declares (c : Column) :
    Declares ws (NamesTable t.name)
      (fun d => c.Keeps ws t.name d ∧ (r.target = .mysql → d.typeName = c.typeName))
      (r.convertAutoIncrement t c) := by
  unfold convertAutoIncrement
  refine .ite (fun _ => .pure ⟨.refl .., fun _ => rfl⟩) fun _ => ?_
  split
  · exact .ite (fun _ => .pure ⟨.refl .., fun _ => rfl⟩) fun _ =>
      (r.note_declares ..).bind fun _ => .pure fun hnoted =>
        ⟨⟨rfl, .inr hnoted, .inl rfl, .inl, .inl rfl, .inl rfl⟩, fun _ => rfl⟩
  · next htarget =>
    refine .pure ⟨.retyped .., fun hmysql => ?_⟩
    rw [htarget] at hmysql
    cases hmysql
  · exact .pure ⟨.refl .., fun _ => rfl⟩

theorem requireRowKey_declares (c : Column) :
    Declares ws (NamesTable t.name) (fun d => c.Keeps ws t.name d ∧ d.typeName = c.typeName)
      (r.requireRowKey t c) := by
  unfold requireRowKey
  exact .ite (fun _ => (r.note_declares ..).bind fun _ => .pure fun hnoted =>
    ⟨⟨rfl, .inr hnoted, .inl rfl, .inl, .inl rfl, .inl rfl⟩, rfl⟩) fun _ => .pure ⟨.refl .., rfl⟩

/-- A column has what it had, except for what is noted. -/
theorem convertColumn_declares (c : Column) :
    Declares ws (NamesTable t.name) (fun x => c.Accounts ws t.name x.1) (r.convertColumn t c) := by
  unfold convertColumn
  refine (r.convertType_declares t c).bind fun x => (r.fitArguments_declares t x.1 _).bind
    fun c₁ => (r.dropAttributes_declares t c₁).bind fun c₂ =>
      (r.convertDefault_declares t c₂).bind fun c₃ =>
        (r.convertAutoIncrement_declares t c₃).bind fun c₄ => .pure ?_
  intro h₄ h₃ h₂ h₁ hx
  refine ⟨hx.1.trans (h₁.1.trans (h₂.1.trans (h₃.1.trans h₄.1))), fun hlisted => ?_⟩
  refine (hx.2 hlisted).imp_left fun ⟨htarget, htype⟩ => ?_
  exact (h₄.2 htarget).trans (h₃.2.trans (h₂.2.trans (h₁.2.trans htype)))

theorem convertColumns_declares (cs : List Column) :
    Declares ws (NamesTable t.name) (fun x => List.Forall₂ (Column.Accounts ws t.name) cs x.1)
      (r.convertColumns t cs) := by
  induction cs with
  | nil => exact .pure .nil
  | cons c cs ih =>
    unfold convertColumns
    exact (r.convertColumn_declares t c).bind fun x => ih.bind fun rest =>
      .pure fun hrest hx => .cons hx hrest

/-! ## Constraints and indexes -/

theorem convertAction_declares (k : Constraint) (action : Option String) :
    Declares ws (NamesTable t.name)
      (fun new => new = action ∨ Notes ws .lossy "constraint" k.label t.name)
      (r.convertAction t k action) := by
  unfold convertAction
  exact .ite (fun _ => (r.note_declares ..).bind fun _ => .pure fun hnoted => .inr hnoted)
    fun _ => .pure (.inl rfl)

theorem convertConstraint_declares (k : Constraint) :
    Declares ws (NamesTable t.name) (k.Accounts ws t.name) (r.convertConstraint t k) := by
  unfold convertConstraint
  cases hkind : k.kind with
  | foreignKey =>
    refine .ite (fun _ => (r.convertAction_declares t k _).bind fun onDelete =>
      (r.convertAction_declares t k _).bind fun onUpdate => .pure fun hupdate hdelete => ?_)
      fun _ => .pure ⟨rfl, rfl, .inl rfl, .inl rfl⟩
    exact ⟨rfl, hkind.symm, hdelete, hupdate⟩
  | check => exact .pure ⟨rfl, hkind.symm, .inl rfl, .inl rfl⟩
  | unique => exact .pure ⟨rfl, rfl, .inl rfl, .inl rfl⟩

theorem convertMethod_declares (i : Index) :
    Declares ws (NamesTable t.name)
      (fun method => method = i.method ∨ Notes ws .dropped "index" i.name t.name)
      (r.convertMethod t i) := by
  unfold convertMethod
  cases i.method with
  | none => exact .pure (.inl rfl)
  | some m =>
    exact .ite (fun _ => .pure (.inl rfl)) fun _ =>
      (r.note_declares ..).bind fun _ => .pure fun hnoted => .inr hnoted

theorem addPrefixLength_declares (i : Index) (ic : IndexColumn) :
    Declares ws (NamesTable t.name) (fun new => new = ic ∨ Notes ws .lossy "index" i.name t.name)
      (r.addPrefixLength t i ic) := by
  unfold addPrefixLength
  cases t.column? ic.name with
  | none => exact .pure (.inl rfl)
  | some c =>
    exact .ite (fun _ => (r.note_declares ..).bind fun _ => .pure fun hnoted => .inr hnoted)
      fun _ => .pure (.inl rfl)

theorem convertIndexColumns_declares (i : Index) :
    Declares ws (NamesTable t.name)
      (fun columns => columns = i.columns ∨ Notes ws .lossy "index" i.name t.name)
      (r.convertIndexColumns t i) := by
  have hdropped : Declares ws (NamesTable t.name)
      (fun columns => columns = i.columns ∨ Notes ws .lossy "index" i.name t.name)
      (r.dropPrefixLengths t i) := by
    unfold dropPrefixLengths
    exact .ite (fun _ => (r.note_declares ..).bind fun _ => .pure fun hnoted => .inr hnoted)
      fun _ => .pure (.inl rfl)
  have hall {columns new : List IndexColumn}
      (h : List.Forall₂ (fun ic new => new = ic ∨ Notes ws .lossy "index" i.name t.name)
        columns new) : new = columns ∨ Notes ws .lossy "index" i.name t.name := by
    induction h with
    | nil => exact .inl rfl
    | cons hab _ ih =>
      rcases hab with rfl | hnoted
      · exact ih.imp_left (congrArg _)
      · exact .inr hnoted
  unfold convertIndexColumns
  refine hdropped.bind fun columns => .ite (fun _ => ?_) fun _ => .pure id
  refine Declares.mono (.mapM fun ic _ => r.addPrefixLength_declares t i ic) fun new hnew hold => ?_
  rcases hold with rfl | hnoted
  · exact hall hnew
  · exact .inr hnoted

theorem convertIndex_declares (i : Index) :
    Declares ws (NamesTable t.name) (i.AccountsFor ws t.name) (r.convertIndex t i) := by
  unfold convertIndex
  refine .ite (fun _ => .pure ⟨rfl, .inl rfl, .inl rfl⟩) fun _ => .ite
    (fun _ => (r.note_declares ..).bind fun _ => .pure fun hnoted => hnoted) fun _ => ?_
  exact (r.convertMethod_declares t i).bind fun method =>
    (r.convertIndexColumns_declares t i).bind fun columns =>
      .pure fun hcolumns hmethod => ⟨rfl, hmethod, hcolumns⟩

/-! ## Tables and schemas -/

theorem convertTable_declares :
    Declares ws (NamesTable t.name) (t.Accounts ws) (r.convertTable t) := by
  have hindex (u : Table) (hu : u.name = t.name) (i : Index) :
      Declares ws (NamesTable t.name) (i.AccountsFor ws t.name) (r.convertIndex u i) :=
    hu ▸ r.convertIndex_declares u i
  unfold convertTable
  refine Declares.bind (.mapM fun k _ => r.convertConstraint_declares t k) fun constraints =>
    ((r.convertColumns_declares t t.columns).and (r.convertColumns_resembles t t.columns)).bind
      fun x => Declares.bind (.mapM fun c _ => r.requireRowKey_declares t c) fun columns =>
        Declares.bind (.filterMapM
          (hindex { t with columns, constraints := constraints ++ x.2 } rfl) t.indexes)
            fun indexes => .pure ?_
  intro hindexes hcolumns hx hconstraints
  refine ⟨rfl, ?_, ⟨constraints, x.2, hconstraints, rfl, fun k hk => ?_⟩, hindexes⟩
  · refine forall₂_comp hx.1 hcolumns fun c d e hcd hde => ⟨hcd.toKeeps.trans hde.1, fun hc => ?_⟩
    exact (hcd.listed hc).imp_left hde.2.trans
  · rw [hx.2.2] at hk
    obtain ⟨c, -, hk⟩ := List.mem_flatMap.1 hk
    exact (r.isCheck_of_mem_checksFor t hk).1

theorem convertSchema_declares (s : Schema) :
    Declares ws (fun w => ∃ t ∈ s.tables, w.table = some t.name)
      (fun s' => List.Forall₂ (Table.Accounts ws) s.tables s'.tables) (r.convertSchema s) := by
  unfold convertSchema
  refine .ite (fun _ => .pure (List.forall₂_same.2 fun t _ => .refl ws t)) fun _ => ?_
  refine Declares.bind (.mapM fun t ht => ?_) fun tables => .pure id
  exact (r.convertTable_declares t).widen fun w hw => ⟨t, ht, hw⟩

end Route

/-- A conversion accounts for each column, constraint and index of each table: what is not as it was
is named by a warning, and each warning names a table of the schema. -/
theorem losses_noted (s : Schema) (target : Dialect) (own : Option Dialect) :
    (∀ strict s' warnings, schema s target own strict = .ok (s', warnings) →
      List.Forall₂ (Table.Accounts warnings) s.tables s'.tables ∧
        ∀ w ∈ warnings, ∃ t ∈ s.tables, w.table = some t.name) ∧
    ((∀ t ∈ s.tables, ∀ c ∈ t.columns, c.IsTyped) →
      ∃ s' warnings, schema s target own false = .ok (s', warnings)) := by
  refine ⟨fun strict s' warnings h => ?_, fun hs => schema_returns hs target own⟩
  obtain ⟨given, hgiven, hnamed, haccounts⟩ := (Route.convertSchema_declares _ s).run h
  rw [List.nil_append] at hgiven
  subst hgiven
  exact ⟨haccounts fun _ => id, hnamed⟩

end Convert

end SqlFerry
