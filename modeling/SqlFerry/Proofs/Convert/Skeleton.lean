import SqlFerry.Proofs.Convert.Expressible
import SqlFerry.Proofs.Schema.Order

/-!
# What a conversion leaves as it is

A conversion changes types and attributes and may drop indexes. Names, keys and what refers to what
stay: a converted table has the skeleton of the table it comes from and at most more checks. The
order of creation rests on the skeleton alone, so it stays as well.
-/

namespace SqlFerry

open Text

/-! ## The same skeleton -/

structure Column.Resembles (c d : Column) : Prop where
  name : d.name = c.name
  nullable : d.nullable = c.nullable

structure Index.Resembles (i j : Index) : Prop where
  name : j.name = i.name
  kind : j.kind = i.kind
  columnNames : j.columnNames = i.columnNames

/-- Whether two constraints are the same up to actions and the text of a check. -/
structure Constraint.Resembles (k l : Constraint) : Prop where
  name : l.name = k.name
  kind : l.kind = k.kind
  columns : l.columns = k.columns
  referencedTable : l.referencedTable = k.referencedTable
  referencedColumns : l.referencedColumns = k.referencedColumns

/-- Whether `u` has the skeleton of `t`, some of its indexes and these constraints more. -/
structure Table.Resembles (added : List Constraint) (t u : Table) : Prop where
  name : u.name = t.name
  columns : List.Forall₂ Column.Resembles t.columns u.columns
  key : u.primaryKey = t.primaryKey
  indexes : ∃ kept, kept.Sublist t.indexes ∧ List.Forall₂ Index.Resembles kept u.indexes
  constraints : ∃ kept, List.Forall₂ Constraint.Resembles t.constraints kept ∧
    u.constraints = kept ++ added

/-- Whether two schemas have the same tables in the same order, up to checks that were added. -/
def Schema.Resembles (s s' : Schema) : Prop :=
  List.Forall₂ (fun t u => ∃ added, (∀ k ∈ added, k.kind = .check ∧ k.columns = []) ∧
    t.Resembles added u) s.tables s'.tables

theorem Column.Resembles.trans {c d e : Column} (h : c.Resembles d) (h' : d.Resembles e) :
    c.Resembles e :=
  ⟨h'.name.trans h.name, h'.nullable.trans h.nullable⟩

theorem Index.Resembles.refl (i : Index) : i.Resembles i :=
  ⟨rfl, rfl, rfl⟩

theorem Constraint.Resembles.refl (k : Constraint) : k.Resembles k :=
  ⟨rfl, rfl, rfl, rfl, rfl⟩

theorem Table.Resembles.refl (t : Table) : t.Resembles [] t where
  name := rfl
  columns := List.forall₂_same.2 fun _ _ => ⟨rfl, rfl⟩
  key := rfl
  indexes := ⟨t.indexes, List.Sublist.refl _, List.forall₂_same.2 fun i _ => .refl i⟩
  constraints := ⟨t.constraints, List.forall₂_same.2 fun k _ => .refl k, by simp⟩

theorem map_eq_of_forall₂ {α β γ : Type} {f : α → γ} {g : β → γ} {as : List α} {bs : List β}
    (h : List.Forall₂ (fun a b => g b = f a) as bs) : bs.map g = as.map f := by
  induction h with
  | nil => rfl
  | cons hab _ ih => rw [List.map_cons, List.map_cons, hab, ih]

theorem forall₂_comp {α β γ : Type} {R : α → β → Prop} {S : β → γ → Prop} {T : α → γ → Prop}
    {as : List α} {bs : List β} {cs : List γ} (h : List.Forall₂ R as bs)
    (h' : List.Forall₂ S bs cs) (hT : ∀ a b c, R a b → S b c → T a c) : List.Forall₂ T as cs := by
  induction h generalizing cs with
  | nil =>
    cases h'
    exact .nil
  | cons hab _ ih =>
    cases h' with
    | cons hbc h' => exact .cons (hT _ _ _ hab hbc) (ih h')

/-! ## The order of creation -/

section Order

variable {added : List Constraint} {t u : Table} {s s' : Schema}

theorem Table.Resembles.dependencies (h : t.Resembles added u)
    (hadded : ∀ k ∈ added, k.kind = .check) : u.dependencies = t.dependencies := by
  obtain ⟨kept, hkept, hconstraints⟩ := h.constraints
  have hnone : added.filter (·.kind == .foreignKey) = [] := by
    refine List.filter_eq_nil_iff.2 fun k hk => ?_
    rw [hadded k hk]
    decide
  have hkeys : List.Forall₂ Constraint.Resembles t.foreignKeys u.foreignKeys := by
    unfold foreignKeys
    rw [hconstraints, List.filter_append, hnone, List.append_nil]
    exact List.rel_filter (fun k l hkl => by simp only [hkl.kind]) hkept
  have hreferred : u.foreignKeys.map (·.referencedTable) = t.foreignKeys.map (·.referencedTable) :=
    map_eq_of_forall₂ (hkeys.imp fun _ _ hkl => hkl.referencedTable)
  -- the fold looks at nothing else of a foreign key
  have hfold (t : Table) : t.dependencies = (t.foreignKeys.map (·.referencedTable)).foldl
      (fun acc referred => referred.elim acc fun r =>
        if r.isEmpty || r == t.name then acc else insertName r acc) [] := by
    rw [List.foldl_map, Table.dependencies]
    congr 1
    funext acc k
    cases k.referencedTable <;> rfl
  rw [hfold, hfold, hreferred, h.name]

/-- Tables with the same names and dependencies are created in the same order. -/
theorem Schema.createOrder_names
    (h : List.Forall₂ (fun t u => u.name = t.name ∧ u.dependencies = t.dependencies)
      s.tables s'.tables) : s'.createOrder.map (·.name) = s.createOrder.map (·.name) := by
  let view (t : Table) : String × List String := (t.name, t.dependencies)
  have htables : s'.tables.map view = s.tables.map view :=
    map_eq_of_forall₂ (h.imp fun _ _ hab => Prod.ext hab.1 hab.2)
  have hnamed (name : String) : (s'.named? name).map view = (s.named? name).map view := by
    have hfind (s : Schema) : (s.tables.map view).find? (·.1 == name) =
        (s.named? name).map view := List.find?_map
    rw [← hfind, ← hfind, htables]
  have hname (name : String) :
      (s'.named? name).map (·.name) = (s.named? name).map (·.name) := by
    have h := congrArg (Option.map Prod.fst) (hnamed name)
    rw [Option.map_map, Option.map_map] at h
    exact h
  have hknown (name : String) : (s'.named? name).isSome = (s.named? name).isSome := by
    simpa using congrArg Option.isSome (hname name)
  have hdependencies (name : String) : (s'.named? name).map Table.dependencies =
      (s.named? name).map Table.dependencies := by
    have h := congrArg (Option.map Prod.snd) (hnamed name)
    rw [Option.map_map, Option.map_map] at h
    exact h
  have hneeds : s'.needs = s.needs := by
    funext name
    unfold needs
    simp only [hdependencies, hknown]
  have hvisit (n : Nat) : s'.visit n = s.visit n := by
    induction n with
    | zero => rfl
    | succ n ih =>
      funext v name
      rw [visit_succ, visit_succ, hneeds, ih]
  have hnames : s'.names = s.names := map_eq_of_forall₂ (h.imp fun _ _ hab => hab.1)
  have hlength : s'.tables.length = s.tables.length := h.length_eq.symm
  have hordered : s'.orderedNames = s.orderedNames := by
    unfold orderedNames
    rw [hvisit, hnames, hlength]
  rw [createOrder_eq, createOrder_eq, List.map_filterMap, List.map_filterMap, hordered]
  simp only [hname]

theorem Schema.Resembles.createOrder (h : s.Resembles s') :
    s'.createOrder.map (·.name) = s.createOrder.map (·.name) :=
  createOrder_names (h.imp fun _ _ ⟨_, hadded, htable⟩ =>
    ⟨htable.name, htable.dependencies fun k hk => (hadded k hk).1⟩)

end Order

namespace Convert

/-- What is kept of a list comes from a part of the list. -/
theorem Gives.sublist {α γ : Type} {R : γ → α → Prop} {f : γ → Converting (Option α)}
    (hf : ∀ c, Gives (∀ a ∈ ·, R c a) (f c)) (l : List γ) :
    Gives (fun as => ∃ kept, kept.Sublist l ∧ List.Forall₂ R kept as) (l.filterMapM f) := by
  induction l with
  | nil => exact .pure ⟨[], List.Sublist.refl _, .nil⟩
  | cons c l ih =>
    rw [List.filterMapM_cons]
    refine (hf c).bind fun o ho => ?_
    cases o with
    | none => exact ih.mono fun as ⟨kept, hkept, has⟩ => ⟨kept, hkept.cons c, has⟩
    | some a =>
      exact ih.bind fun as ⟨kept, hkept, has⟩ =>
        .pure ⟨c :: kept, hkept.cons_cons c, .cons (ho a rfl) has⟩

namespace Route

variable (r : Route) (t : Table)

/-! ## Columns -/

def valuesCheck (c : Column) : Constraint where
  name := some (t.name ++ "_" ++ c.name ++ "_check")
  kind := .check
  expression := some (r.target.quote c.name ++ " IN (" ++
    ", ".intercalate (c.enumValues.map r.target.textLiteral) ++ ")")

/-- The checks that a table gets for a column: enumerations are checked where there are none, but
not if they are empty or in an array, which is stored as something else. -/
def checksFor (c : Column) : List Constraint :=
  if c.typeName = "enum" ∧ c.enumValues ≠ [] ∧ r.target ≠ .mysql ∧
      (c.isArray = true → r.target = .postgresql) then [r.valuesCheck t c] else []

theorem isCheck_of_mem_checksFor {c : Column} {k : Constraint} (hk : k ∈ r.checksFor t c) :
    k.kind = .check ∧ k.columns = [] := by
  unfold checksFor at hk
  split at hk
  · rw [List.mem_singleton.1 hk]
    exact ⟨rfl, rfl⟩
  · cases hk

theorem emulateEnum_resembles {c : Column} (htype : c.typeName = "enum" ∨ c.typeName = "set")
    (hmysql : r.target ≠ .mysql) (harray : c.isArray = true → r.target = .postgresql) :
    Gives (fun x => c.Resembles x.1 ∧ x.2 = r.checksFor t c) (r.emulateEnum t c) := by
  unfold emulateEnum checksFor
  refine .ite (fun hset => .seq fun _ => .pure ⟨⟨rfl, rfl⟩, ?_⟩) fun henum =>
    .seq fun _ => .pure ⟨⟨rfl, rfl⟩, ?_⟩
  · rw [if_neg]
    rintro ⟨henum, hvalues, -⟩
    simp [henum, hvalues] at hset
  · simp only [Bool.or_eq_true, beq_iff_eq, List.isEmpty_iff, not_or] at henum
    rw [if_pos ⟨htype.resolve_right henum.1, henum.2, hmysql, harray⟩]
    rfl

theorem convertType_resembles (c : Column) :
    Gives (fun x => c.Resembles x.1 ∧ x.2 = r.checksFor t c) (r.convertType t c) := by
  unfold convertType
  dsimp only
  split
  · next type harray htype =>
    refine .seq fun _ => .pure ⟨⟨rfl, rfl⟩, ?_⟩
    unfold checksFor
    rw [if_neg]
    rintro ⟨-, -, -, htarget⟩
    rw [forArray_eq_none_iff.2 (htarget harray)] at htype
    cases htype
  · next hplain =>
    have harray : c.isArray = true → r.target = .postgresql := fun hc =>
      forArray_eq_none_iff.1 (Option.eq_none_iff_forall_ne_some.2 fun type => hplain type hc)
    refine .ite (fun hlisted => ?_) fun hother => .pure ⟨⟨rfl, rfl⟩, ?_⟩
    · simp only [Bool.and_eq_true, Bool.or_eq_true, beq_iff_eq, bne_iff_ne] at hlisted
      exact r.emulateEnum_resembles t hlisted.1 hlisted.2 harray
    · unfold checksFor
      rw [if_neg]
      rintro ⟨henum, -, htarget, -⟩
      simp [henum, htarget] at hother

theorem fitArguments_resembles (c : Column) : Gives c.Resembles (liftM (r.fitArguments c)) := by
  refine .lift fun fitted h => ?_
  unfold fitArguments at h
  cases hdigits : takesDigits c.typeName with
  | error e =>
    rw [hdigits] at h
    cases h
  | ok digits =>
    rw [hdigits] at h
    cases h
    exact ⟨rfl, rfl⟩

theorem dropAttributes_resembles (c : Column) : Gives c.Resembles (r.dropAttributes t c) := by
  unfold dropAttributes
  refine .ite (fun _ => .pure ⟨rfl, rfl⟩) fun _ => .ite (fun _ => .seq fun _ => ?_) fun _ => ?_
  all_goals exact .ite (fun _ => .seq fun _ => .pure ⟨rfl, rfl⟩) fun _ => .pure ⟨rfl, rfl⟩

theorem convertDefault_resembles (c : Column) : Gives c.Resembles (r.convertDefault t c) := by
  unfold convertDefault
  cases c.default with
  | none => exact .pure ⟨rfl, rfl⟩
  | some text =>
    refine .ite (fun _ => ?uuid) fun _ => .ite (fun _ => .pure ⟨rfl, rfl⟩) fun _ =>
      .ite (fun _ => ?truth) fun _ => .pure ⟨rfl, rfl⟩
    case uuid =>
      cases Feature.uuidDefault.expression? r.target with
      | some e => exact .pure ⟨rfl, rfl⟩
      | none => exact .seq fun _ => .pure ⟨rfl, rfl⟩
    case truth =>
      split <;> exact .pure ⟨rfl, rfl⟩

theorem convertAutoIncrement_resembles (c : Column) :
    Gives c.Resembles (r.convertAutoIncrement t c) := by
  unfold convertAutoIncrement
  refine .ite (fun _ => .pure ⟨rfl, rfl⟩) fun _ => ?_
  split
  · exact .ite (fun _ => .pure ⟨rfl, rfl⟩) fun _ => .seq fun _ => .pure ⟨rfl, rfl⟩
  · exact .pure ⟨rfl, rfl⟩
  · exact .pure ⟨rfl, rfl⟩

theorem convertColumn_resembles (c : Column) :
    Gives (fun x => c.Resembles x.1 ∧ x.2 = r.checksFor t c) (r.convertColumn t c) := by
  unfold convertColumn
  refine (r.convertType_resembles t c).bind fun x hx =>
    (r.fitArguments_resembles x.1).bind fun c₁ h₁ =>
      (r.dropAttributes_resembles t c₁).bind fun c₂ h₂ =>
        (r.convertDefault_resembles t c₂).bind fun c₃ h₃ =>
          (r.convertAutoIncrement_resembles t c₃).bind fun c₄ h₄ => .pure ⟨?_, hx.2⟩
  exact (((hx.1.trans h₁).trans h₂).trans h₃).trans h₄

theorem convertColumns_resembles (cs : List Column) :
    Gives (fun x => List.Forall₂ Column.Resembles cs x.1 ∧ x.2 = cs.flatMap (r.checksFor t))
      (r.convertColumns t cs) := by
  induction cs with
  | nil => exact .pure ⟨.nil, rfl⟩
  | cons c cs ih =>
    unfold convertColumns
    refine (r.convertColumn_resembles t c).bind fun x hx => ih.bind fun rest hrest =>
      .pure ⟨.cons hx.1 hrest.1, ?_⟩
    rw [hx.2, hrest.2, List.flatMap_cons]

theorem requireRowKey_resembles (c : Column) : Gives c.Resembles (r.requireRowKey t c) := by
  unfold requireRowKey
  exact .ite (fun _ => .seq fun _ => .pure ⟨rfl, rfl⟩) fun _ => .pure ⟨rfl, rfl⟩

/-! ## Constraints and indexes -/

theorem convertConstraint_resembles (k : Constraint) :
    Gives k.Resembles (r.convertConstraint t k) := by
  unfold convertConstraint
  cases hkind : k.kind with
  | foreignKey =>
    refine .ite (fun _ => .seq fun _ => .seq fun _ => .pure ?_) fun _ => .pure (.refl k)
    exact ⟨rfl, hkind.symm, rfl, rfl, rfl⟩
  | check => exact .pure ⟨rfl, hkind.symm, rfl, rfl, rfl⟩
  | unique => exact .pure (.refl k)

theorem addPrefixLength_name (i : Index) (c : IndexColumn) :
    Gives (·.name = c.name) (r.addPrefixLength t i c) := by
  unfold addPrefixLength
  cases t.column? c.name with
  | none => exact .pure rfl
  | some _ => exact .ite (fun _ => .seq fun _ => .pure rfl) fun _ => .pure rfl

theorem convertIndexColumns_names (i : Index) :
    Gives (fun cs => cs.map (·.name) = i.columnNames) (r.convertIndexColumns t i) := by
  have hdropped : Gives (fun cs => cs.map (·.name) = i.columnNames) (r.dropPrefixLengths t i) := by
    unfold dropPrefixLengths
    refine .ite (fun _ => .seq fun _ => .pure ?_) fun _ => .pure rfl
    rw [List.map_map]
    rfl
  unfold convertIndexColumns
  refine hdropped.bind fun cs hcs => .ite (fun _ => ?_) fun _ => .pure hcs
  exact ⟨fun h => (map_eq_of_forall₂
    ((Gives.forall₂ (r.addPrefixLength_name t i) cs).run h)).trans hcs⟩

theorem convertIndex_resembles (i : Index) :
    Gives (∀ j ∈ ·, i.Resembles j) (r.convertIndex t i) := by
  unfold convertIndex
  refine .ite (fun _ => .pure ?_) fun _ => .ite (fun _ => .seq fun _ => .pure (by simp)) fun _ =>
    .seq fun _ => (r.convertIndexColumns_names t i).bind fun cs hcs => .pure ?_
  · rintro _ ⟨⟩
    exact .refl i
  · rintro _ ⟨⟩
    exact ⟨rfl, rfl, hcs⟩

/-! ## Tables and schemas -/

theorem convertTable_resembles :
    Gives (t.Resembles (t.columns.flatMap (r.checksFor t))) (r.convertTable t) := by
  unfold convertTable
  refine (Gives.forall₂ (r.convertConstraint_resembles t) t.constraints).bind
    fun constraints hconstraints => (r.convertColumns_resembles t t.columns).bind fun x hx =>
      (Gives.forall₂ (r.requireRowKey_resembles t) x.1).bind fun columns hcolumns => ?_
  refine (Gives.sublist (r.convertIndex_resembles _) t.indexes).bind fun indexes hindexes =>
    .pure ⟨rfl, ?_, rfl, hindexes, constraints, hconstraints, ?_⟩
  · exact forall₂_comp hx.1 hcolumns fun _ _ _ => .trans
  · exact congrArg (constraints ++ ·) hx.2

/-- A conversion between two dialects leaves the skeletons and adds checks for enumerations. -/
theorem convertTables_resemble (s : Schema) (hne : r.source ≠ r.target) :
    Gives (fun s' => List.Forall₂ (fun t u => t.Resembles (t.columns.flatMap (r.checksFor t)) u)
      s.tables s'.tables) (r.convertSchema s) := by
  unfold convertSchema
  refine .ite (fun hsame => absurd (eq_of_beq hsame) hne) fun _ => ?_
  exact (Gives.forall₂ r.convertTable_resembles s.tables).bind fun _ htables => .pure htables

theorem convertSchema_resembles (s : Schema) : Gives s.Resembles (r.convertSchema s) := by
  by_cases hne : r.source = r.target
  · unfold convertSchema
    rw [if_pos (beq_iff_eq.2 hne)]
    exact .pure (List.forall₂_same.2 fun t _ => ⟨[], by simp, .refl t⟩)
  · refine (r.convertTables_resemble s hne).mono fun s' h => h.imp fun t u htable =>
      ⟨_, fun k hk => ?_, htable⟩
    obtain ⟨c, -, hk⟩ := List.mem_flatMap.1 hk
    exact r.isCheck_of_mem_checksFor t hk

end Route

/-! ## Conversions that return -/

structure Returns {α : Type} (m : Converting α) : Prop where
  run : ∀ before, ∃ a after, m.run before = .ok (a, after)

namespace Returns

variable {α β γ : Type} {p : α → Prop} {m n : Converting α} {f : α → Converting β}

theorem pure (a : α) : Returns (Pure.pure a) :=
  ⟨fun before => ⟨a, before, rfl⟩⟩

theorem bind (hm : Returns m) (hp : Gives p m) (hf : ∀ a, p a → Returns (f a)) :
    Returns (m >>= f) := by
  constructor
  intro before
  obtain ⟨a, between, hrun⟩ := hm.run before
  obtain ⟨b, after, hnext⟩ := (hf a (hp.run hrun)).run between
  refine ⟨b, after, ?_⟩
  rw [StateT.run_bind, hrun]
  exact hnext

theorem seq (hm : Returns m) (hf : ∀ a, Returns (f a)) : Returns (m >>= f) :=
  hm.bind (p := fun _ => True) ⟨fun _ => trivial⟩ fun a _ => hf a

theorem ite {c : Prop} [Decidable c] (hm : c → Returns m) (hn : ¬ c → Returns n) :
    Returns (if c then m else n) := by
  split
  · next hc => exact hm hc
  · next hc => exact hn hc

theorem mapM {f : γ → Converting α} {l : List γ} (hf : ∀ c ∈ l, Returns (f c)) :
    Returns (l.mapM f) := by
  induction l with
  | nil => exact pure []
  | cons c l ih =>
    rw [List.mapM_cons]
    exact (hf c (by simp)).seq fun _ => (ih fun d hd => hf d (by simp [hd])).seq fun _ => pure _

theorem filterMapM {f : γ → Converting (Option α)} {l : List γ} (hf : ∀ c, Returns (f c)) :
    Returns (l.filterMapM f) := by
  induction l with
  | nil => exact pure []
  | cons c l ih =>
    rw [List.filterMapM_cons]
    refine (hf c).seq fun o => ?_
    cases o with
    | none => exact ih
    | some a => exact ih.seq fun _ => pure _

end Returns

end Convert

def Column.IsTyped (c : Column) : Prop :=
  words (TypeName.normal c.typeName).toList ≠ []

theorem words_convert {type : String} {source target : Dialect}
    (h : words (TypeName.normal type).toList ≠ []) :
    words (TypeName.convert type source target).toList ≠ [] := by
  have hrenamed : ∀ x ∈ TypeName.renamed source target, words x.2.toList ≠ [] := by
    cases source <;> cases target <;> decide
  have hconvert : TypeName.convert type source target =
      ((TypeName.renamed source target).lookup (TypeName.normal type)).getD
        (TypeName.normal type) := rfl
  rw [hconvert]
  generalize TypeName.normal type = normal at h ⊢
  cases hlookup : (TypeName.renamed source target).lookup normal with
  | none => exact h
  | some new =>
    obtain ⟨before, after, hsplit, -⟩ := List.lookup_eq_some_iff.1 hlookup
    exact hrenamed (normal, new) (by simp [hsplit])

namespace Convert

namespace Route

variable {r : Route} (hlenient : r.strict = false) (t : Table)

include hlenient

theorem note_returns (severity : Severity) (entityType entity : String) (table : Option String)
    (message : String) : Returns (r.note severity entityType entity table message) := by
  unfold note warn
  rw [hlenient]
  exact ⟨fun before => ⟨_, _, rfl⟩⟩

omit hlenient in
theorem convertType_typed {c : Column} (hc : c.IsTyped) :
    Gives (fun x => words x.1.typeName.toList ≠ []) (r.convertType t c) := by
  have harray : ∀ type ∈ TypeName.forArray? r.target, words type.toList ≠ [] := by
    cases r.target <;> decide
  have htext : words "text".toList ≠ [] := by decide
  unfold convertType emulateEnum
  dsimp only
  split
  · next type _ htype => exact .seq fun _ => .pure (harray type htype)
  · exact .ite (fun _ => .ite (fun _ => .seq fun _ => .pure htext) fun _ =>
      .seq fun _ => .pure htext) fun _ => .pure (words_convert hc)

theorem convertType_returns (c : Column) : Returns (r.convertType t c) := by
  unfold convertType emulateEnum
  dsimp only
  split
  · exact (note_returns hlenient ..).seq fun _ => .pure _
  · exact .ite (fun _ => .ite (fun _ => (note_returns hlenient ..).seq fun _ => .pure _)
      fun _ => (note_returns hlenient ..).seq fun _ => .pure _) fun _ => .pure _

omit hlenient in
theorem fitArguments_returns {c : Column} (hc : words c.typeName.toList ≠ []) :
    Returns (liftM (r.fitArguments c)) := by
  have hdigits : ∃ b, takesDigits c.typeName = .ok b := by
    unfold takesDigits
    split
    · exact ⟨true, rfl⟩
    · split
      · next hblank => exact absurd hblank hc
      · exact ⟨_, rfl⟩
  obtain ⟨b, hdigits⟩ := hdigits
  constructor
  intro before
  unfold fitArguments
  rw [hdigits]
  exact ⟨_, before, rfl⟩

theorem dropAttributes_returns (c : Column) : Returns (r.dropAttributes t c) := by
  unfold dropAttributes
  refine .ite (fun _ => .pure _) fun _ =>
    .ite (fun _ => (note_returns hlenient ..).seq fun _ => ?_) fun _ => ?_
  all_goals exact .ite (fun _ => (note_returns hlenient ..).seq fun _ => .pure _) fun _ => .pure _

theorem convertDefault_returns (c : Column) : Returns (r.convertDefault t c) := by
  unfold convertDefault
  cases c.default with
  | none => exact .pure _
  | some text =>
    refine .ite (fun _ => ?uuid) fun _ => .ite (fun _ => .pure _) fun _ =>
      .ite (fun _ => ?truth) fun _ => .pure _
    case uuid =>
      cases Feature.uuidDefault.expression? r.target with
      | some e => exact .pure _
      | none => exact (note_returns hlenient ..).seq fun _ => .pure _
    case truth =>
      split <;> exact .pure _

theorem convertAutoIncrement_returns (c : Column) : Returns (r.convertAutoIncrement t c) := by
  unfold convertAutoIncrement
  refine .ite (fun _ => .pure _) fun _ => ?_
  split
  · exact .ite (fun _ => .pure _) fun _ => (note_returns hlenient ..).seq fun _ => .pure _
  · exact .pure _
  · exact .pure _

theorem convertColumn_returns {c : Column} (hc : c.IsTyped) : Returns (r.convertColumn t c) := by
  unfold convertColumn
  exact (convertType_returns hlenient t c).bind (convertType_typed t hc) fun x hx =>
    (fitArguments_returns hx).seq fun c₁ => (dropAttributes_returns hlenient t c₁).seq fun c₂ =>
      (convertDefault_returns hlenient t c₂).seq fun c₃ =>
        (convertAutoIncrement_returns hlenient t c₃).seq fun c₄ => .pure _

theorem convertColumns_returns {cs : List Column} (hcs : ∀ c ∈ cs, c.IsTyped) :
    Returns (r.convertColumns t cs) := by
  induction cs with
  | nil => exact .pure _
  | cons c cs ih =>
    unfold convertColumns
    exact (convertColumn_returns hlenient t (hcs c (by simp))).seq fun _ =>
      (ih fun d hd => hcs d (by simp [hd])).seq fun _ => .pure _

theorem convertConstraint_returns (k : Constraint) : Returns (r.convertConstraint t k) := by
  have haction (action : Option String) : Returns (r.convertAction t k action) := by
    unfold convertAction
    exact .ite (fun _ => (note_returns hlenient ..).seq fun _ => .pure _) fun _ => .pure _
  unfold convertConstraint
  cases k.kind with
  | foreignKey =>
    exact .ite (fun _ => (haction _).seq fun _ => (haction _).seq fun _ => .pure _) fun _ => .pure _
  | check | unique => exact .pure _

theorem convertIndex_returns (i : Index) : Returns (r.convertIndex t i) := by
  have hmethod : Returns (r.convertMethod t i) := by
    unfold convertMethod
    cases i.method with
    | none => exact .pure _
    | some m =>
      exact .ite (fun _ => .pure _) fun _ => (note_returns hlenient ..).seq fun _ => .pure _
  have hprefix (ic : IndexColumn) : Returns (r.addPrefixLength t i ic) := by
    unfold addPrefixLength
    cases t.column? ic.name with
    | none => exact .pure _
    | some c =>
      exact .ite (fun _ => (note_returns hlenient ..).seq fun _ => .pure _) fun _ => .pure _
  have hdropped : Returns (r.dropPrefixLengths t i) := by
    unfold dropPrefixLengths
    exact .ite (fun _ => (note_returns hlenient ..).seq fun _ => .pure _) fun _ => .pure _
  have hcolumns : Returns (r.convertIndexColumns t i) := by
    unfold convertIndexColumns
    exact hdropped.seq fun _ => .ite (fun _ => .mapM fun _ _ => hprefix _) fun _ => .pure _
  unfold convertIndex
  exact .ite (fun _ => .pure _) fun _ => .ite
    (fun _ => (note_returns hlenient ..).seq fun _ => .pure _) fun _ =>
      hmethod.seq fun _ => hcolumns.seq fun _ => .pure _

theorem convertTable_returns (ht : ∀ c ∈ t.columns, c.IsTyped) : Returns (r.convertTable t) := by
  have hkey (c : Column) : Returns (r.requireRowKey t c) := by
    unfold requireRowKey
    exact .ite (fun _ => (note_returns hlenient ..).seq fun _ => .pure _) fun _ => .pure _
  unfold convertTable
  exact (Returns.mapM fun k _ => convertConstraint_returns hlenient t k).seq fun _ =>
    (convertColumns_returns hlenient t ht).seq fun _ => (Returns.mapM fun c _ => hkey c).seq
      fun _ => (Returns.filterMapM fun i => convertIndex_returns hlenient _ i).seq fun _ => .pure _

theorem convertSchema_returns {s : Schema} (hs : ∀ t ∈ s.tables, ∀ c ∈ t.columns, c.IsTyped) :
    Returns (r.convertSchema s) := by
  unfold convertSchema
  exact .ite (fun _ => .pure _) fun _ =>
    (Returns.mapM fun t ht => convertTable_returns hlenient t (hs t ht)).seq fun _ => .pure _

end Route

/-- A lenient conversion fails at nothing but a blank type. -/
theorem schema_returns {s : Schema} (hs : ∀ t ∈ s.tables, ∀ c ∈ t.columns, c.IsTyped)
    (target : Dialect) (own : Option Dialect) :
    ∃ s' warnings, schema s target own false = .ok (s', warnings) :=
  (Route.convertSchema_returns (r := ⟨own.getD (s.dialect.getD target), target, false⟩) rfl hs).run
    []

/-- A converted schema has the same tables in the same order, with the same columns, nulls, keys and
references; its indexes are some of those before, and the only constraints more are checks. So its
tables are created in the same order. Without warnings that stop it a conversion returns unless a
type is blank. -/
theorem skeleton_preserved (s : Schema) (target : Dialect) (own : Option Dialect) :
    (∀ strict s' warnings, schema s target own strict = .ok (s', warnings) →
      s.Resembles s' ∧ s'.createOrder.map (·.name) = s.createOrder.map (·.name)) ∧
    ((∀ t ∈ s.tables, ∀ c ∈ t.columns, c.IsTyped) →
      ∃ s' warnings, schema s target own false = .ok (s', warnings)) := by
  refine ⟨fun strict s' warnings h => ?_, fun hs => schema_returns hs target own⟩
  have hresembles : s.Resembles s' := (Route.convertSchema_resembles _ s).run h
  exact ⟨hresembles, hresembles.createOrder⟩

end Convert

/-! ## Names -/

/-- Whether a table has the names of another: the columns and the key have the same, and the columns
of an index or a constraint are those of one of the other's, if they are any. -/
structure Table.Echoes (t u : Table) : Prop where
  name : u.name = t.name
  columns : u.columnNames = t.columnNames
  key : u.primaryKey = t.primaryKey
  indexes : ∀ i ∈ u.indexes, ∃ j ∈ t.indexes, i.columnNames = j.columnNames
  constraints : ∀ k ∈ u.constraints, k.columns = [] ∨ ∃ l ∈ t.constraints, k.columns = l.columns

theorem exists_of_mem_forall₂ {α β : Type} {R : α → β → Prop} {as : List α} {bs : List β} {b : β}
    (h : List.Forall₂ R as bs) (hb : b ∈ bs) : ∃ a ∈ as, R a b := by
  induction h with
  | nil => cases hb
  | @cons a _ _ _ hab _ ih =>
    rcases List.mem_cons.1 hb with rfl | hb
    · exact ⟨a, List.mem_cons_self, hab⟩
    · obtain ⟨a', ha', hab'⟩ := ih hb
      exact ⟨a', List.mem_cons_of_mem _ ha', hab'⟩

/-- Names are part of the skeleton. -/
theorem Table.Resembles.echoes {added : List Constraint} {t u : Table} (h : t.Resembles added u)
    (hadded : ∀ k ∈ added, k.columns = []) : t.Echoes u where
  name := h.name
  columns := map_eq_of_forall₂ (h.columns.imp fun _ _ hcolumn => hcolumn.name)
  key := h.key
  indexes := by
    intro i hi
    obtain ⟨kept, hkept, hindexes⟩ := h.indexes
    obtain ⟨j, hj, hindex⟩ := exists_of_mem_forall₂ hindexes hi
    exact ⟨j, hkept.subset hj, hindex.columnNames⟩
  constraints := by
    intro k hk
    obtain ⟨kept, hkept, hconstraints⟩ := h.constraints
    rw [hconstraints] at hk
    rcases List.mem_append.1 hk with hk | hk
    · obtain ⟨l, hl, hconstraint⟩ := exists_of_mem_forall₂ hkept hk
      exact .inr ⟨l, hl, hconstraint.columns⟩
    · exact .inl (hadded k hk)

/-- A converted schema has the same tables in the same order, as far as names go. -/
theorem Convert.Route.convertSchema_echoes (r : Convert.Route) (s : Schema) :
    Convert.Gives (fun u => List.Forall₂ Table.Echoes s.tables u.tables) (r.convertSchema s) :=
  (r.convertSchema_resembles s).mono fun _ h =>
    h.imp fun _ _ ⟨_, hadded, htable⟩ => htable.echoes fun k hk => (hadded k hk).2

end SqlFerry
