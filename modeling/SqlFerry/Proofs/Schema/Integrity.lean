import SqlFerry.Ddl
import SqlFerry.Proofs.Convert.Skeleton
import SqlFerry.Proofs.Ddl.Building
import SqlFerry.Proofs.Schema.Order

/-!
# Schemas stay intact

A table is intact if no two of its columns have one name in either case and if every column that its
key, its indexes and its constraints name is one of its own. Whatever is done to a schema that was
empty, by its own operations, by reading definitions or by a conversion, and whether it fails on the
way or not, its tables are intact and have different names.
-/

namespace SqlFerry

open Text

/-! ## Tables -/

namespace Table

variable {t u : Table} {names : List String} {c : Column} {k : Constraint} {i : Index}

def Owns (t : Table) (names : List String) : Prop :=
  ∀ n ∈ names, ∃ c ∈ t.columns, lower c.name = lower n

structure IsIntact (t : Table) : Prop where
  distinct : DistinctColumns t.columns
  key : t.Owns t.primaryKey
  indexes : ∀ i ∈ t.indexes, t.Owns i.columnNames
  constraints : ∀ k ∈ t.constraints, t.Owns k.columns

def folded (t : Table) : List String :=
  t.columns.map (lower ·.name)

theorem owns_iff : t.Owns names ↔ ∀ n ∈ names, lower n ∈ t.folded := by
  simp only [Owns, folded, List.mem_map]

theorem Owns.mono (h : t.Owns names) (hcolumns : t.folded ⊆ u.folded) : u.Owns names :=
  owns_iff.2 fun n hn => hcolumns (owns_iff.1 h n hn)

theorem requireColumns_eq_ok_iff {owner : String} :
    t.requireColumns owner names = .ok () ↔ t.Owns names := by
  rw [requireColumns_eq_ok]
  simp [Owns, hasColumn, sameName]

/-- An index by an expression alone names no columns. -/
theorem checkIndex_eq_ok_iff : t.checkIndex i = .ok () ↔ t.Owns i.columnNames := by
  unfold checkIndex
  split
  · next hexpression =>
    rw [Bool.and_eq_true, List.isEmpty_iff] at hexpression
    refine iff_of_true rfl ?_
    rw [Index.columnNames, hexpression.2]
    rintro n ⟨⟩
  · exact requireColumns_eq_ok_iff

/-- The intact tables are those that pass the check of a table that is put together. -/
theorem check_eq_ok_iff : t.check = .ok () ↔ t.IsIntact := by
  rw [check_eq_ok]
  constructor
  · rintro ⟨hdistinct, hkey, hindexes, hconstraints⟩
    exact ⟨hdistinct, requireColumns_eq_ok_iff.1 hkey,
      fun i hi => checkIndex_eq_ok_iff.1 (hindexes i hi),
      fun k hk => requireColumns_eq_ok_iff.1 (hconstraints k hk)⟩
  · rintro ⟨hdistinct, hkey, hindexes, hconstraints⟩
    exact ⟨hdistinct, requireColumns_eq_ok_iff.2 hkey,
      fun i hi => checkIndex_eq_ok_iff.2 (hindexes i hi),
      fun k hk => requireColumns_eq_ok_iff.2 (hconstraints k hk)⟩

theorem isIntact_empty (name : String) (definition : Option String) :
    IsIntact { name, definition } :=
  ⟨List.nodup_nil, by rintro n ⟨⟩, by rintro i ⟨⟩, by rintro k ⟨⟩⟩

/-- Other columns do no harm if their names differ and none is lost. -/
theorem IsIntact.with_columns {cs : List Column} (h : t.IsIntact) (hdistinct : DistinctColumns cs)
    (hkept : t.folded ⊆ cs.map (lower ·.name)) : IsIntact { t with columns := cs } :=
  ⟨hdistinct, h.key.mono hkept, fun i hi => (h.indexes i hi).mono hkept,
    fun k hk => (h.constraints k hk).mono hkept⟩

/-- Columns of the same names do no harm. -/
theorem IsIntact.with_same_columns {cs : List Column} (h : t.IsIntact)
    (hsame : cs.map (lower ·.name) = t.folded) : IsIntact { t with columns := cs } := by
  refine h.with_columns ?_ (by rw [hsame]; exact List.Subset.refl _)
  rw [DistinctColumns, hsame]
  exact h.distinct

theorem folded_eq_map (t : Table) : t.folded = t.columnNames.map lower := by
  rw [folded, columnNames, List.map_map]
  rfl

/-- A table with the names of an intact one is intact. -/
theorem IsIntact.of_echoes (h : t.IsIntact) (hecho : t.Echoes u) : u.IsIntact := by
  have hfolded : u.folded = t.folded := by rw [folded_eq_map, folded_eq_map, hecho.columns]
  have howns {names : List String} (hnames : t.Owns names) : u.Owns names :=
    hnames.mono (hfolded ▸ List.Subset.refl _)
  refine ⟨?_, hecho.key ▸ howns h.key, fun i hi => ?_, fun k hk => ?_⟩
  · rw [DistinctColumns, ← folded, hfolded]
    exact h.distinct
  · obtain ⟨j, hj, hnames⟩ := hecho.indexes i hi
    exact hnames ▸ howns (h.indexes j hj)
  · rcases hecho.constraints k hk with hnone | ⟨l, hl, hnames⟩
    · rw [hnone]
      rintro n ⟨⟩
    · exact hnames ▸ howns (h.constraints l hl)

def Preserves (f : Table → Except Refusal Table) : Prop :=
  ∀ t u, t.IsIntact → f t = .ok u → u.IsIntact ∧ u.name = t.name

theorem addColumn_preserves (c : Column) : Preserves (·.addColumn c) := by
  intro t u h hadd
  dsimp only [addColumn] at hadd
  split at hadd
  · cases hadd
  · next hnew =>
    cases hadd
    refine ⟨h.with_columns ?_ ?_, rfl⟩
    · rw [DistinctColumns, List.map_append, List.nodup_append]
      refine ⟨h.distinct, List.nodup_singleton _, ?_⟩
      rintro _ hmem _ hlast rfl
      obtain ⟨x, hx, hname⟩ := List.mem_map.1 hmem
      rw [List.map_singleton, List.mem_singleton] at hlast
      refine hnew (List.any_eq_true.2 ⟨x, hx, ?_⟩)
      rw [sameName, hname, hlast, beq_self_eq_true]
    · rw [List.map_append]
      exact List.subset_append_left _ _

theorem addIndex_preserves (i : Index) : Preserves (·.addIndex i) := by
  intro t u h hadd
  obtain ⟨⟨⟩, hcheck, hadd⟩ := exists_of_bind_eq_ok hadd
  cases hadd
  refine ⟨⟨h.distinct, h.key, fun j hj => ?_, h.constraints⟩, rfl⟩
  rcases List.mem_append.1 hj with hj | hj
  · exact h.indexes j hj
  · rw [List.mem_singleton.1 hj]
    exact checkIndex_eq_ok_iff.1 hcheck

theorem addConstraint_preserves (k : Constraint) : Preserves (·.addConstraint k) := by
  intro t u h hadd
  obtain ⟨⟨⟩, hcheck, hadd⟩ := exists_of_bind_eq_ok hadd
  cases hadd
  refine ⟨⟨h.distinct, h.key, h.indexes, fun l hl => ?_⟩, rfl⟩
  rcases List.mem_append.1 hl with hl | hl
  · exact h.constraints l hl
  · rw [List.mem_singleton.1 hl]
    exact requireColumns_eq_ok_iff.1 hcheck

theorem setPrimaryKey_preserves (names : List String) : Preserves (·.setPrimaryKey names) := by
  intro t u h hset
  obtain ⟨⟨⟩, hcheck, hset⟩ := exists_of_bind_eq_ok hset
  cases hset
  exact ⟨⟨h.distinct, requireColumns_eq_ok_iff.1 hcheck, h.indexes, h.constraints⟩, rfl⟩

end Table

/-! ## Building tables -/

namespace Ddl

open Pattern Sql

namespace Building

variable {α β : Type}

/-- Whatever comes of the steps, they leave an intact table of the same name behind. -/
def KeepsAt (m : Building α) (t : Table) : Prop :=
  (m.run t).2.IsIntact ∧ (m.run t).2.name = t.name

def Keeps (m : Building α) : Prop :=
  ∀ t : Table, t.IsIntact → KeepsAt m t

namespace Keeps

theorem pure (a : α) : Keeps (Pure.pure a) :=
  fun _ h => ⟨h, rfl⟩

theorem throw (e : Fault) : Keeps (MonadExcept.throw e : Building α) :=
  fun _ h => ⟨h, rfl⟩

theorem lift (x : Except Fault α) : Keeps (liftM x) := by
  intro t h
  cases x <;> exact ⟨h, rfl⟩

theorem bind {m : Building α} {f : α → Building β} (hm : Keeps m) (hf : ∀ a, Keeps (f a)) :
    Keeps (m >>= f) := by
  intro t h
  have hrun : (m >>= f).run t = match m.run t with
      | (.ok a, t) => (f a).run t
      | (.error e, t) => (.error e, t) := by
    change StateT.bind m (ExceptT.bindCont f) t = _
    rw [StateT.bind]
    change (match m.run t with | (a, s) => ExceptT.bindCont f a s) = _
    rcases m.run t with ⟨r, t⟩
    cases r <;> rfl
  obtain ⟨hintact, hname⟩ := hm t h
  rw [KeepsAt, hrun]
  rcases hr : m.run t with ⟨r, u⟩
  rw [hr] at hintact hname
  cases r with
  | error e => exact ⟨hintact, hname⟩
  | ok a =>
    obtain ⟨hintact', hname'⟩ := hf a u hintact
    exact ⟨hintact', hname'.trans hname⟩

theorem get_bind {f : Table → Building α} (hf : ∀ t : Table, t.IsIntact → KeepsAt (f t) t) :
    Keeps (MonadState.get >>= f) :=
  fun t h => hf t h

theorem forM {l : List β} {f : β → Building PUnit} (hf : ∀ b, Keeps (f b)) :
    Keeps (l.forM f) := by
  induction l with
  | nil => exact pure _
  | cons b l ih => exact (hf b).bind fun _ => ih

theorem isIntact {m : Building α} {t u : Table} {r : Except Fault α} (hm : Keeps m)
    (h : t.IsIntact) (hrun : m.run t = (r, u)) : u.IsIntact := by
  have hu := (hm t h).1
  rwa [hrun] at hu

theorem change {f : Table → Except Refusal Table} (hf : Table.Preserves f) :
    Keeps (Building.change f) := by
  refine get_bind fun t h => ?_
  cases hft : f t with
  | error why => exact throw _ t h
  | ok u => exact hf t u h hft

end Keeps

theorem addColumn_keeps (item : Chars) : Keeps (addColumn item) := by
  refine (Keeps.lift (readColumn item)).bind fun read => ?_
  cases read with
  | none => exact .pure _
  | some read =>
    obtain ⟨c, extras⟩ := read
    refine (Keeps.change (Table.addColumn_preserves c)).bind fun _ => .forM fun extra => ?_
    cases extra with
    | primaryKey => exact .change (Table.setPrimaryKey_preserves _)
    | constraint k => exact .change (Table.addConstraint_preserves k)

theorem addIndexItem_keeps (origin : Dialect) (name : Option String) (body : Chars) :
    Keeps (addIndexItem origin name body) := by
  unfold addIndexItem
  dsimp only
  generalize indexHead.match? _ = head
  cases head with
  | none => exact .pure _
  | some m =>
    refine (Keeps.lift _).bind fun read => ?_
    -- Whatever keyword came before, it is a constraint or an index.
    split
    all_goals
      split
      · exact .change (Table.addConstraint_preserves _)
      · exact .get_bind fun t h => Keeps.change (Table.addIndex_preserves _) t h

theorem addNamed_keeps (origin : Dialect) (name : Option String) (body : Chars) :
    Keeps (addNamed origin name body) := by
  unfold addNamed
  dsimp only
  split
  · cases find? ['('] body with
    | none => exact .throw _
    | some i => exact (Keeps.lift _).bind fun _ => .change (Table.setPrimaryKey_preserves _)
  · split
    · exact (Keeps.lift _).bind fun _ => .change (Table.addConstraint_preserves _)
    · split
      · exact (Keeps.lift _).bind fun _ => .change (Table.addConstraint_preserves _)
      · split
        · exact .pure _
        · exact addIndexItem_keeps origin name body

theorem addItem_keeps (origin : Dialect) (item : Chars) : Keeps (addItem origin item) := by
  unfold addItem
  dsimp only
  split <;> exact addNamed_keeps origin _ _

/-- The column that is replaced has the same name. -/
theorem replaceColumn_keeps (c : Column) : Keeps (replaceColumn c) := by
  refine .get_bind fun t h => ?_
  cases hfind : t.columns.findIdx? (sameName ·.name c.name) with
  | none => exact Keeps.change (Table.addColumn_preserves c) t h
  | some i =>
    refine ⟨h.with_same_columns ?_, rfl⟩
    obtain ⟨hi, hsame, -⟩ := List.findIdx?_eq_some_iff_getElem.1 hfind
    have hfolded : i < t.folded.length := by simpa [Table.folded] using hi
    have hname : t.folded[i] = lower c.name := by
      simpa [Table.folded, sameName] using hsame
    rw [List.map_set, ← hname]
    exact List.set_getElem_self hfolded

theorem normalizeSerial_name (c : Column) : (normalizeSerial c).name = c.name := by
  unfold normalizeSerial
  dsimp only
  split <;> split <;> first | rfl | split <;> rfl

theorem map_modify_of_eq {f : α → β} {update : α → α} (h : ∀ a, f (update a) = f a) (l : List α)
    (i : Nat) : (l.modify i update).map f = l.map f := by
  refine List.ext_getElem? fun j => ?_
  rw [List.getElem?_map, List.getElem?_map, List.getElem?_modify]
  cases l[j]? with
  | none => rfl
  | some a =>
    by_cases hij : i = j
    · simp [hij, h]
    · simp [hij]

theorem alter_keeps (origin : Dialect) (clause : Chars) : Keeps (alter origin clause) := by
  unfold alter
  dsimp only
  split
  · exact addColumn_keeps _
  · split
    · split
      · exact addItem_keeps origin _
      · exact addColumn_keeps _
    · split
      · refine (Keeps.lift _).bind fun read => ?_
        cases read with
        | none => exact .pure _
        | some read => exact replaceColumn_keeps read.1
      · cases setDefault.match? clause with
        | none => exact .pure _
        | some m =>
          refine .get_bind fun t h => ?_
          generalize t.columns.findIdx? _ = found
          cases found with
          | none => exact ⟨h, rfl⟩
          | some i =>
            refine ⟨h.with_same_columns (map_modify_of_eq (fun c => ?_) _ i), rfl⟩
            exact congrArg lower (normalizeSerial_name _)

end Building

/-! ## Reading definitions -/

theorem readTable_isIntact {origin : Dialect} {sql : Chars} {t : Table}
    (h : readTable origin sql = .ok (some t)) : t.IsIntact := by
  unfold readTable at h
  dsimp only at h
  split at h
  · cases h
  · split at h
    · cases h
    · split at h
      · cases h
      · next u hrun =>
        cases h
        have hu : u.IsIntact :=
          ((Building.Keeps.forM Building.addColumn_keeps).bind fun _ =>
            .forM (Building.addItem_keeps origin)).isIntact (Table.isIntact_empty _ _) hrun
        exact ⟨hu.distinct, hu.key, hu.indexes, hu.constraints⟩

end Ddl

/-! ## Schemas -/

namespace Schema

variable {s : Schema} {t u : Table} {name : String}

/-- The tables are stored under different names, which are their own, and are intact. -/
structure IsIntact (s : Schema) : Prop where
  named : ∀ t ∈ s.tables, s.named? t.name = some t
  distinct : s.names.Nodup
  tables : ∀ t ∈ s.tables, t.IsIntact

def HasDistinctTables (s : Schema) : Prop :=
  (s.names.map lower).Nodup

theorem isIntact_of_nodup (hdistinct : s.names.Nodup) (htables : ∀ t ∈ s.tables, t.IsIntact) :
    s.IsIntact :=
  ⟨fun _ => named?_name_of_nodup hdistinct, hdistinct, htables⟩

theorem isIntact_empty (dialect : Option Dialect) : IsIntact { dialect } :=
  isIntact_of_nodup List.nodup_nil (by rintro t ⟨⟩)

theorem named?_eq_none : s.named? name = none ↔ name ∉ s.names := by
  rw [← isSome_named?, Bool.not_eq_true, Option.isSome_eq_false_iff, Option.isNone_iff_eq_none]

theorem table?_eq_none : s.table? name = none ↔ lower name ∉ s.names.map lower := by
  have hsame : s.tables.find? (sameName ·.name name) = none ↔ lower name ∉ s.names.map lower := by
    simp [names, sameName]
  unfold table?
  split
  · next hnamed =>
    obtain ⟨ht, rfl⟩ := name_of_named? hnamed
    refine iff_of_false (by simp) fun hnew => hnew ?_
    exact List.mem_map_of_mem (List.mem_map_of_mem ht)
  · exact hsame

theorem names_replace : (s.replace u).names = s.names := by
  unfold replace names
  rw [List.map_map]
  refine List.map_congr_left fun t _ => ?_
  by_cases hname : (t.name == u.name) = true
  · rw [Function.comp_apply, if_pos hname, eq_of_beq hname]
  · rw [Function.comp_apply, if_neg hname]

theorem IsIntact.add (h : s.IsIntact) (hnew : s.named? t.name = none) (ht : t.IsIntact) :
    IsIntact { s with tables := s.tables ++ [t] } := by
  refine isIntact_of_nodup ?_ fun u hu => ?_
  · rw [names, List.map_append, List.map_singleton, ← List.concat_eq_append]
    exact h.distinct.concat (named?_eq_none.1 hnew)
  · rcases List.mem_append.1 hu with hold | hlast
    · exact h.tables u hold
    · rw [List.mem_singleton.1 hlast]
      exact ht

theorem IsIntact.replace (h : s.IsIntact) (hu : u.IsIntact) : (s.replace u).IsIntact := by
  refine isIntact_of_nodup (names_replace.symm ▸ h.distinct) fun v hv => ?_
  obtain ⟨t, ht, rfl⟩ := List.mem_map.1 hv
  split
  · exact hu
  · exact h.tables t ht

/-- Tables of the same names, whose columns have the same names, are as good. -/
theorem IsIntact.of_echoes {u : Schema} (h : s.IsIntact)
    (hechoes : List.Forall₂ Table.Echoes s.tables u.tables) : u.IsIntact := by
  have hnames : u.names = s.names := map_eq_of_forall₂ (hechoes.imp fun _ _ hecho => hecho.name)
  refine isIntact_of_nodup (hnames.symm ▸ h.distinct) ?_
  intro v hv
  obtain ⟨t, ht, hecho⟩ := exists_of_mem_forall₂ hechoes hv
  exact (h.tables t ht).of_echoes hecho

theorem HasDistinctTables.add (h : s.HasDistinctTables) (hnew : s.table? t.name = none) :
    HasDistinctTables { s with tables := s.tables ++ [t] } := by
  rw [HasDistinctTables, names, List.map_append, List.map_append, List.map_singleton,
    List.map_singleton, ← List.concat_eq_append]
  exact h.concat (table?_eq_none.1 hnew)

theorem HasDistinctTables.replace (h : s.HasDistinctTables) : (s.replace u).HasDistinctTables := by
  rw [HasDistinctTables, names_replace]
  exact h

end Schema

/-! ## Reading statements -/

theorem Schema.addTable_eq_ok {s u : Schema} {t : Table} : s.addTable t = .ok u ↔
    s.named? t.name = none ∧ u = { s with tables := s.tables ++ [t] } := by
  unfold Schema.addTable
  cases s.named? t.name with
  | none => simp [eq_comm]
  | some _ => simp

/-- Whatever comes of a statement, it leaves the schema as it was, or adds a table of a new name, or
puts a table in the place of the one of its name. -/
theorem Ddl.apply_cases (origin : Dialect) (s : Schema) (sql : Chars) :
    (apply origin s sql).1 = s ∨
    (∃ t, t.IsIntact ∧ s.named? t.name = none ∧ s.table? t.name = none ∧
      (apply origin s sql).1 = { s with tables := s.tables ++ [t] }) ∨
    ∃ t ∈ s.tables, ∃ u, (t.IsIntact → u.IsIntact ∧ u.name = t.name) ∧
      (apply origin s sql).1 = s.replace u := by
  unfold apply
  dsimp only
  split
  · split
    · exact .inl rfl
    · exact .inl rfl
    · next t hread =>
      split
      · exact .inl rfl
      · next hnew =>
        rw [Option.isSome_iff_ne_none, not_not] at hnew
        split
        · next hadd =>
          obtain ⟨hnamed, rfl⟩ := Schema.addTable_eq_ok.1 hadd
          exact .inr (.inl ⟨t, readTable_isIntact hread, hnamed, hnew, rfl⟩)
        · exact .inl rfl
  · split
    · exact .inl rfl
    · next name i _ =>
      split
      · exact .inl rfl
      · next t ht =>
        have hkeeps := Building.Keeps.change (Table.addIndex_preserves i) t
        exact .inr (.inr ⟨t, Schema.mem_of_table? ht, _, hkeeps, rfl⟩)
    · split
      · exact .inl rfl
      · split
        · exact .inl rfl
        · next m _ _ t ht =>
          have hkeeps :=
            Building.Keeps.forM (l := Sql.items m.rest) (Building.alter_keeps origin) t
          exact .inr (.inr ⟨t, Schema.mem_of_table? ht, _, hkeeps, rfl⟩)

/-! ## Everything that is done to schemas -/

namespace Schema

inductive Edit where
  /-- A table put together from its parts is checked, then added. -/
  | addTable (t : Table)
  | addColumn (table : String) (c : Column)
  | addIndex (table : String) (i : Index)
  | addConstraint (table : String) (k : Constraint)
  | setPrimaryKey (table : String) (names : List String)
  /-- A statement takes effect. -/
  | apply (origin : Dialect) (sql : String)
  /-- The converted schema takes the place of the schema. -/
  | convert (target : Dialect) (source : Option Dialect) (strict : Bool)
  deriving DecidableEq

def change (s : Schema) (name : String) (f : Table → Except Refusal Table) :
    Schema × Except Fault Unit :=
  match s.table? name with
  | none => (s, .ok ())
  | some t =>
    match f t with
    | .error why => (s, .error (.refused why))
    | .ok u => (s.replace u, .ok ())

def edit (s : Schema) : Edit → Schema × Except Fault Unit
  | .addTable t =>
    match t.check with
    | .error why => (s, .error (.broken why))
    | .ok () =>
      match s.addTable t with
      | .error why => (s, .error (.refused why))
      | .ok s => (s, .ok ())
  | .addColumn table c => s.change table (·.addColumn c)
  | .addIndex table i => s.change table (·.addIndex i)
  | .addConstraint table k => s.change table (·.addConstraint k)
  | .setPrimaryKey table names => s.change table (·.setPrimaryKey names)
  | .apply origin sql => Ddl.apply origin s sql.toList
  | .convert target source strict =>
    match Convert.schema s target source strict with
    | .error e => (s, .error e)
    | .ok (s, _) => (s, .ok ())

/-- The schema after edits of an empty one; an edit that fails does not stop those that follow. -/
def edited (dialect : Option Dialect) (edits : List Edit) : Schema :=
  edits.foldl (fun s e => (s.edit e).1) { dialect }

def Edit.IsStatement : Edit → Prop
  | .apply _ _ => True
  | _ => False

variable {s : Schema}

theorem IsIntact.change {name : String} {f : Table → Except Refusal Table} (h : s.IsIntact)
    (hf : Table.Preserves f) : (s.change name f).1.IsIntact := by
  unfold Schema.change
  split
  · exact h
  · next t ht =>
    split
    · exact h
    · next u hu => exact h.replace (hf t u (h.tables t (mem_of_table? ht)) hu).1

theorem IsIntact.apply {origin : Dialect} {sql : Chars} (h : s.IsIntact) :
    (Ddl.apply origin s sql).1.IsIntact := by
  rcases Ddl.apply_cases origin s sql with hsame | ⟨t, ht, hnew, -, hadded⟩ |
    ⟨t, ht, u, hu, hreplaced⟩
  · rwa [hsame]
  · rw [hadded]
    exact h.add hnew ht
  · rw [hreplaced]
    exact h.replace (hu (h.tables t ht)).1

theorem HasDistinctTables.apply {origin : Dialect} {sql : Chars} (h : s.HasDistinctTables) :
    (Ddl.apply origin s sql).1.HasDistinctTables := by
  rcases Ddl.apply_cases origin s sql with hsame | ⟨t, -, -, hnew, hadded⟩ |
    ⟨-, -, u, -, hreplaced⟩
  · rwa [hsame]
  · rw [hadded]
    exact h.add hnew
  · rw [hreplaced]
    exact h.replace

theorem IsIntact.edit (h : s.IsIntact) (e : Edit) : (s.edit e).1.IsIntact := by
  cases e with
  | addTable t =>
    unfold Schema.edit
    dsimp only
    split
    · exact h
    · next hcheck =>
      split
      · exact h
      · next hadd =>
        obtain ⟨hnew, rfl⟩ := addTable_eq_ok.1 hadd
        exact h.add hnew (Table.check_eq_ok_iff.1 hcheck)
  | addColumn table c => exact h.change (Table.addColumn_preserves c)
  | addIndex table i => exact h.change (Table.addIndex_preserves i)
  | addConstraint table k => exact h.change (Table.addConstraint_preserves k)
  | setPrimaryKey table names => exact h.change (Table.setPrimaryKey_preserves names)
  | apply origin sql => exact h.apply
  | convert target source strict =>
    unfold Schema.edit
    dsimp only
    split
    · exact h
    · next u _ hconverted =>
      exact h.of_echoes ((Convert.Route.convertSchema_echoes _ s).run hconverted)

/-- After whatever was done to an empty schema, and whether it failed on the way or not, the schema
is intact; if all that was done was reading statements, its tables differ in more than case. -/
theorem edited_isIntact (dialect : Option Dialect) (edits : List Edit) :
    (edited dialect edits).IsIntact ∧
      ((∀ e ∈ edits, e.IsStatement) → (edited dialect edits).HasDistinctTables) := by
  constructor
  · exact List.foldlRecOn edits _ (isIntact_empty dialect) fun s h e _ => h.edit e
  · intro hstatements
    refine List.foldlRecOn edits _ (motive := HasDistinctTables) List.nodup_nil fun s h e he => ?_
    cases e with
    | apply origin sql => exact h.apply
    | _ => exact (hstatements _ he).elim

def halted : List Edit :=
  [.apply .mysql "CREATE TABLE T (a int)", .apply .mysql "CREATE TABLE t (b int)",
    .apply .mysql "ALTER TABLE t ADD c int, ADD A int"]

theorem halted_isIntact :
    (∀ e ∈ halted, e.IsStatement) ∧
      (edited none halted).tables.map (fun t => (t.name, t.columnNames)) = [("T", ["a", "c"])] ∧
      (edited none halted).IsIntact ∧ (edited none halted).HasDistinctTables := by
  have hstatements : ∀ e ∈ halted, e.IsStatement := by
    simp [halted, Edit.IsStatement]
  obtain ⟨hintact, hdistinct⟩ := edited_isIntact none halted
  exact ⟨hstatements, by decide +kernel, hintact, hdistinct hstatements⟩

end Schema

end SqlFerry
