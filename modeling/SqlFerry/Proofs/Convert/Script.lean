import Mathlib.Data.List.Count
import SqlFerry.Convert.Script
import SqlFerry.Proofs.Ddl.Producers
import SqlFerry.Proofs.Schema.Integrity
import SqlFerry.Proofs.Schema.Order

/-!
# What converted scripts hold

Each statement of a script becomes statements of its own or counts as dropped, and the converted
statements stand in the order of those they come from. The foreign keys of the created tables follow
where they are not written with their tables, then the resets of sequences.
-/

namespace SqlFerry.Convert

open Text Ddl

variable {r : Route} {schema : Schema} {s : Statement} {found : List Statement}
  {parts : List (List String)} {p p' p'' : Progress} {t : Table} {script : Script}

/-! ## What statements are about -/

/-- The table that a statement is taken to create. -/
def createdTable? (schema : Schema) (s : Statement) : Option Table :=
  if s.verb = "CREATE TABLE" then schema.table? ((Sql.targetTable? s.text).getD "") else none

def droppedName? (schema : Schema) (s : Statement) : Option String :=
  if s.verb = "DROP TABLE" then
    ((schema.table? ((Sql.targetTable? s.text).getD "")).map (·.name)).or
      ((Sql.targetTable? s.text).filter (!·.isEmpty))
  else none

/-- Whether a statement is left in place and only rewritten: it defines nothing, and it concerns no
sequence, no session and no catalog. -/
structure IsData (s : Statement) : Prop where
  verb : s.verb ∉ ["CREATE TABLE", "CREATE INDEX", "ALTER TABLE", "DROP TABLE", "COPY"]
  sequence : isSequenceStatement s.text.toList = false
  head : String.ofList ((words s.verb.toList).headD []) ∉
    sessionVerbs ++ ["CREATE", "DROP", "ALTER", ""]
  catalog : String.ofList ((words s.verb.toList).headD []) = "SELECT" →
    contains s.text "pg_catalog." = false

/-- The texts that a statement becomes. The cases exclude each other. -/
inductive Becomes (r : Route) (schema : Schema) (s : Statement) : List String → Prop where
  | table {t : Table} {create : String} (ht : createdTable? schema s = some t)
    (hcreate : Makes r.target t create) :
    Becomes r schema s (create :: indexStatements r.target [t])
  | drop {name : String} (hname : droppedName? schema s = some name) :
    Becomes r schema s [dropTable r.target name]
  | data (hdata : IsData s) : Becomes r schema s [(convertData r s.text).1]
  | nothing (htable : createdTable? schema s = none) (hdrop : droppedName? schema s = none)
    (hdata : ¬IsData s) : Becomes r schema s []

def created (schema : Schema) (found : List Statement) : List Table :=
  found.filterMap (createdTable? schema)

def addedKeys (d : Dialect) (tables : List Table) : List String :=
  (constraintsOf (addedConstraints d) tables).map fun (t, k) => addForeignKey d t.name k

/-- The foreign keys that are written with their tables, and those that are written later. -/
def writtenKeys (d : Dialect) (tables : List Table) : List (Table × Constraint) :=
  constraintsOf (fun t => (inlineConstraints d t).filter (·.kind == .foreignKey)) tables ++
    constraintsOf (addedConstraints d) tables

def sourced (found : List Statement) (parts : List (List String)) : List (String × Statement) :=
  (found.zip parts).flatMap fun (s, texts) => texts.map (·, s)

/-! ## Counting -/

theorem Tally.total_cons (x : String × Nat) (t : Tally) : total (x :: t) = x.2 + total t := by
  have hfold (n : Nat) : List.foldl (fun n x => n + x.2) n t = n + total t := by
    induction t generalizing n with
    | nil => rfl
    | cons y t ih =>
      have hy : total (y :: t) = (0 + y.2) + total t := ih (0 + y.2)
      rw [List.foldl_cons, ih, hy, Nat.zero_add, Nat.add_assoc]
  exact (hfold (0 + x.2)).trans (by rw [Nat.zero_add])

theorem Tally.total_add (k : String) (t : Tally) : (t.add k).total = t.total + 1 := by
  induction t with
  | nil => rfl
  | cons x t ih =>
    unfold add
    split
    · rw [total_cons, total_cons]
      omega
    · split
      · rw [total_cons, Nat.add_comm]
      · rw [total_cons, ih, total_cons, Nat.add_assoc]

/-! ## One statement after the other -/

structure Advances (r : Route) (schema : Schema) (found : List Statement)
    (parts : List (List String)) (p p' : Progress) : Prop where
  becomes : List.Forall₂ (Becomes r schema) found parts
  texts : p'.texts = p.texts ++ sourced found parts
  deferred : p'.deferred = p.deferred ++ addedKeys r.target (created schema found)
  dropped : p'.dropped.total = p.dropped.total + parts.countP (·.isEmpty)

theorem Advances.refl (p : Progress) : Advances r schema [] [] p p :=
  ⟨.nil, (List.append_nil _).symm, (List.append_nil _).symm, rfl⟩

theorem created_cons (s : Statement) (found : List Statement) :
    created schema (s :: found) = created schema [s] ++ created schema found :=
  List.filterMap_append (l := [s])

theorem Advances.cons {texts : List String} (h : Advances r schema [s] [texts] p p')
    (h' : Advances r schema found parts p' p'') :
    Advances r schema (s :: found) (texts :: parts) p p'' := by
  obtain ⟨hs, htexts, hdeferred, hdropped⟩ := h
  refine ⟨.cons (List.forall₂_cons.1 hs).1 h'.becomes, ?_, ?_, ?_⟩
  · rw [h'.texts, htexts, List.append_assoc]
    simp [sourced]
  · rw [h'.deferred, hdeferred, List.append_assoc, created_cons s found]
    simp [addedKeys, constraintsOf]
  · rw [h'.dropped, hdropped, Nat.add_assoc, ← List.countP_append, List.singleton_append]

/-- A statement that creates no table leaves the one text that it becomes. -/
theorem Advances.put {text : String} (hs : Becomes r schema s [text])
    (htable : createdTable? schema s = none) (htexts : p'.texts = p.texts)
    (hdeferred : p'.deferred = p.deferred) (hdropped : p'.dropped = p.dropped) :
    Advances r schema [s] [[text]] p (p'.put [text] s) := by
  refine ⟨.cons hs .nil, ?_, ?_, ?_⟩
  · simp [Progress.put, sourced, htexts]
  · simp [Progress.put, created, htable, addedKeys, constraintsOf, hdeferred]
  · simp [Progress.put, hdropped]

theorem Advances.drop (k : String) (hs : Becomes r schema s [])
    (htable : createdTable? schema s = none) : Advances r schema [s] [[]] p (p.drop k) := by
  refine ⟨.cons hs .nil, ?_, ?_, ?_⟩
  · simp [Progress.drop, sourced]
  · simp [Progress.drop, created, htable, addedKeys, constraintsOf]
  · simp [Progress.drop, Tally.total_add]

theorem convertDefinition_advances (hverb : s.verb = "CREATE TABLE") :
    Gives (fun p' => ∃ texts, Advances r schema [s] [texts] p p')
      (convertDefinition r schema p s) := by
  have hdrop : droppedName? schema s = none := by
    rw [droppedName?, hverb, if_neg (by decide)]
  have hdata : ¬IsData s := fun h => h.verb (by simp [hverb])
  have hcreated : createdTable? schema s = schema.table? ((Sql.targetTable? s.text).getD "") :=
    if_pos hverb
  unfold convertDefinition
  cases ht : schema.table? ((Sql.targetTable? s.text).getD "") with
  | none =>
    rw [ht] at hcreated
    exact .seq fun _ => .pure ⟨[], .drop _ (.nothing hcreated hdrop hdata) hcreated⟩
  | some t =>
    rw [ht] at hcreated
    refine .bind (.lift fun _ => makes_of_createTable) fun create hcreate => ?_
    have hbecomes := Becomes.table hcreated hcreate
    refine .ite (fun hlite => .pure ⟨_, .cons hbecomes .nil, ?_, ?_, ?_⟩)
      fun hlite => .pure ⟨_, .cons hbecomes .nil, ?_, ?_, ?_⟩
    · simp [Progress.put, sourced]
    · simp [Progress.put, created, hcreated, addedKeys, constraintsOf, addedConstraints, hlite]
    · simp [Progress.put]
    · simp [Progress.put, sourced]
    · simp [Progress.put, created, hcreated, addedKeys, constraintsOf, addedConstraints, hlite,
        foreignKeyStatements]
    · simp [Progress.put]

theorem convertDrop_eq (hverb : s.verb = "DROP TABLE") : convertDrop r schema p s =
    match droppedName? schema s with
    | some name => p.put [dropTable r.target name] s
    | none => p.drop s.verb := by
  unfold convertDrop droppedName?
  rw [if_pos hverb]
  cases Sql.targetTable? s.text with
  | none => cases ht : schema.table? "" <;> simp [ht]
  | some name =>
    cases ht : schema.table? name with
    | some t => simp [ht]
    | none =>
      by_cases hempty : name = ""
      · subst hempty
        simp [ht, Option.filter]
      · simp [ht, hempty, Option.filter]

theorem convertDrop_advances (hverb : s.verb = "DROP TABLE") :
    ∃ texts, Advances r schema [s] [texts] p (convertDrop r schema p s) := by
  have htable : createdTable? schema s = none := by
    rw [createdTable?, hverb, if_neg (by decide)]
  have hdata : ¬IsData s := fun h => h.verb (by simp [hverb])
  rw [convertDrop_eq hverb]
  cases hname : droppedName? schema s with
  | some name => exact ⟨_, .put (.drop hname) htable rfl rfl rfl⟩
  | none => exact ⟨_, .drop _ (.nothing htable hname hdata) htable⟩

/-- One statement is rewritten or counted as dropped. -/
theorem convertStatement_advances (r : Route) (schema : Schema) (p : Progress) (s : Statement) :
    Gives (fun p' => ∃ texts, Advances r schema [s] [texts] p p')
      (convertStatement r schema p s) := by
  unfold convertStatement
  dsimp only
  refine .ite (fun hverb => convertDefinition_advances (eq_of_beq hverb)) fun hcreate => ?_
  have htable : createdTable? schema s = none := if_neg (by simpa using hcreate)
  refine .ite (fun hfolded => ?folded) fun hfolded => .ite
    (fun hverb => .pure (convertDrop_advances (eq_of_beq hverb))) fun hdrop => ?_
  case folded =>
    have hverb : s.verb = "CREATE INDEX" ∨ s.verb = "ALTER TABLE" := by simpa using hfolded
    have hname : droppedName? schema s = none := if_neg (by rcases hverb with h | h <;> simp [h])
    have hdata : ¬IsData s := fun h => h.verb (by rcases hverb with h | h <;> simp [h])
    exact .pure ⟨_, .drop _ (.nothing htable hname hdata) htable⟩
  -- From here on no table is created or dropped: the statement is data, or nothing is left of it.
  have hname : droppedName? schema s = none := if_neg (by simpa using hdrop)
  have hdropped (k : String) (hdata : ¬IsData s) :
      Gives (fun p' => ∃ texts, Advances r schema [s] [texts] p p') (pure (p.drop k)) :=
    .pure ⟨_, .drop k (.nothing htable hname hdata) htable⟩
  refine .ite (fun hsequence => hdropped _ fun h => ?_) fun hsequence => .ite
    (fun hhead => hdropped _ fun h => ?_) fun hhead => .ite
    (fun hcatalog => hdropped _ fun h => ?_) fun hcatalog => .ite
    (fun hcopy => hdropped _ fun h => ?_) fun hcopy => ?_
  · simp [h.sequence] at hsequence
  · exact h.head (by simpa using hhead)
  · simp only [Bool.and_eq_true, beq_iff_eq] at hcatalog
    simp [h.catalog hcatalog.1] at hcatalog
  · exact h.verb (by simp [eq_of_beq hcopy])
  · have hdata : IsData s := by
      refine ⟨by simp_all, by simpa using hsequence, by simpa using hhead, fun hselect => ?_⟩
      rw [hselect] at hcatalog
      simpa using hcatalog
    refine .pure ⟨_, .put (.data hdata) htable ?_ ?_ ?_⟩ <;>
    · cases (convertData r s.text).2 <;> rfl

theorem foldlM_advances (r : Route) (schema : Schema) (p : Progress) (found : List Statement) :
    Gives (fun p' => ∃ parts, Advances r schema found parts p p')
      (found.foldlM (convertStatement r schema) p) := by
  induction found generalizing p with
  | nil => exact .pure ⟨[], .refl p⟩
  | cons s found ih =>
    rw [List.foldlM_cons]
    exact (convertStatement_advances r schema p s).bind fun p' ⟨_, hs⟩ =>
      (ih p').mono fun _ ⟨_, hfound⟩ => ⟨_, hs.cons hfound⟩

/-! ## Places -/

variable {last : Option Statement} {texts : List (String × Statement)} {ending : List String}

theorem placed_texts : (placed last texts ending).map (·.text) = texts.map (·.1) ++ ending := by
  unfold placed
  dsimp only
  rw [List.map_map]
  change List.map ((fun x : String × Option Statement => x.1) ∘ Prod.fst) _ = _
  rw [← List.map_map, List.zipIdx_map_fst, List.map_append, List.map_map, List.map_map]
  exact congrArg _ (List.map_id _)

theorem placed_indexes :
    (placed last texts ending).map (·.index) = List.range (placed last texts ending).length := by
  unfold placed
  dsimp only
  rw [List.map_map, List.length_map, List.length_zipIdx, List.range_eq_range']
  exact List.zipIdx_map_snd 0 _

theorem sourced_texts (h : List.Forall₂ (Becomes r schema) found parts) :
    (sourced found parts).map (·.1) = parts.flatten := by
  induction h with
  | nil => rfl
  | @cons s texts found parts _ _ ih =>
    change List.map (·.1) (texts.map (·, s) ++ sourced found parts) = texts ++ parts.flatten
    rw [List.map_append, ih, List.map_map]
    exact congrArg (· ++ _) (List.map_id _)

/-! ## Schemas from statements -/

theorem foldlM_keeps {α σ : Type} {f : σ → α → Except Fault σ} {P : σ → Prop}
    (hf : ∀ a s s', P s → f s a = .ok s' → P s') {l : List α} {s s' : σ} (hs : P s)
    (h : l.foldlM f s = .ok s') : P s' := by
  induction l generalizing s with
  | nil =>
    cases h
    exact hs
  | cons a l ih =>
    rw [List.foldlM_cons] at h
    obtain ⟨s₁, hstep, h⟩ := exists_of_bind_eq_ok h
    exact ih (hf a s s₁ hs hstep) h

theorem ofStatements_hasDistinctTables {origin : Dialect} {texts : List String} {own : Schema}
    (h : Ddl.ofStatements origin texts = .ok own) : own.HasDistinctTables := by
  have hempty : Schema.HasDistinctTables { dialect := some origin } := List.nodup_nil
  refine foldlM_keeps (fun sql s s' hs hstep => ?_) hempty h
  have hkept : (Ddl.apply origin s sql.toList).1.HasDistinctTables := hs.apply
  cases hr : Ddl.apply origin s sql.toList with
  | mk u outcome =>
    rw [hr] at hstep hkept
    cases outcome with
    | error e => cases hstep
    | ok _ =>
      cases hstep
      exact hkept

theorem hasDistinctTables_of_converted {own : Schema} {before after : List Warning}
    (hown : own.HasDistinctTables) (h : (r.convertSchema own).run before = .ok (schema, after)) :
    schema.HasDistinctTables := by
  have hnames : schema.names = own.names :=
    map_eq_of_forall₂ (((Route.convertSchema_echoes r own).run h).imp fun _ _ hecho => hecho.name)
  rw [Schema.HasDistinctTables, hnames]
  exact hown

theorem sameName_of_table? {name : String} (h : schema.table? name = some t) :
    sameName t.name name = true := by
  unfold Schema.table? at h
  split at h
  · next hnamed =>
    cases h
    rw [(Schema.name_of_named? hnamed).2, sameName, beq_self_eq_true]
  · simpa using List.find?_some h

theorem table?_of_sameName {name : String} (hdistinct : schema.HasDistinctTables)
    (ht : t ∈ schema.tables) (hname : sameName t.name name = true) :
    schema.table? name = some t := by
  have hlower : lower t.name = lower name := eq_of_beq hname
  cases hu : schema.table? name with
  | none =>
    refine absurd ?_ (Schema.table?_eq_none.1 hu)
    rw [← hlower]
    exact List.mem_map_of_mem (List.mem_map_of_mem ht)
  | some u =>
    have hsame : lower u.name = lower t.name :=
      (eq_of_beq (sameName_of_table? hu)).trans hlower.symm
    rw [Schema.HasDistinctTables, Schema.names, List.map_map] at hdistinct
    rw [List.inj_on_of_nodup_map hdistinct (Schema.mem_of_table? hu) ht hsame]

/-! ## Foreign keys -/

def creates (name : String) (s : Statement) : Bool :=
  s.verb == "CREATE TABLE" && (Sql.targetTable? s.text).any (sameName name)

/-- Whether each table of the schema is created by one statement and no other. -/
def CreatesOnce (schema : Schema) (found : List Statement) : Prop :=
  ∀ t ∈ schema.tables, found.countP (creates t.name) = 1

instance : Decidable (CreatesOnce schema found) :=
  inferInstanceAs (Decidable (∀ t ∈ schema.tables, found.countP (creates t.name) = 1))

theorem mem_tables_of_mem_created (h : t ∈ created schema found) : t ∈ schema.tables := by
  obtain ⟨s, -, hs⟩ := List.mem_filterMap.1 h
  unfold createdTable? at hs
  split at hs
  · exact Schema.mem_of_table? hs
  · cases hs

theorem createdTable?_of_creates (hdistinct : schema.HasDistinctTables) (ht : t ∈ schema.tables)
    (hs : creates t.name s = true) : createdTable? schema s = some t := by
  obtain ⟨hverb, name, htarget, hname⟩ : s.verb = "CREATE TABLE" ∧
      ∃ name, Sql.targetTable? s.text = some name ∧ sameName t.name name = true := by
    simpa [creates, Option.any_eq_true] using hs
  rw [createdTable?, if_pos hverb, htarget, Option.getD_some]
  exact table?_of_sameName hdistinct ht hname

/-- A statement is taken to create a table that it does not name only if it names none. -/
theorem createdTable?_of_not_creates (hs : creates t.name s = false) :
    createdTable? schema s = some t ↔
      s.verb = "CREATE TABLE" ∧ Sql.targetTable? s.text = none ∧ schema.table? "" = some t := by
  unfold createdTable?
  by_cases hverb : s.verb = "CREATE TABLE"
  case neg => simp [hverb]
  case pos =>
    rw [if_pos hverb]
    cases htarget : Sql.targetTable? s.text with
    | none => simp [hverb]
    | some name =>
      have hother : sameName t.name name = false := by simpa [creates, hverb, htarget] using hs
      simp only [Option.getD_some, hverb, true_and, reduceCtorEq, false_and, iff_false]
      intro ht
      rw [sameName_of_table? ht] at hother
      cases hother

theorem countP_eq_iff {α : Type} {p q : α → Bool} {l : List α}
    (hsub : ∀ a ∈ l, p a = true → q a = true) :
    l.countP p = l.countP q ↔ ∀ a ∈ l, q a = true → p a = true := by
  have hinner : l.countP p = (l.filter q).countP p := by
    rw [List.countP_filter]
    refine List.countP_congr fun a ha => ?_
    rw [Bool.and_eq_true]
    exact ⟨fun h => ⟨h, hsub a ha h⟩, And.left⟩
  rw [hinner, List.countP_eq_length_filter (p := q), List.countP_eq_length]
  simp only [List.mem_filter, and_imp]

theorem count_created : (created schema found).count t =
    found.countP (createdTable? schema · == some t) := by
  rw [created, List.count, List.countP_filterMap]
  refine List.countP_congr fun s _ => ?_
  cases createdTable? schema s <;> simp

/-- A table that is created once is taken to be created once, unless it is the one without a name
and another statement names no table. -/
theorem count_created_eq_one_iff (hdistinct : schema.HasDistinctTables)
    (honce : CreatesOnce schema found) (ht : t ∈ schema.tables) :
    (created schema found).count t = 1 ↔ ∀ s ∈ found, s.verb = "CREATE TABLE" →
      Sql.targetTable? s.text = none → schema.table? "" ≠ some t := by
  -- What names the table is also taken to create it, so the count is one unless more is taken to.
  have hsub : ∀ s ∈ found, creates t.name s = true → (createdTable? schema s == some t) = true :=
    fun s _ hs => beq_iff_eq.2 (createdTable?_of_creates hdistinct ht hs)
  rw [count_created, ← honce t ht, eq_comm, countP_eq_iff hsub]
  refine forall₂_congr fun s _ => ?_
  rw [beq_iff_eq]
  cases hs : creates t.name s with
  | true => exact iff_of_true (fun _ => rfl) fun _ hnone => by simp [creates, hnone] at hs
  | false =>
    rw [createdTable?_of_not_creates hs]
    simp

theorem count_constraintsOf (choose : Table → List Constraint) (tables : List Table)
    (k : Constraint) : (constraintsOf choose tables).count (t, k) =
      tables.count t * (choose t).count k := by
  induction tables with
  | nil => simp [constraintsOf]
  | cons u tables ih =>
    change ((choose u).map (u, ·) ++ constraintsOf choose tables).count (t, k) = _
    rw [List.count_append, ih, List.count_cons, Nat.add_mul, Nat.add_comm]
    congr 1
    by_cases hu : u = t
    · subst hu
      rw [List.count_map_of_injective _ _ fun _ _ h => (Prod.mk.inj h).2]
      simp
    · have hother : (t, k) ∉ (choose u).map (u, ·) := by
        simp [hu]
      rw [List.count_eq_zero_of_not_mem hother]
      simp [hu]

/-- The foreign keys of a table are written either with it or later. -/
theorem writtenKeys_perm (d : Dialect) (tables : List Table) :
    (writtenKeys d tables).Perm (constraintsOf Table.foreignKeys tables) := by
  refine (constraintsOf_append_perm _ _ _).trans (List.Perm.of_eq ?_)
  refine congrArg (constraintsOf · tables) (funext fun t => ?_)
  by_cases hd : d = .sqlite
  · simp [inlineConstraints, addedConstraints, Table.foreignKeys, hd]
  · have hnone : (inlineConstraints d t).filter (·.kind == .foreignKey) = [] := by
      simp [inlineConstraints, hd]
    rw [hnone, List.nil_append, addedConstraints, if_neg (by simpa using hd)]

/-- Where each table is created once, each foreign key is written once exactly if the table without
a name has none or each statement that creates a table names one. -/
theorem writtenKeys_perm_iff (d : Dialect) (hdistinct : schema.HasDistinctTables)
    (honce : CreatesOnce schema found) :
    (writtenKeys d (created schema found)).Perm (constraintsOf Table.foreignKeys schema.tables) ↔
    ∀ s ∈ found, s.verb = "CREATE TABLE" → Sql.targetTable? s.text = none →
      ∀ t, schema.table? "" = some t → t.foreignKeys = [] := by
  have hnodup : schema.tables.Nodup := hdistinct.of_map.of_map
  -- Each key is counted as often as its table, so tables with keys must be created as often as they
  -- are in the schema, which is once.
  rw [(writtenKeys_perm d _).congr_left, List.perm_iff_count]
  constructor
  · intro hcounts s hs hverb hnone t ht
    by_contra hkeys
    obtain ⟨k, hk⟩ := List.exists_mem_of_ne_nil _ hkeys
    have hmem : t ∈ schema.tables := Schema.mem_of_table? ht
    have hcount := hcounts (t, k)
    rw [count_constraintsOf, count_constraintsOf, List.count_eq_one_of_mem hnodup hmem] at hcount
    have hone := Nat.eq_of_mul_eq_mul_right (List.count_pos_iff.2 hk) hcount
    exact (count_created_eq_one_iff hdistinct honce hmem).1 hone s hs hverb hnone ht
  · rintro hfree ⟨t, k⟩
    rw [count_constraintsOf, count_constraintsOf]
    by_cases ht : t ∈ schema.tables
    case neg =>
      rw [List.count_eq_zero_of_not_mem ht,
        List.count_eq_zero_of_not_mem fun h => ht (mem_tables_of_mem_created h)]
    case pos =>
      by_cases hkeys : t.foreignKeys = []
      · rw [hkeys, List.count_nil, Nat.mul_zero, Nat.mul_zero]
      · rw [List.count_eq_one_of_mem hnodup ht, (count_created_eq_one_iff hdistinct honce ht).2
          fun s hs hverb hnone hnameless => hkeys (hfree s hs hverb hnone t hnameless)]

/-! ## Whole scripts -/

/-- A script holds what its statements become, in their places and in their order, then the foreign
keys that are not written with the created tables, then one reset for each column with automatic
values on PostgreSQL. The statements that become nothing are counted. -/
structure Script.Accounts (r : Route) (schema : Schema) (found : List Statement)
    (parts : List (List String)) (resets : List String) (script : Script) : Prop where
  becomes : List.Forall₂ (Becomes r schema) found parts
  places : script.statements = placed found.getLast? (sourced found parts)
    (addedKeys r.target (created schema found) ++ resets)
  texts : script.statements.map (·.text) =
    parts.flatten ++ (addedKeys r.target (created schema found) ++ resets)
  indexes : script.statements.map (·.index) = List.range script.statements.length
  dropped : script.dropped = parts.countP (·.isEmpty)
  resets : if r.target = .postgresql
    then resets.Perm (schema.tables.flatMap fun t =>
      (t.columns.filter (·.autoIncrement)).map (sequenceReset .postgresql t.name ·.name))
    else resets = []

theorem resets_perm (d : Dialect) (hnames : schema.names.Nodup) :
    (sequenceResets d schema).Perm (schema.tables.flatMap fun t =>
      (t.columns.filter (·.autoIncrement)).map (sequenceReset d t.name ·.name)) :=
  (Schema.createOrder_perm hnames).flatMap_right _

/-- What the progress with all statements makes of a script. -/
theorem Advances.accounts (h : Advances r schema found parts {} p) (hnames : schema.names.Nodup)
    (warnings : List Warning) :
    let resets := if r.target == .postgresql then sequenceResets r.target schema else []
    Script.Accounts r schema found parts resets
      { statements := placed found.getLast? p.texts (p.deferred ++ resets), warnings
        dropped := p.dropped.total } := by
  intro resets
  have htexts : p.texts = sourced found parts := h.texts
  have hdeferred : p.deferred = addedKeys r.target (created schema found) := h.deferred
  have hdropped : p.dropped.total = parts.countP (·.isEmpty) := h.dropped.trans (Nat.zero_add _)
  refine ⟨h.becomes, ?_, ?_, placed_indexes, hdropped, ?_⟩
  · rw [htexts, hdeferred]
  · rw [placed_texts, htexts, hdeferred, sourced_texts h.becomes]
  · by_cases htarget : r.target = .postgresql
    · simp only [resets, htarget, beq_self_eq_true, if_true]
      exact resets_perm _ hnames
    · simp [resets, htarget]

theorem exists_of_run_bind_eq_ok {α β : Type} {m : Converting α} {f : α → Converting β} {b : β}
    {before after : List Warning} (h : (m >>= f).run before = .ok (b, after)) :
    ∃ a between, m.run before = .ok (a, between) ∧ (f a).run between = .ok (b, after) := by
  rw [StateT.run_bind] at h
  obtain ⟨⟨a, between⟩, hm, hf⟩ := exists_of_bind_eq_ok h
  exact ⟨a, between, hm, hf⟩

/-- The parts of a conversion that succeeds. -/
theorem convertAll_eq_ok {all : List Statement} {dropped : Nat} {warnings : List Warning}
    (h : (convertAll r found).run [] = .ok ((all, dropped), warnings)) :
    ∃ own schema p before after, Ddl.ofStatements r.source (definitions found) = .ok own ∧
      (r.convertSchema own).run [] = .ok (schema, before) ∧
      (found.foldlM (convertStatement r schema) {}).run before = .ok (p, after) ∧
      all = placed found.getLast? p.texts (p.deferred ++
        if r.target == .postgresql then sequenceResets r.target schema else []) ∧
      dropped = p.dropped.total := by
  unfold convertAll at h
  obtain ⟨own, start, hown, h⟩ := exists_of_run_bind_eq_ok h
  obtain ⟨schema, before, hschema, h⟩ := exists_of_run_bind_eq_ok h
  obtain ⟨p, after, hp, h⟩ := exists_of_run_bind_eq_ok h
  obtain ⟨-, _, -, h⟩ := exists_of_run_bind_eq_ok h
  cases h
  cases hread : Ddl.ofStatements r.source (definitions found) with
  | error e =>
    rw [hread] at hown
    cases hown
  | ok own' =>
    rw [hread] at hown
    cases hown
    exact ⟨_, _, _, _, _, rfl, hschema, hp, rfl, rfl⟩

/-- A script that is converted for another dialect accounts for each of its statements. Where each
table of the converted schema is created by one statement and no other, each of its foreign keys is
written once exactly if the table without a name has none or each statement that creates a table
names one. -/
theorem statements_account (hother : r.source ≠ r.target) (h : statements r found = .ok script) :
    ∃ own schema warnings parts resets,
      Ddl.ofStatements r.source (definitions found) = .ok own ∧
      (r.convertSchema own).run [] = .ok (schema, warnings) ∧
      script.Accounts r schema found parts resets ∧
      (CreatesOnce schema found →
        ((writtenKeys r.target (created schema found)).Perm
            (constraintsOf Table.foreignKeys schema.tables) ↔
          ∀ s ∈ found, s.verb = "CREATE TABLE" → Sql.targetTable? s.text = none →
            ∀ t, schema.table? "" = some t → t.foreignKeys = [])) := by
  unfold statements at h
  rw [if_neg (by simpa using hother)] at h
  obtain ⟨⟨⟨all, dropped⟩, warnings⟩, hall, h⟩ := exists_of_bind_eq_ok h
  cases h
  obtain ⟨own, schema, p, before, after, hown, hschema, hp, rfl, rfl⟩ := convertAll_eq_ok hall
  have hdistinct := hasDistinctTables_of_converted (ofStatements_hasDistinctTables hown) hschema
  obtain ⟨parts, hparts⟩ := (foldlM_advances r schema {} found).run hp
  exact ⟨own, schema, before, parts, _, hown, hschema, hparts.accounts hdistinct.of_map warnings,
    writtenKeys_perm_iff r.target hdistinct⟩

theorem exists_ok_of_toOption_bind {ε α β : Type} {x : Except ε α} {f : α → Option β} {b : β}
    (h : x.toOption.bind f = some b) : ∃ a, x = .ok a ∧ f a = some b := by
  cases x with
  | error e => cases h
  | ok a => exact ⟨a, rfl, h⟩

def linked : List Statement := [
  ⟨"CREATE TABLE p (id integer PRIMARY KEY AUTOINCREMENT)", 0, 0, 53, 1, some ";", false⟩,
  ⟨"CREATE TABLE c (p integer REFERENCES p(id))", 1, 55, 98, 1, some ";", false⟩,
  ⟨"INSERT INTO c VALUES (1)", 2, 100, 124, 1, some ";", false⟩,
  ⟨"COMMIT", 3, 126, 132, 1, some ";", false⟩]

theorem linked_accounts : ∃ script schema parts resets,
    statements ⟨.sqlite, .postgresql, false⟩ linked = .ok script ∧
    script.Accounts ⟨.sqlite, .postgresql, false⟩ schema linked parts resets ∧
    CreatesOnce schema linked ∧
    (writtenKeys .postgresql (created schema linked)).Perm
      (constraintsOf Table.foreignKeys schema.tables) := by
  let r : Route := ⟨.sqlite, .postgresql, false⟩
  have hscript : ((statements r linked).toOption.bind fun script =>
      some (script.statements.map (·.verb))) =
        some ["CREATE TABLE", "CREATE TABLE", "INSERT", "ALTER TABLE", "SELECT"] := by
    decide +kernel
  have honce : ((Ddl.ofStatements r.source (definitions linked)).toOption.bind fun own =>
      ((r.convertSchema own).run []).toOption.bind fun x =>
        some (decide (CreatesOnce x.1 linked ∧ x.1.table? "" = none))) = some true := by
    decide +kernel
  obtain ⟨script, hscript, -⟩ := exists_ok_of_toOption_bind hscript
  obtain ⟨own, hown, honce⟩ := exists_ok_of_toOption_bind honce
  obtain ⟨⟨schema, warnings⟩, hschema, honce⟩ := exists_ok_of_toOption_bind honce
  obtain ⟨honce, hnamed⟩ := of_decide_eq_true (Option.some.inj honce)
  obtain ⟨own', schema', _, parts, resets, hown', hschema', haccounts, hiff⟩ :=
    statements_account (r := r) (by decide) hscript
  cases hown.symm.trans hown'
  cases hschema.symm.trans hschema'
  refine ⟨script, schema, parts, resets, hscript, haccounts, honce, (hiff honce).2 ?_⟩
  rintro s - - - t ht
  rw [hnamed] at ht
  cases ht

/-- A table without a name, and a definition that names no table as far as it is understood: it is
taken to create the table without a name. -/
def nameless : List Statement := [
  ⟨"CREATE TABLE p (id integer)", 0, 0, 27, 1, some ";", false⟩,
  ⟨"CREATE TABLE \"\" (a integer, b integer REFERENCES p(id))", 1, 29, 84, 1, some ";", false⟩,
  ⟨"CREATE TABLE x AS SELECT 1", 2, 86, 112, 1, some ";", false⟩]

def namelessTexts : List String := [
  "CREATE TABLE \"p\" (\n  \"id\" integer\n)",
  "CREATE TABLE \"\" (\n  \"a\" integer,\n  \"b\" integer\n)",
  "CREATE TABLE \"\" (\n  \"a\" integer,\n  \"b\" integer\n)",
  "ALTER TABLE \"\" ADD FOREIGN KEY (\"b\") REFERENCES \"p\" (\"id\")",
  "ALTER TABLE \"\" ADD FOREIGN KEY (\"b\") REFERENCES \"p\" (\"id\")"]

theorem nameless_key_twice : ∃ script own schema warnings,
    statements ⟨.sqlite, .postgresql, false⟩ nameless = .ok script ∧
    Ddl.ofStatements .sqlite (definitions nameless) = .ok own ∧
    (Route.convertSchema ⟨.sqlite, .postgresql, false⟩ own).run [] = .ok (schema, warnings) ∧
    CreatesOnce schema nameless ∧
    ¬(writtenKeys .postgresql (created schema nameless)).Perm
      (constraintsOf Table.foreignKeys schema.tables) ∧
    script.statements.map (·.text) = namelessTexts := by
  have hscript : ((statements ⟨.sqlite, .postgresql, false⟩ nameless).toOption.bind fun script =>
      some (script.statements.map (·.text))) = some namelessTexts := by
    decide +kernel
  have hkeys : ((Ddl.ofStatements .sqlite (definitions nameless)).toOption.bind fun own =>
      ((Route.convertSchema ⟨.sqlite, .postgresql, false⟩ own).run []).toOption.bind fun x =>
        some (decide (CreatesOnce x.1 nameless ∧
          ¬(writtenKeys .postgresql (created x.1 nameless)).Perm
            (constraintsOf Table.foreignKeys x.1.tables)))) = some true := by
    decide +kernel
  obtain ⟨script, hscript, htexts⟩ := exists_ok_of_toOption_bind hscript
  obtain ⟨own, hown, hkeys⟩ := exists_ok_of_toOption_bind hkeys
  obtain ⟨⟨schema, warnings⟩, hschema, hkeys⟩ := exists_ok_of_toOption_bind hkeys
  obtain ⟨honce, hperm⟩ := of_decide_eq_true (Option.some.inj hkeys)
  exact ⟨script, own, schema, warnings, hscript, hown, hschema, honce, hperm,
    Option.some.inj htexts⟩

end SqlFerry.Convert
