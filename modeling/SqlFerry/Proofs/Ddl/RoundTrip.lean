import SqlFerry.Proofs.Ddl.Applying
import SqlFerry.Proofs.Schema.Integrity

/-!
# Reading what was written

The statements that are written for a schema are read as the schema: the tables in the order in
which they are created, each with the columns, the key, the constraints and the indexes that it had.
Each statement adds a table or changes the table that it names; what carries the induction is that
the tables before it have been changed and those behind it have not.
-/

namespace SqlFerry.Ddl

open Text Sql

variable {d : Dialect} {s : Schema} {t u : Table} {k : Constraint}

/-! ## Runs of statements -/

inductive Leads (d : Dialect) : Schema → List String → Schema → Prop where
  | nil (s : Schema) : Leads d s [] s
  | cons {s s' u : Schema} {text : String} {texts : List String}
      (htext : IsDefinition d text.toList) (h : apply d s text.toList = (s', .ok ()))
      (hs : Leads d s' texts u) : Leads d s (text :: texts) u

namespace Leads

variable {u v : Schema} {texts more : List String}

theorem append (h : Leads d s texts u) (hmore : Leads d u more v) :
    Leads d s (texts ++ more) v := by
  induction h with
  | nil => exact hmore
  | cons htext happly _ ih => exact .cons htext happly (ih hmore)

theorem isDefinition (h : Leads d s texts u) : ∀ x ∈ texts, IsDefinition d x.toList := by
  induction h with
  | nil => exact List.forall_mem_nil _
  | cons htext _ _ ih => exact List.forall_mem_cons.2 ⟨htext, ih⟩

theorem ofStatements (h : Leads d { dialect := some d } texts u) :
    ofStatements d texts = .ok u := by
  unfold Ddl.ofStatements
  generalize ({ dialect := some d } : Schema) = s at h
  induction h with
  | nil => rfl
  | cons _ happly _ ih =>
    rw [List.foldlM_cons, happly]
    exact ih

end Leads

def withTables (d : Dialect) (ts : List Table) : Schema :=
  { dialect := some d, tables := ts }

section Middle

variable {pre post ts : List Table} {v : Table}

theorem names_nodup (h : s.HasDistinctTables) : s.names.Nodup :=
  h.of_map _

theorem replace_middle (h : (withTables d (pre ++ v :: post)).HasDistinctTables)
    (hname : u.name = v.name) :
    (withTables d (pre ++ v :: post)).replace u = withTables d (pre ++ u :: post) := by
  have hnodup := names_nodup h
  rw [Schema.names, withTables, List.map_append, List.map_cons, List.nodup_middle,
    List.nodup_cons, ← hname] at hnodup
  have hother : ∀ w ∈ pre ++ post, (w.name == u.name) = false := by
    intro w hw
    rw [beq_eq_false_iff_ne]
    exact fun he => hnodup.1 (by rw [← List.map_append]; exact List.mem_map.2 ⟨w, hw, he⟩)
  have hkeep {ws : List Table} (hws : ∀ w ∈ ws, (w.name == u.name) = false) :
      ws.map (fun w => if w.name == u.name then u else w) = ws :=
    (List.map_congr_left fun w hw => by rw [hws w hw]; rfl).trans (List.map_id ws)
  obtain ⟨hpre, hpost⟩ := List.forall_mem_append.1 hother
  rw [Schema.replace, withTables, List.map_append, List.map_cons, hkeep hpre, hkeep hpost,
    if_pos (by rw [hname, beq_self_eq_true])]
  rfl

theorem hasDistinctTables_middle (h : (withTables d (pre ++ v :: post)).HasDistinctTables)
    (hname : u.name = v.name) : (withTables d (pre ++ u :: post)).HasDistinctTables :=
  replace_middle h hname ▸ h.replace

/-- Statements that add to one table lead to the table with all that they add. -/
theorem leads_middle {ι : Type} {text : ι → String} {add : Table → ι → Table} {l : List ι}
    (htext : ∀ i ∈ l, IsDefinition d (text i).toList)
    (hadd : ∀ i ∈ l, ∀ w, w.name = v.name → w.columns = v.columns →
      (∀ s : Schema, s.table? v.name = some w →
        apply d s (text i).toList = (s.replace (add w i), .ok ())) ∧
      (add w i).name = v.name ∧ (add w i).columns = v.columns)
    (h : (withTables d (pre ++ v :: post)).HasDistinctTables) :
    Leads d (withTables d (pre ++ v :: post)) (l.map text)
      (withTables d (pre ++ l.foldl add v :: post)) := by
  induction l generalizing v with
  | nil => exact .nil _
  | cons i l ih =>
    obtain ⟨happly, hname, hcolumns⟩ := hadd i List.mem_cons_self v rfl rfl
    have hstep := happly _ (Schema.table?_name_of_nodup (names_nodup h) (by simp [withTables]))
    rw [replace_middle h hname] at hstep
    refine .cons (htext i List.mem_cons_self) hstep (ih
      (fun j hj => htext j (List.mem_cons_of_mem _ hj)) (fun j hj w hw hcs => ?_)
      (hasDistinctTables_middle h hname))
    rw [hname, hcolumns]
    exact hadd j (List.mem_cons_of_mem _ hj) w (hw.trans hname) (hcs.trans hcolumns)

theorem leads_indexes {is : List Index} (his : ∀ i ∈ is, IsPlainIndex d i)
    (hchecked : ∀ i ∈ is, v.checkIndex i = .ok ())
    (h : (withTables d (pre ++ v :: post)).HasDistinctTables) :
    Leads d (withTables d (pre ++ v :: post)) (is.filterMap (createIndex d v.name))
      (withTables d (pre ++ { v with
        indexes := v.indexes ++ is.map fun i => { i with origin := some d } } :: post)) := by
  let add (w : Table) (i : Index) : Table :=
    { w with indexes := w.indexes ++ [{ i with origin := some d }] }
  have hadded (is : List Index) (w : Table) : is.foldl add w =
      { w with indexes := w.indexes ++ is.map fun i => { i with origin := some d } } := by
    induction is generalizing w with
    | nil => simp
    | cons i is ih => simp [ih, add]
  have htexts : is.filterMap (createIndex d v.name) =
      is.map fun i => ofChars (indexText d v.name i) := by
    rw [← List.filterMap_eq_map]
    exact List.filterMap_congr fun i hi => createIndex_eq (his i hi) v.name
  rw [htexts, ← hadded]
  refine leads_middle (fun i hi => ?_)
    (fun i hi w hname hcolumns => ⟨fun s hs => ?_, hname, hcolumns⟩) h
  · rw [ofChars, String.toList_ofList]
    exact isDefinition_indexText (his i hi) v.name
  · rw [ofChars, String.toList_ofList]
    exact apply_indexText (his i hi) hs (Table.addIndex_eq_ok hcolumns (hchecked i hi))

theorem leads_foreignKeys {ks : List Constraint} (hks : ∀ k ∈ ks, IsPlainConstraint k)
    (hchecked : ∀ k ∈ ks, v.checkConstraint k = .ok ())
    (h : (withTables d (pre ++ v :: post)).HasDistinctTables) :
    Leads d (withTables d (pre ++ v :: post)) (ks.map (addForeignKey d v.name))
      (withTables d (pre ++ { v with constraints := v.constraints ++ ks } :: post)) := by
  let add (w : Table) (k : Constraint) : Table := { w with constraints := w.constraints ++ [k] }
  have hadded (ks : List Constraint) (w : Table) : ks.foldl add w =
      { w with constraints := w.constraints ++ ks } := by
    induction ks generalizing w with
    | nil => simp
    | cons k ks ih => simp [ih, add]
  rw [← hadded]
  refine leads_middle (fun k hk => ?_)
    (fun k hk w hname hcolumns => ⟨fun s hs => ?_, hname, hcolumns⟩) h
  · rw [toList_addForeignKey]
    exact isDefinition_alterText (isTableItem_constraint (hks k hk) d).1 v.name
  · exact apply_addForeignKey (hks k hk) hs (Table.addConstraint_eq_ok hcolumns (hchecked k hk))

/-- Statements for one table after the other lead to the tables as each of them is left. -/
theorem leads_each {before after : Table → Table} {texts : Table → List String}
    (hbefore : ∀ t, (before t).name = t.name) (hafter : ∀ t, (after t).name = t.name)
    (hleads : ∀ t ∈ ts, ∀ pre post,
      (withTables d (pre ++ before t :: post)).HasDistinctTables →
        Leads d (withTables d (pre ++ before t :: post)) (texts t)
          (withTables d (pre ++ after t :: post)))
    (h : (withTables d (pre ++ ts.map before)).HasDistinctTables) :
    Leads d (withTables d (pre ++ ts.map before)) (ts.flatMap texts)
      (withTables d (pre ++ ts.map after)) := by
  induction ts generalizing pre with
  | nil => exact .nil _
  | cons t ts ih =>
    rw [List.map_cons] at h
    have hstep := hleads t List.mem_cons_self pre (ts.map before) h
    have hnext := hasDistinctTables_middle h ((hafter t).trans (hbefore t).symm)
    rw [List.append_cons] at hnext
    have hrest := ih (fun u hu => hleads u (List.mem_cons_of_mem _ hu)) hnext
    rw [← List.append_cons, ← List.append_cons] at hrest
    exact hstep.append hrest

end Middle

/-! ## Whole schemas -/

def constraintsLater (d : Dialect) (t : Table) : List Constraint :=
  if d == .sqlite then [] else t.foreignKeys

def asDefined (d : Dialect) (t : Table) : Table :=
  { t with
    indexes := [], constraints := constraintsInside d t
    definition := (createTable d t (d == .sqlite)).toOption }

def asIndexed (d : Dialect) (t : Table) : Table :=
  { asDefined d t with indexes := t.indexes.map fun i => { i with origin := some d } }

/-- A table as it is read: it knows the statement that it was read from, its indexes the dialect
that they were read in, and the foreign keys that were added stand behind the other constraints. -/
def asRead (d : Dialect) (t : Table) : Table :=
  { asIndexed d t with constraints := constraintsInside d t ++ constraintsLater d t }

/-- A schema that can be read again. -/
structure IsPlainSchema (d : Dialect) (s : Schema) : Prop where
  distinct : s.HasDistinctTables
  tables : ∀ t ∈ s.tables, IsPlainTable d t
  indexes : ∀ t ∈ s.tables, ∀ i ∈ t.indexes, IsPlainIndex d i

theorem asDefined_eq (h : IsPlainTable d t) {texts : List String}
    (htexts : t.columns.mapM (column d · (some t)) = .ok texts) :
    asDefined d t = tableInside d t (tableText d t texts) := by
  rw [asDefined, createTable_eq h htexts, h.options]
  rfl

theorem leads_tables {pre ts : List Table} (hplain : ∀ t ∈ ts, IsPlainTable d t)
    (h : (withTables d (pre ++ ts)).HasDistinctTables) :
    ∃ texts, ts.mapM (createTable d · (d == .sqlite)) = .ok texts ∧
      Leads d (withTables d (pre.map (asDefined d))) texts
        (withTables d ((pre ++ ts).map (asDefined d))) := by
  induction ts generalizing pre with
  | nil => exact ⟨[], rfl, by rw [List.append_nil]; exact .nil _⟩
  | cons t ts ih =>
    obtain ⟨ht, hts⟩ := List.forall_mem_cons.1 hplain
    obtain ⟨columns, hcolumns, htexts⟩ := exists_columnTexts ht.columns
    have hnew : (withTables d (pre.map (asDefined d))).table? t.name = none := by
      have hnames : (withTables d (pre.map (asDefined d))).names = pre.map (·.name) := by
        rw [Schema.names, withTables, List.map_map]
        rfl
      rw [Schema.HasDistinctTables, Schema.names, withTables, List.map_append, List.map_append,
        List.map_cons, List.map_cons] at h
      rw [Schema.table?_eq_none, hnames]
      exact fun hmem => List.nodup_append.1 h |>.2.2 _ hmem _ List.mem_cons_self rfl
    have hstep := apply_tableText ht htexts hnew
    rw [← asDefined_eq ht hcolumns] at hstep
    rw [List.append_cons] at h
    obtain ⟨texts, hmap, hleads⟩ := ih hts h
    have hdefinition := (isDefinition_tableText ht htexts).2
    refine ⟨ofChars (tableText d t columns) :: texts, ?_,
      @Leads.cons d _ (withTables d ((pre ++ [t]).map (asDefined d))) _ _ _ ?_ ?_ ?_⟩
    · rw [List.mapM_cons, createTable_eq ht hcolumns, hmap]
      rfl
    · rwa [ofChars, String.toList_ofList]
    · rw [ofChars, String.toList_ofList, hstep, List.map_append]
      rfl
    · rw [List.append_cons pre t ts]
      exact hleads

theorem hasDistinctTables_map {f : Table → Table} {ts : List Table} (hf : ∀ t, (f t).name = t.name)
    (h : (withTables d ts).HasDistinctTables) : (withTables d (ts.map f)).HasDistinctTables := by
  have hnames : (withTables d (ts.map f)).names = (withTables d ts).names := by
    rw [Schema.names, withTables, List.map_map]
    exact List.map_congr_left fun t _ => hf t
  rw [Schema.HasDistinctTables, hnames]
  exact h

theorem mem_of_mem_later (hk : k ∈ constraintsLater d t) : k ∈ t.constraints := by
  unfold constraintsLater at hk
  split at hk
  · cases hk
  · exact (List.mem_filter.1 hk).1

theorem foreignKeyStatements_eq (d : Dialect) (ts : List Table) :
    (if d != .sqlite then foreignKeyStatements d ts else []) =
      ts.flatMap fun t => (constraintsLater d t).map (addForeignKey d t.name) := by
  cases d with
  | mysql | postgresql => rfl
  | sqlite => simp [constraintsLater]

/-- The statements of a schema whose tables are created in this order. -/
theorem leads_statements {ts : List Table} (hplain : ∀ t ∈ ts, IsPlainTable d t)
    (hindexes : ∀ t ∈ ts, ∀ i ∈ t.indexes, IsPlainIndex d i)
    (h : (withTables d ts).HasDistinctTables) :
    ∃ texts, ts.mapM (createTable d · (d == .sqlite)) = .ok texts ∧
      Leads d { dialect := some d } (texts ++ indexStatements d ts ++
        if d != .sqlite then foreignKeyStatements d ts else [])
          (withTables d (ts.map (asRead d))) := by
  have hchecked {t : Table} (ht : t ∈ ts) := Table.check_eq_ok.1 (hplain t ht).checked
  obtain ⟨texts, hmap, htables⟩ : ∃ texts, ts.mapM (createTable d · (d == .sqlite)) = .ok texts ∧
      Leads d (withTables d []) texts (withTables d (ts.map (asDefined d))) :=
    @leads_tables d [] ts hplain h
  have hindexed : Leads d (withTables d (ts.map (asDefined d))) (indexStatements d ts)
      (withTables d (ts.map (asIndexed d))) :=
    @leads_each d [] ts _ _ _ (fun _ => rfl) (fun _ => rfl) (fun t ht pre post hmiddle =>
      leads_indexes (hindexes t ht) (hchecked ht).indexes hmiddle)
      (hasDistinctTables_map (fun _ => rfl) h)
  have hkeys : Leads d (withTables d (ts.map (asIndexed d)))
      (ts.flatMap fun t => (constraintsLater d t).map (addForeignKey d t.name))
      (withTables d (ts.map (asRead d))) :=
    @leads_each d [] ts _ _ _ (fun _ => rfl) (fun _ => rfl) (fun t ht pre post hmiddle =>
      leads_foreignKeys (fun k hk => (hplain t ht).constraints k (mem_of_mem_later hk))
        (fun k hk => (hchecked ht).constraints k (mem_of_mem_later hk)) hmiddle)
      (hasDistinctTables_map (fun _ => rfl) h)
  refine ⟨texts, hmap, ?_⟩
  rw [foreignKeyStatements_eq]
  exact (htables.append hindexed).append hkeys

def schemaAsRead (d : Dialect) (s : Schema) : Schema :=
  withTables d (s.createOrder.map (asRead d))

theorem read_of_statements {source : String} {found : List Statement}
    (h : Splitter.statements (some d) source = .ok found) :
    read d source = ofStatements d (found.map (·.text)) := by
  unfold read
  rw [h]
  rfl

/-- What is written for a schema is read as the schema, from the statements as well as from a script
of them. -/
theorem read_write (h : IsPlainSchema d s) : ∃ texts, write d s = .ok texts ∧
    ofStatements d texts = .ok (schemaAsRead d s) ∧
    ((∀ x ∈ texts, x.length ≤ 100 * 1024 * 1024) →
      read d (script texts) = .ok (schemaAsRead d s)) ∧
    (schemaAsRead d s).tables.Perm (s.tables.map (asRead d)) := by
  have hnodup := names_nodup h.distinct
  have horder : ∀ t ∈ s.createOrder, t ∈ s.tables := fun t => (Schema.mem_createOrder hnodup).1
  have hperm := Schema.createOrder_perm hnodup
  have hdistinct : (withTables d s.createOrder).HasDistinctTables :=
    ((hperm.map _).map _).nodup_iff.2 h.distinct
  obtain ⟨texts, hmap, hleads⟩ := leads_statements (fun t ht => h.tables t (horder t ht))
    (fun t ht => h.indexes t (horder t ht)) hdistinct
  have hstatements : ofStatements d _ = .ok (schemaAsRead d s) := hleads.ofStatements
  refine ⟨_, ?_, hstatements, fun hsize => ?_, hperm.map _⟩
  · have hinline : (d == .sqlite && true) = (d == .sqlite) := Bool.and_true _
    unfold write
    dsimp only
    rw [hinline, hmap]
    rfl
  · obtain ⟨found, hfound, htexts⟩ := statements_script d _ hleads.isDefinition hsize
    rw [read_of_statements hfound, htexts, hstatements]

def divided : Schema where
  tables := [
    { name := "line;", columns := [{ name := "of,", typeName := "integer", default := some "-1" }]
      constraints := [{ kind := .foreignKey, columns := ["of,"]
                        referencedTable := some "a.\"order\"", referencedColumns := ["id"]
                        onDelete := some "CASCADE" }]
      indexes := [{ name := "--", kind := .unique, columns := [{ name := "of," }] }] },
    { name := "a.\"order\"", columns := [{ name := "id", typeName := "bigint", nullable := false
                                           autoIncrement := true }]
      primaryKey := ["id"] }]

theorem isPlainName_of_all {n : String} (hne : n ≠ "") (hn : n.toList.all (fun c =>
    !isBlank c && c != '(' && c != ')') = true) : IsPlainName n := by
  have hall := List.all_eq_true.1 hn
  simp only [Bool.and_eq_true, Bool.not_eq_true', bne_iff_ne, ne_eq] at hall
  exact ⟨hne, fun c hc => (hall c hc).1.1, fun hc => (hall _ hc).1.2 rfl,
    fun hc => (hall _ hc).2 rfl⟩

theorem isPlainSchema_divided : IsPlainSchema .postgresql divided := by
  have hword {w : String} (hne : w.toList ≠ []) (hw : w.toList.all isWord = true)
      (hlower : lower w = w) (hserial : TypeName.serialBase? w = none) :
      IsPlainType .postgresql w none none none [] :=
    .word (isWordText_of_all hne hw) hlower hserial (by rintro ⟨⟩)
  have hof : IsPlainColumn .postgresql []
      { name := "of,", typeName := "integer", default := some "-1" } := by
    refine ⟨hword (by decide) (by decide) (by decide) (by decide), ?_, by simp, by simp, by simp,
      rfl, rfl⟩
    rintro v ⟨⟩
    exact .number (-1)
  have hid : IsPlainColumn .postgresql ["id"]
      { name := "id", typeName := "bigint", nullable := false, autoIncrement := true } := by
    refine ⟨hword (by decide) (by decide) (by decide) (by decide), by simp, by simp, fun _ => ?_,
      by simp, rfl, rfl⟩
    exact ⟨rfl, rfl, by decide⟩
  have hactions : some "CASCADE" ∈ none :: actions.map some ∧ none ∈ none :: actions.map some := by
    decide
  have hkey : IsPlainConstraint
      { kind := .foreignKey, columns := ["of,"], referencedTable := some "a.\"order\""
        referencedColumns := ["id"], onDelete := some "CASCADE" } :=
    .foreignKey (by simp) (isPlainName_of_all (by decide) (by decide))
      (List.forall_mem_singleton.2 (isPlainName_of_all (by decide) (by decide)))
      hactions.1 hactions.2
  have hindex : IsPlainIndex .postgresql
      { name := "--", kind := .unique, columns := [{ name := "of," }] } :=
    ⟨.inr rfl, List.forall_mem_singleton.2 ⟨by simp⟩, rfl, rfl, by simp, rfl⟩
  refine ⟨?_, List.forall_mem_cons.2 ⟨?_, List.forall_mem_singleton.2 ?_⟩,
    List.forall_mem_cons.2 ⟨List.forall_mem_singleton.2 hindex, List.forall_mem_singleton.2
      (List.forall_mem_nil _)⟩⟩
  · unfold Schema.HasDistinctTables
    decide
  · exact ⟨List.forall_mem_singleton.2 hof, List.forall_mem_singleton.2 hkey, rfl, rfl⟩
  · exact ⟨List.forall_mem_singleton.2 hid, List.forall_mem_nil _, rfl, rfl⟩

theorem divided_read_write : ∃ texts, write .postgresql divided = .ok texts ∧
    ofStatements .postgresql texts = .ok (schemaAsRead .postgresql divided) ∧
    (schemaAsRead .postgresql divided).tables.map (·.name) = ["a.\"order\"", "line;"] := by
  obtain ⟨texts, hwrite, hread, -, -⟩ := read_write isPlainSchema_divided
  exact ⟨texts, hwrite, hread, by decide +kernel⟩

/-- What is not written: the sign of an enumeration and the values of a text; a scale below zero is
written and passed over. -/
def oversigned : Schema where
  tables := [
    { name := "t"
      columns := [
        { name := "size", typeName := "enum", enumValues := ["s"], unsigned := true },
        { name := "note", typeName := "text", enumValues := ["x"] },
        { name := "sum", typeName := "decimal", precision := some 10, scale := some (-2) }] }]

theorem not_read_write :
    ((write .mysql oversigned).bind (ofStatements .mysql)).toOption.map
        (·.tables.map (·.columns)) =
      some [[{ name := "size", typeName := "enum", enumValues := ["s"] },
        { name := "note", typeName := "text" }, { name := "sum", typeName := "decimal" }]] ∧
    oversigned.tables.map (·.columns) ≠
      [[{ name := "size", typeName := "enum", enumValues := ["s"] },
        { name := "note", typeName := "text" }, { name := "sum", typeName := "decimal" }]] :=
  ⟨by decide +kernel, by decide⟩

end SqlFerry.Ddl
