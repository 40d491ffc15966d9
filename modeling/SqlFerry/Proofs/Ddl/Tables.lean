import SqlFerry.Proofs.Ddl.Columns
import SqlFerry.Proofs.Ddl.Items
import SqlFerry.Proofs.Ddl.Phrase

/-!
# Tables

What is written for a table is read as the table without its indexes, and without the foreign keys
that are written later.
-/

namespace SqlFerry.Ddl

open Text Pattern Sql Building

variable {d : Dialect} {t u : Table} {c : Column} {cs : List Column} {k : Constraint}
  {text : String} {rest : Chars} {before : Option Char}

/-! ## Columns of a table -/

def keyOf (d : Dialect) (cs : List Column) (key : List String) : List String :=
  cs.foldl (fun key c => if d == .sqlite && c.autoIncrement then [c.name] else key) key

theorem gives_column (h : IsColumnText d c text)
    (hdistinct : Table.DistinctColumns (u.columns ++ [c])) :
    Gives (addColumn text.toList) u ()
      { u with columns := u.columns ++ [c], primaryKey := keyOf d [c] u.primaryKey } := by
  have hadd : Gives (change (·.addColumn c)) u () { u with columns := u.columns ++ [c] } :=
    .change (Table.addColumn_eq_ok hdistinct)
  unfold addColumn
  refine Gives.bind (.lift h.reads u) ?_
  dsimp only
  refine hadd.bind ?_
  rw [extrasOf, keyOf, List.foldl_cons, List.foldl_nil]
  split
  · refine Gives.forM_cons (.change ?_) (.pure () _)
    refine Table.setPrimaryKey_eq_ok rfl (Table.requireColumns_eq_ok.2 ?_)
    simp [Table.hasColumn, sameName]
  · exact .pure () _

theorem gives_columns {texts : List String} (h : List.Forall₂ (IsColumnText d) cs texts)
    (hdistinct : Table.DistinctColumns (u.columns ++ cs)) :
    Gives ((texts.map String.toList).forM addColumn) u ()
      { u with columns := u.columns ++ cs, primaryKey := keyOf d cs u.primaryKey } := by
  induction h generalizing u with
  | nil =>
    rw [List.append_nil]
    exact .pure () u
  | @cons c text cs texts hc _ ih =>
    have hfirst : Table.DistinctColumns (u.columns ++ [c]) := by
      refine hdistinct.sublist (List.Sublist.map _ ?_)
      exact (List.Sublist.refl _).append (List.singleton_sublist.2 List.mem_cons_self)
    refine Gives.forM_cons (gives_column hc hfirst) ?_
    have hrest := ih (u := { u with
        columns := u.columns ++ [c], primaryKey := keyOf d [c] u.primaryKey })
      (by simpa using hdistinct)
    simpa [keyOf] using hrest

theorem find?_sameName (hdistinct : Table.DistinctColumns cs) (hc : c ∈ cs) :
    cs.find? (sameName ·.name c.name) = some c := by
  induction cs with
  | nil => cases hc
  | cons x cs ih =>
    obtain ⟨hx, hcs⟩ := List.nodup_cons.1 hdistinct
    rcases List.mem_cons.1 hc with rfl | hc
    · exact List.find?_cons_of_pos (by simp [sameName])
    · rw [List.find?_cons_of_neg, ih hcs hc]
      rw [sameName, beq_iff_eq]
      exact fun hsame => hx (List.mem_map.2 ⟨c, hc, hsame.symm⟩)

theorem keyOf_eq {key init : List String}
    (h : ∀ c ∈ cs, (d == .sqlite && c.autoIncrement) = true → [c.name] = key) :
    keyOf d cs init = if cs.any (fun c => d == .sqlite && c.autoIncrement) then key else init := by
  induction cs generalizing init with
  | nil => rfl
  | cons c cs ih =>
    obtain ⟨hc, hcs⟩ := List.forall_mem_cons.1 h
    rw [keyOf, List.foldl_cons, ← keyOf, ih hcs, List.any_cons]
    cases hauto : d == .sqlite && c.autoIncrement with
    | false => rfl
    | true =>
      rw [hc hauto, if_pos rfl, ite_self, Bool.true_or, if_pos rfl]

/-- The key is read from the columns if it is written with one of them. -/
theorem keyOf_columns (hplain : ∀ c ∈ t.columns, IsPlainColumn d t.primaryKey c)
    (hdistinct : Table.DistinctColumns t.columns) :
    keyOf d t.columns [] = if keyIsInline d t then t.primaryKey else [] := by
  have hkey : ∀ c ∈ t.columns, (d == .sqlite && c.autoIncrement) = true →
      [c.name] = t.primaryKey := by
    intro c hc hauto
    obtain ⟨hd, hauto⟩ := Bool.and_eq_true_iff.1 hauto
    obtain rfl : d = .sqlite := by simpa using hd
    exact ((hplain c hc).automatic hauto).2.2.2.symm
  rw [keyOf_eq hkey]
  congr 1
  rw [eq_iff_iff]
  constructor
  · intro hany
    obtain ⟨c, hc, hauto⟩ := List.any_eq_true.1 hany
    have hname := hkey c hc hauto
    obtain ⟨hd, hauto⟩ := Bool.and_eq_true_iff.1 hauto
    obtain rfl : d = .sqlite := by simpa using hd
    have hcolumn : t.column? c.name = some c := find?_sameName hdistinct hc
    unfold keyIsInline
    rw [← hname]
    dsimp only
    rw [hcolumn]
    exact hauto
  · intro hinline
    unfold keyIsInline at hinline
    split at hinline
    · next name hname =>
      cases hcolumn : t.column? name with
      | none =>
        rw [hcolumn] at hinline
        cases hinline
      | some c =>
        rw [hcolumn] at hinline
        exact List.any_eq_true.2 ⟨c, List.mem_of_find?_eq_some hcolumn, hinline⟩
    · cases hinline

/-! ## How a table is written -/

def keyItems (d : Dialect) (t : Table) : List Chars :=
  if t.primaryKey.isEmpty || keyIsInline d t then []
  else ["PRIMARY KEY".toList ++ ' ' :: namesText d t.primaryKey]

def constraintsInside (d : Dialect) (t : Table) : List Constraint :=
  t.constraints.filter fun k => k.kind != .foreignKey || d == .sqlite

def itemTexts (d : Dialect) (t : Table) (texts : List String) : List Chars :=
  texts.map String.toList ++
    (keyItems d t ++ (constraintsInside d t).map fun k => (constraint d k).toList)

def itemsText (d : Dialect) (t : Table) (texts : List String) : Chars :=
  ['\n', ' ', ' '] ++ [',', '\n', ' ', ' '].intercalate (itemTexts d t texts) ++ ['\n']

def openingText (d : Dialect) (name : String) : Chars :=
  "CREATE".toList ++ [' '] ++ "TABLE".toList ++ [' '] ++ (d.quote name).toList ++ [' ']

def tableText (d : Dialect) (t : Table) (texts : List String) : Chars :=
  openingText d t.name ++ ('(' :: itemsText d t texts ++ [')'])

theorem tableText_eq (d : Dialect) (t : Table) (texts : List String) :
    tableText d t texts = Splitter.spaced ["CREATE", "TABLE"] ++
      ((d.quote t.name).toList ++ ' ' :: ('(' :: itemsText d t texts ++ [')'])) := by
  have happend (a b x y : Chars) : a ++ [' '] ++ b ++ [' '] ++ x ++ [' '] ++ y =
      a ++ ' ' :: (b ++ ' ' :: (x ++ ' ' :: y)) := by simp
  rw [Splitter.spaced_cons, Splitter.spaced_cons]
  exact happend _ _ _ _

/-- A table that can be read again, but for its indexes. -/
structure IsPlainTable (d : Dialect) (t : Table) : Prop where
  columns : ∀ c ∈ t.columns, IsPlainColumn d t.primaryKey c
  constraints : ∀ k ∈ t.constraints, IsPlainConstraint k
  options : t.options = []
  checked : t.check = .ok ()

theorem exists_columnTexts (h : ∀ c ∈ cs, IsPlainColumn d t.primaryKey c) : ∃ texts,
    cs.mapM (column d · (some t)) = .ok texts ∧ List.Forall₂ (IsColumnText d) cs texts := by
  induction cs with
  | nil => exact ⟨[], rfl, .nil⟩
  | cons c cs ih =>
    obtain ⟨hc, hcs⟩ := List.forall_mem_cons.1 h
    obtain ⟨text, htext, his⟩ := exists_columnText hc
    obtain ⟨texts, htexts, hall⟩ := ih hcs
    refine ⟨text :: texts, ?_, .cons his hall⟩
    rw [List.mapM_cons, htext, htexts]
    rfl

theorem createTable_eq (h : IsPlainTable d t) {texts : List String}
    (htexts : t.columns.mapM (column d · (some t)) = .ok texts) :
    createTable d t (d == .sqlite) = .ok (ofChars (tableText d t texts)) := by
  have hoptions : (if d == .mysql then mysqlOptions t.options else "") = "" := by
    rw [h.options]
    split <;> rfl
  have hkey : (if t.primaryKey.isEmpty || keyIsInline d t then []
      else ["PRIMARY KEY (" ++ d.quoteAll t.primaryKey ++ ")"]).map String.toList =
        keyItems d t := by
    unfold keyItems
    split
    · rfl
    · simp [namesText]
  have hopening : "CREATE TABLE ".toList = Splitter.spaced ["CREATE", "TABLE"] := rfl
  have hopen : " (\n  ".toList = [' ', '(', '\n', ' ', ' '] := rfl
  have hcomma : ",\n  ".toList = [',', '\n', ' ', ' '] := rfl
  have hclose : "\n)".toList = ['\n', ')'] := rfl
  unfold createTable
  rw [htexts]
  refine congrArg Except.ok (String.toList_injective ?_)
  rw [hoptions]
  simp only [Bool.false_eq_true, if_false, String.toList_append, String.toList_intercalate,
    List.map_append, List.map_map, hkey, hopening, hopen, hcomma, hclose, ofChars,
    String.toList_ofList, tableText_eq, itemsText, itemTexts, constraintsInside, Function.comp_def]
  simp

/-! ## How a table is read -/

/-- A word that begins with no quote is refused where a name in quotes stands. -/
theorem refuses_word_quote {w : String} (d : Dialect) (n : String)
    (hw : ∀ x, opensWith w.toList ('"' :: x) = false ∧ opensWith w.toList ('\x60' :: x) = false) :
    Refuses (word w) before ((d.quote n).toList ++ rest) := by
  refine refuses_word ?_
  rw [Dialect.toList_quote]
  cases d with
  | mysql => exact (hw _).2
  | sqlite | postgresql => exact (hw _).1

/-- The opening of a definition is read, also where a table that exists is to stay. -/
theorem reads_opening (d : Dialect) (n : String) (guard : Chars)
    (hblank : ∀ x, ∀ c ∈ (guard ++ ((d.quote n).toList ++ x)).head?, isBlank c = false)
    (hguard : ∀ before, Reads (maybe ["IF", "NOT", "EXISTS"]) before guard
      ((d.quote n).toList ++ ([' '] ++ (['('] ++ rest))) []) :
    Reads Sql.createTable none ("CREATE".toList ++ [' '] ++ "TABLE".toList ++ [' '] ++ guard ++
      (d.quote n).toList ++ [' '] ++ ['(']) rest [(1, (d.quote n).toList)] := by
  have hcreate : Reads (word "CREATE" ++ blanks1) none ("CREATE".toList ++ [' '])
      ("TABLE".toList ++ ([' '] ++ (guard ++ ((d.quote n).toList ++ ([' '] ++ (['('] ++ rest))))))
        [] :=
    .seq (reads_word rfl rfl)
      (reads_space1 (by rintro c ⟨⟩; decide))
  have hreplace (before : Option Char) (x : Chars) :
      Refuses (phrase ["OR", "REPLACE"] ++ blanks1) before ("TABLE".toList ++ x) :=
    .seq_left (.seq_left (.seq_left (refuses_word rfl)))
  have hglobal (before : Option Char) (x : Chars) :
      Refuses (choice [word "GLOBAL", word "LOCAL"] ++ blanks1) before ("TABLE".toList ++ x) :=
    .seq_left (.alt (refuses_word rfl) (refuses_word rfl))
  have htemporary (before : Option Char) (x : Chars) :
      Refuses (choice [word "TEMP" ++ opt (word "ORARY") ++ blanks1, word "UNLOGGED" ++ blanks1])
        before ("TABLE".toList ++ x) :=
    .alt (.seq_left (.seq_left (refuses_word rfl))) (.seq_left (refuses_word rfl))
  have hname (before : Option Char) : Reads (capture 1 qname) before (d.quote n).toList
      ([' '] ++ (['('] ++ rest)) [(1, (d.quote n).toList)] :=
    .capture 1 (reads_qname (reads_ident d n (head?_ne_nameQuote d (by decide) _)) (by rintro ⟨⟩))
  have hgap (before : Option Char) : Reads blanks before [' '] (['('] ++ rest) [] :=
    reads_space (by rintro c ⟨⟩; decide)
  have htable (before : Option Char) (x : Chars) :
      Reads (word "TABLE") before "TABLE".toList x [] := reads_word rfl rfl
  have hopening := ((hcreate.seq_skip (hreplace _ _)).seq_skip (hglobal _ _)).seq_skip
    (htemporary _ _)
  have hwords := ((hopening.seq (htable _ _)).seq (reads_space1 (hblank _))).seq (hguard _)
  exact ((hwords.seq (hname _)).seq (hgap _)).seq (.one rfl)

theorem reads_createTable (d : Dialect) (n : String) :
    Reads Sql.createTable none (openingText d n ++ ['(']) rest [(1, (d.quote n).toList)] := by
  have hguard (before : Option Char) : Reads (maybe ["IF", "NOT", "EXISTS"]) before []
      ((d.quote n).toList ++ ([' '] ++ (['('] ++ rest))) [] :=
    .skip (.seq_left (.seq_left (.seq_left (refuses_word_quote d n fun _ => ⟨rfl, rfl⟩))))
  have h := reads_opening d n [] (not_isBlank_head?_quote d n) hguard
  rwa [List.append_nil] at h

variable {texts : List String}

theorem exists_columnText_of_mem (htexts : List.Forall₂ (IsColumnText d) cs texts) :
    ∀ text ∈ texts, ∃ c, IsColumnText d c text := by
  induction htexts with
  | nil => simp
  | cons hc _ ih => exact List.forall_mem_cons.2 ⟨⟨_, hc⟩, ih⟩

theorem phrase_itemTexts (hplain : ∀ k ∈ t.constraints, IsPlainConstraint k)
    (htexts : List.Forall₂ (IsColumnText d) cs texts) : ∀ x ∈ itemTexts d t texts, Phrase d x := by
  intro x hx
  rcases List.mem_append.1 hx with hx | hx
  · obtain ⟨text, htext, rfl⟩ := List.mem_map.1 hx
    obtain ⟨c, hc⟩ := exists_columnText_of_mem htexts text htext
    exact hc.phrase
  · rcases List.mem_append.1 hx with hx | hx
    · unfold keyItems at hx
      split at hx
      · cases hx
      · rw [List.mem_singleton.1 hx]
        exact phrase_key d _
    · obtain ⟨k, hk, rfl⟩ := List.mem_map.1 hx
      exact (isTableItem_constraint (hplain k (List.mem_filter.1 hk).1) d).1

theorem partition_itemTexts (hplain : ∀ k ∈ t.constraints, IsPlainConstraint k)
    (htexts : List.Forall₂ (IsColumnText d) cs texts) :
    (itemTexts d t texts).partition isTableItem = (keyItems d t ++
      (constraintsInside d t).map fun k => (constraint d k).toList, texts.map String.toList) := by
  have hcolumns : ∀ x ∈ texts.map String.toList, isTableItem x = false := by
    intro x hx
    obtain ⟨text, htext, rfl⟩ := List.mem_map.1 hx
    obtain ⟨c, hc⟩ := exists_columnText_of_mem htexts text htext
    exact isTableItem_of_quote hc.head
  have hitems : ∀ x ∈ keyItems d t ++ (constraintsInside d t).map fun k => (constraint d k).toList,
      isTableItem x = true := by
    intro x hx
    rcases List.mem_append.1 hx with hx | hx
    · unfold keyItems at hx
      split at hx
      · cases hx
      · rw [List.mem_singleton.1 hx]
        exact isTableItem_word (u := "PRIMARY") (by decide) _
    · obtain ⟨k, hk, rfl⟩ := List.mem_map.1 hx
      exact (isTableItem_constraint (hplain k (List.mem_filter.1 hk).1) d).2
  have hnot : ∀ x ∈ keyItems d t ++ (constraintsInside d t).map fun k => (constraint d k).toList,
      ¬(not ∘ isTableItem) x = true := by
    intro x hx
    rw [Function.comp, hitems x hx]
    decide
  rw [List.partition_eq_filter_filter, itemTexts, List.filter_append,
    List.filter_eq_nil_iff.2 fun x hx => by rw [hcolumns x hx]; exact Bool.false_ne_true,
    List.filter_eq_self.2 hitems, List.nil_append, List.filter_append,
    List.filter_eq_nil_iff.2 hnot, List.append_nil,
    List.filter_eq_self.2 fun x hx => by rw [Function.comp, hcolumns x hx]; rfl]

theorem gives_constraints {ks : List Constraint} (hplain : ∀ k ∈ ks, IsPlainConstraint k)
    (hchecked : ∀ k ∈ ks, t.checkConstraint k = .ok ()) (hu : u.columns = t.columns) :
    Gives ((ks.map fun k => (constraint d k).toList).forM (addItem d)) u ()
      { u with constraints := u.constraints ++ ks } := by
  induction ks generalizing u with
  | nil =>
    rw [List.append_nil]
    exact .pure () u
  | cons k ks ih =>
    obtain ⟨hk, hks⟩ := List.forall_mem_cons.1 hplain
    obtain ⟨hcheck, hchecks⟩ := List.forall_mem_cons.1 hchecked
    refine Gives.forM_cons (gives_constraint hk (Table.addConstraint_eq_ok hu hcheck)) ?_
    have hrest := ih hks hchecks (u := { u with constraints := u.constraints ++ [k] }) hu
    simpa using hrest

def tableInside (d : Dialect) (t : Table) (text : Chars) : Table :=
  { name := t.name, columns := t.columns, primaryKey := t.primaryKey
    constraints := constraintsInside d t, definition := some (ofChars text) }

theorem gives_items (h : IsPlainTable d t) (hu : u.columns = t.columns)
    (hkey : u.primaryKey = if keyIsInline d t then t.primaryKey else []) :
    Gives ((keyItems d t ++ (constraintsInside d t).map fun k => (constraint d k).toList).forM
        (addItem d)) u ()
      { u with
        primaryKey := t.primaryKey, constraints := u.constraints ++ constraintsInside d t } := by
  have hchecked := Table.check_eq_ok.1 h.checked
  have hinside : ∀ k ∈ constraintsInside d t, k ∈ t.constraints :=
    fun k hk => (List.mem_filter.1 hk).1
  have hconstraints {v : Table} (hv : v.columns = t.columns) :=
    gives_constraints (u := v) (d := d) (fun k hk => h.constraints k (hinside k hk))
      (fun k hk => hchecked.constraints k (hinside k hk)) hv
  unfold keyItems
  split
  · next hnone =>
    have hsame : u.primaryKey = t.primaryKey := by
      rw [hkey]
      split
      · rfl
      · next hinline =>
        have hempty : t.primaryKey.isEmpty = true := by simpa [hinline] using hnone
        exact (List.isEmpty_iff.1 hempty).symm
    rw [← hsame]
    exact hconstraints hu
  · exact Gives.forM_cons (gives_key d (Table.setPrimaryKey_eq_ok hu hchecked.key))
      (hconstraints hu)

theorem isDefinition_tableText (h : IsPlainTable d t)
    (htexts : List.Forall₂ (IsColumnText d) t.columns texts) :
    Balanced (itemsText d t texts) ∧ IsDefinition d (tableText d t texts) := by
  have hphrases := phrase_itemTexts h.constraints htexts
  have hpre : ∀ c ∈ ['\n', ' ', ' '], c = ' ' ∨ c = '\n' := by simp
  have hpost : ∀ c ∈ ['\n'], c = ' ' ∨ c = '\n' := by simp
  refine ⟨balanced_list hphrases hpre hpre hpost, ?_⟩
  rw [tableText_eq]
  exact .intro (by decide) ((Phrase.name d t.name).space (.group hphrases hpre hpre hpost))

theorem slice_group (pre x : Chars) :
    slice (pre ++ ('(' :: x ++ [')'])) (pre.length + 1) (pre.length + (x.length + 1)) = x := by
  have hlength : pre.length + 1 = (pre ++ ['(']).length := by
    rw [List.length_append, List.length_singleton]
  have htext : pre ++ ('(' :: x ++ [')']) = pre ++ ['('] ++ (x ++ [')']) := by simp
  rw [slice, htext, hlength, List.drop_left, ← hlength]
  exact List.take_left' (by omega)

theorem drop_group (pre x : Chars) :
    (pre ++ ('(' :: x ++ [')'])).drop (pre.length + (x.length + 1) + 1) = [] := by
  refine List.drop_of_length_le ?_
  simp only [List.length_append, List.length_cons, List.length_nil]
  omega

theorem items_itemsText (hplain : ∀ k ∈ t.constraints, IsPlainConstraint k)
    (htexts : List.Forall₂ (IsColumnText d) t.columns texts) :
    items (itemsText d t texts) = itemTexts d t texts := by
  have hpadding : ∀ c ∈ ['\n', ' ', ' '], isBlank c = true :=
    List.forall_mem_cons.2 ⟨by decide, List.forall_mem_cons.2
      ⟨by decide, List.forall_mem_singleton.2 (by decide)⟩⟩
  exact items_intercalate (fun x hx => (phrase_itemTexts hplain htexts x hx).toIsItem) hpadding
    hpadding (List.forall_mem_singleton.2 (by decide))

/-- The columns and the other items that are written for a table build it. -/
theorem gives_table (h : IsPlainTable d t)
    (htexts : List.Forall₂ (IsColumnText d) t.columns texts) (text : Chars) :
    Gives ((texts.map String.toList).forM addColumn >>= fun _ => (keyItems d t ++
        (constraintsInside d t).map fun k => (constraint d k).toList).forM (addItem d))
      { name := t.name, definition := some (ofChars text) } () (tableInside d t text) := by
  have hdistinct := (Table.check_eq_ok.1 h.checked).distinct
  have hcolumns := gives_columns htexts hdistinct
    (u := { name := t.name, definition := some (ofChars text) })
  have habout := gives_items h (u := { name := t.name, columns := t.columns
                                       primaryKey := keyOf d t.columns []
                                       definition := some (ofChars text) })
    rfl (keyOf_columns h.columns hdistinct)
  exact hcolumns.bind (f := fun _ => _) habout

/-- What is written for a table is read as the table with what is written inside it. -/
theorem readTable_text (h : IsPlainTable d t)
    (htexts : List.Forall₂ (IsColumnText d) t.columns texts) :
    readTable d (tableText d t texts) = .ok (some (tableInside d t (tableText d t texts))) := by
  obtain ⟨hbalanced, hdefinition⟩ := isDefinition_tableText h htexts
  have hread : Reads Sql.createTable none (openingText d t.name ++ ['('])
      (itemsText d t texts ++ [')']) [(1, (d.quote t.name).toList)] := reads_createTable d t.name
  obtain ⟨m, hm, hstop, his⟩ := hread.exists_match?
  have htext : openingText d t.name ++ ['('] ++ (itemsText d t texts ++ [')']) =
      tableText d t texts := by
    simp [tableText]
  have hopening : m.stop - 1 = (openingText d t.name).length := by
    rw [hstop, List.length_append, List.length_singleton, Nat.add_sub_cancel]
  have hdrop : (tableText d t texts).drop (openingText d t.name).length =
      '(' :: itemsText d t texts ++ [')'] := List.drop_left
  have hslice := slice_group (openingText d t.name) (itemsText d t texts)
  have hrest := drop_group (openingText d t.name) (itemsText d t texts)
  rw [← tableText] at hslice hrest
  have hclosing := closing?_group hbalanced []
  have hname : unquote (m.group 1) = t.name := by
    rw [his.group]
    exact unquote_quote d t.name
  have hbuild := gives_table h htexts (tableText d t texts)
  unfold readTable
  dsimp only
  rw [hdefinition.phrase.toIsItem.trim, ← htext, hm]
  dsimp only
  rw [htext, hopening, hdrop, hclosing]
  dsimp only
  rw [hslice, hrest, hname, items_itemsText h.constraints htexts,
    partition_itemTexts h.constraints htexts]
  rw [Gives] at hbuild
  dsimp only
  rw [hbuild]
  rfl

end SqlFerry.Ddl
