import SqlFerry.Ddl
import SqlFerry.Proofs.Ddl.Indexes
import SqlFerry.Proofs.Ddl.Phrase
import SqlFerry.Proofs.Schema.Order

/-!
# What one statement does

A statement that defines a table adds it to the schema, one that defines an index adds the index to
its table, and one that adds a foreign key adds it to the constraints of its table.
-/

namespace SqlFerry.Ddl

open Text Pattern Sql Building

variable {d : Dialect} {s : Schema} {t u : Table} {k : Constraint} {i : Index}
  {table : String} {item rest : Chars} {before : Option Char}

/-! ## Foreign keys that are added -/

def alterText (d : Dialect) (table : String) : Chars :=
  "ALTER".toList ++ [' '] ++ "TABLE".toList ++ [' '] ++ (d.quote table).toList ++ [' ']

def addText (item : Chars) : Chars :=
  "ADD".toList ++ ' ' :: item

theorem toList_addForeignKey (d : Dialect) (table : String) (k : Constraint) :
    (addForeignKey d table k).toList = alterText d table ++ addText (constraint d k).toList := by
  have hopening : "ALTER TABLE ".toList = "ALTER".toList ++ [' '] ++ "TABLE".toList ++ [' '] := by
    decide
  have hadd : " ADD ".toList = [' '] ++ "ADD".toList ++ [' '] := by decide
  unfold addForeignKey alterText addText
  rw [String.toList_append, String.toList_append, String.toList_append, hopening, hadd]
  simp only [List.append_assoc, List.cons_append, List.nil_append]

theorem phrase_addText (hitem : Phrase d item) : Phrase d (addText item) :=
  .space (.keyword "ADD" (by decide) (by decide)) hitem

theorem isDefinition_alterText (hitem : Phrase d item) (table : String) :
    IsDefinition d (alterText d table ++ addText item) := by
  have hdefinition : IsDefinition d (Splitter.spaced ["ALTER", "TABLE"] ++
      ((d.quote table).toList ++ ' ' :: addText item)) :=
    .intro (by decide) ((Phrase.name d table).space (phrase_addText hitem))
  have happend (a b x y : Chars) : a ++ [' '] ++ b ++ [' '] ++ x ++ [' '] ++ y =
      a ++ ' ' :: (b ++ ' ' :: (x ++ ' ' :: y)) := by simp
  have hnil : Splitter.spaced [] = [] := rfl
  rw [Splitter.spaced_cons, Splitter.spaced_cons, hnil, List.nil_append, ← happend] at hdefinition
  exact hdefinition

/-- The opening of a statement that changes a table is read up to the name. -/
theorem reads_alterTable (d : Dialect) (table : String)
    (hname : ∀ before, Reads (capture 1 qname) before (d.quote table).toList rest
      [(1, (d.quote table).toList)]) :
    Reads alterTable none ("ALTER".toList ++ [' '] ++ "TABLE".toList ++ [' '] ++
      (d.quote table).toList) rest [(1, (d.quote table).toList)] := by
  have hone (w : String) (x : Chars)
      (hw : ∀ x, opensWith w.toList ('"' :: x) = false ∧ opensWith w.toList ('\x60' :: x) = false)
      (before : Option Char) : Refuses (word w) before ((d.quote table).toList ++ x) :=
    refuses_word_quote d table hw
  have halter : Reads (word "ALTER" ++ blanks1) none ("ALTER".toList ++ [' '])
      ("TABLE".toList ++ ([' '] ++ ((d.quote table).toList ++ rest))) [] :=
    .seq (reads_word rfl rfl)
      (reads_space1 (by rintro c ⟨⟩; decide))
  have htable := (halter.seq (reads_word (s := "TABLE") rfl rfl)).seq
    (reads_space1 (not_isBlank_head?_quote d _ _))
  have honly := htable.seq_skip (b := phrase ["ONLY"] ++ blanks1)
    (.seq_left (hone "ONLY" _ (fun _ => ⟨rfl, rfl⟩) _))
  have hexists := honly.seq_skip (b := phrase ["IF", "EXISTS"] ++ blanks1)
    (.seq_left (.seq_left (.seq_left (hone "IF" _ (fun _ => ⟨rfl, rfl⟩) _))))
  have hagain := hexists.seq_skip (b := phrase ["ONLY"] ++ blanks1)
    (.seq_left (hone "ONLY" _ (fun _ => ⟨rfl, rfl⟩) _))
  exact hagain.seq (hname _)

theorem reads_altered (d : Dialect) (table : String) (item : Chars) :
    Reads altered none (alterText d table) (addText item) [(1, (d.quote table).toList)] := by
  have hadd : ∀ c ∈ (addText item).head?, isBlank c = false ∧ c ≠ '.' := by
    rintro c ⟨⟩
    decide
  exact (reads_alterTable d table fun _ => reads_quoted d table 1 _ hadd).seq
    (reads_space1 fun c hc => (hadd c hc).1)

/-- What an item of a table that is added may begin with. -/
theorem IsPlainConstraint.exists_word (hk : IsPlainConstraint k) (d : Dialect) :
    ∃ w ∈ ["CONSTRAINT", "UNIQUE", "FOREIGN"], ∃ rest,
      (constraint d k).toList = w.toList ++ rest := by
  obtain ⟨x, htext, hx⟩ := hk.exists_text d
  rw [htext]
  cases k.name with
  | some n =>
    refine ⟨"CONSTRAINT", by decide, [' '] ++ (d.quote n).toList ++ [' '] ++ x, ?_⟩
    simp [nameText]
  | none =>
    cases hx with
    | unique => exact ⟨"UNIQUE", by decide, _, rfl⟩
    | foreignKey => exact ⟨"FOREIGN", by decide, _, rfl⟩

theorem gives_alter (hk : IsPlainConstraint k) (h : t.addConstraint k = .ok u) :
    Gives (alter d (addText (constraint d k).toList)) t () u := by
  obtain ⟨hphrase, hitem⟩ := isTableItem_constraint hk d
  obtain ⟨w, hw, rest, htext⟩ := hk.exists_word d
  have hclause : addText (constraint d k).toList = ("ADD ".toList ++ w.toList) ++ rest := by
    rw [htext, List.append_assoc]
    rfl
  have hwords : ∀ w ∈ ["CONSTRAINT", "UNIQUE", "FOREIGN"],
      ("ADD ".toList ++ w.toList).flatMap upperChar = "ADD ".toList ++ w.toList := by decide
  have hcolumn : ∀ y,
      startsWith "ADD COLUMN".toList (("ADD ".toList ++ w.toList) ++ y) = false := by
    intro y
    simp only [List.mem_cons, List.not_mem_nil, or_false] at hw
    rcases hw with rfl | rfl | rfl <;> rfl
  have hopens : startsWith "ADD ".toList
      (upper (ofChars (addText (constraint d k).toList))).toList = true := by
    rw [hclause, startsWith_upper _ _ (hwords w hw)]
    rfl
  have hdrop : trim ((addText (constraint d k).toList).drop "ADD ".length) =
      (constraint d k).toList := hphrase.toIsItem.trim
  unfold alter
  dsimp only
  rw [if_neg (hclause ▸ not_opens (hwords w hw) hcolumn rest), if_pos hopens, hdrop, if_pos hitem]
  exact gives_constraint hk h

/-! ## What one statement does -/

theorem refuses_createTable (h : opensWith "CREATE".toList rest = false) :
    Refuses Sql.createTable before rest := by
  unfold Sql.createTable
  -- the word is the leftmost part of the pattern
  repeat with_reducible first
    | exact refuses_word h
    | apply Refuses.seq_left

theorem readIndex_eq_none (htrim : trim rest = rest) (h : opensWith "CREATE".toList rest = false) :
    readIndex d rest = .ok none := by
  have hrefuses : Refuses createIndexHead none rest := by
    unfold createIndexHead
    repeat with_reducible first
      | exact refuses_word h
      | apply Refuses.seq_left
  unfold readIndex
  dsimp only
  rw [htrim, hrefuses.match?]
  rfl

theorem items_single (h : Phrase d item) : items item = [item] := by
  have hitems : items ([] ++ [','].intercalate [item] ++ []) = [item] :=
    items_intercalate (List.forall_mem_singleton.2 h.toIsItem) (List.forall_mem_nil _)
      (List.forall_mem_nil _) (List.forall_mem_nil _)
  rwa [List.intercalate_singleton, List.nil_append, List.append_nil] at hitems

theorem apply_addForeignKey (hk : IsPlainConstraint k) (ht : s.table? table = some t)
    (hadd : t.addConstraint k = .ok u) :
    apply d s (addForeignKey d table k).toList = (s.replace u, .ok ()) := by
  have hphrase := (isTableItem_constraint hk d).1
  have hdefinition := isDefinition_alterText hphrase table
  have htable : Sql.createTable.match? (alterText d table ++ addText (constraint d k).toList) =
      none := (refuses_createTable rfl).match?
  have hindex : readIndex d (alterText d table ++ addText (constraint d k).toList) = .ok none :=
    readIndex_eq_none hdefinition.phrase.toIsItem.trim rfl
  obtain ⟨m, hm, -, his⟩ := (reads_altered d table (constraint d k).toList).exists_match?
  have hname : unquote (m.group 1) = table := by
    rw [his.group]
    exact unquote_quote d table
  have hgives : Gives ([addText (constraint d k).toList].forM (alter d)) t () u :=
    .forM_cons (gives_alter hk hadd) (.pure () u)
  unfold apply
  dsimp only
  rw [toList_addForeignKey, hdefinition.phrase.toIsItem.trim, htable, if_neg (by decide), hindex]
  dsimp only
  rw [hm]
  dsimp only
  rw [hname, his.rest, items_single (phrase_addText hphrase), ht]
  dsimp only
  rw [hgives]

/-- The definition of a table is refused where something else is defined. -/
theorem refuses_createTable_other (hblank : ∀ c ∈ rest.head?, isBlank c = false)
    (hrest : ∀ w ∈ ["OR", "GLOBAL", "LOCAL", "TEMP", "UNLOGGED", "TABLE"],
      opensWith w.toList rest = false) :
    Refuses Sql.createTable none ("CREATE".toList ++ [' '] ++ rest) := by
  have hnone (w : String) (hw : w ∈ ["OR", "GLOBAL", "LOCAL", "TEMP", "UNLOGGED", "TABLE"])
      (before : Option Char) : Refuses (word w) before rest := refuses_word (hrest w hw)
  have hcreate : Only (word "CREATE" ++ blanks1) none ("CREATE".toList ++ [' ']) rest :=
    .seq (only_word rfl) (only_blanks1 hblank)
  have hreplace := hcreate.seq (y := []) (b := maybe ["OR", "REPLACE"])
    (.skip (.seq_left (.seq_left (.seq_left (hnone "OR" (by decide) _)))))
  have hglobal := hreplace.seq (y := [])
    (b := opt (choice [word "GLOBAL", word "LOCAL"] ++ blanks1))
    (.skip (.seq_left (.alt (hnone "GLOBAL" (by decide) _) (hnone "LOCAL" (by decide) _))))
  have htemporary := hglobal.seq (y := [])
    (b := opt (choice [word "TEMP" ++ opt (word "ORARY") ++ blanks1, word "UNLOGGED" ++ blanks1]))
    (.skip (.alt (.seq_left (.seq_left (hnone "TEMP" (by decide) _)))
      (.seq_left (hnone "UNLOGGED" (by decide) _))))
  have htable : Refuses Sql.createTable none ("CREATE".toList ++ [' '] ++ [] ++ [] ++ [] ++ rest) :=
    .seq_left (.seq_left (.seq_left (.seq_left (.seq_left
      (.after htemporary (hnone "TABLE" (by decide) _))))))
  simpa only [List.append_nil] using htable

theorem refuses_createTable_index (h : IsPlainIndex d i) (table : String) :
    Refuses Sql.createTable none (indexText d table i) := by
  have happend (a k w n o t m x : Chars) : a ++ [' '] ++ k ++ w ++ [' '] ++ n ++ [' '] ++ o ++
      [' '] ++ t ++ [' '] ++ m ++ x = a ++ [' '] ++
        (k ++ (w ++ ([' '] ++ n ++ [' '] ++ o ++ [' '] ++ t ++ [' '] ++ m ++ x))) := by simp
  obtain ⟨rest, htext⟩ : ∃ rest, indexText d table i = "CREATE".toList ++ [' '] ++
      (kindText i.kind ++ ("INDEX".toList ++ rest)) := ⟨_, happend _ _ _ _ _ _ _ _⟩
  have hkind : kindText i.kind = [] ∨ kindText i.kind = "UNIQUE".toList ++ [' '] := by
    rcases h.kind with hk | hk <;> rw [hk]
    · exact .inl rfl
    · exact .inr rfl
  rw [htext]
  refine refuses_createTable_other ?_ ?_
  · rcases hkind with hk | hk <;> rw [hk] <;> · rintro c ⟨⟩; decide
  · simp only [List.forall_mem_cons, List.not_mem_nil, false_implies, implies_true, and_true]
    rcases hkind with hk | hk <;> rw [hk] <;> exact ⟨rfl, rfl, rfl, rfl, rfl, rfl⟩

theorem apply_indexText (h : IsPlainIndex d i) (ht : s.table? table = some t)
    (hadd : t.addIndex { i with origin := some d } = .ok u) :
    apply d s (indexText d table i) = (s.replace u, .ok ()) := by
  have hgives : Gives (change (·.addIndex { i with origin := some d })) t () u := .change hadd
  unfold apply
  dsimp only
  rw [(isDefinition_indexText h table).phrase.toIsItem.trim,
    (refuses_createTable_index h table).match?, if_neg (by decide), readIndex_text h table]
  dsimp only
  rw [ht]
  dsimp only
  rw [hgives]

theorem apply_tableText (h : IsPlainTable d t) {texts : List String}
    (htexts : List.Forall₂ (IsColumnText d) t.columns texts) (hnew : s.table? t.name = none) :
    apply d s (tableText d t texts) =
      ({ s with tables := s.tables ++ [tableInside d t (tableText d t texts)] }, .ok ()) := by
  have htrim := (isDefinition_tableText h htexts).2.phrase.toIsItem.trim
  have hread : Reads Sql.createTable none (openingText d t.name ++ ['('])
      (itemsText d t texts ++ [')']) [(1, (d.quote t.name).toList)] := reads_createTable d t.name
  obtain ⟨m, hm, -⟩ := hread.exists_match?
  have hmatch : Sql.createTable.match? (tableText d t texts) = some m := by
    rw [← hm, tableText]
    simp only [List.append_assoc, List.cons_append, List.nil_append]
  unfold apply
  dsimp only
  rw [htrim, hmatch, Option.isSome_some, if_pos rfl, readTable_text h htexts]
  dsimp only [tableInside]
  rw [hnew, Option.isSome_none, if_neg Bool.false_ne_true]
  unfold Schema.addTable
  rw [Schema.named?_of_table? hnew]
  rfl

end SqlFerry.Ddl
