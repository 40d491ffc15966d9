import SqlFerry.Proofs.Ddl.Building
import SqlFerry.Proofs.Ddl.References

/-!
# Items of tables

The keys and constraints in the definition of a table: how each is written, that it is told from a
column, and that a table takes it as it was.
-/

namespace SqlFerry.Ddl

open Text Pattern Sql Building

variable {d : Dialect} {k : Constraint} {w rest x : Chars} {name : Option String} {t t' : Table}

/-! ## Constraints that can be read again -/

/-- A constraint that can be read again. The names of what a foreign key refers to have no blanks
and parentheses. -/
inductive IsPlainConstraint : Constraint → Prop where
  | unique {name : Option String} {columns : List String} (hname : ∀ n ∈ name, n ≠ "")
      (hne : columns ≠ []) : IsPlainConstraint { name, kind := .unique, columns }
  | foreignKey {name : Option String} {columns : List String} {table : String}
      {refs : List String} {delete update : Option String} (hname : ∀ n ∈ name, n ≠ "")
      (htable : IsPlainName table) (hrefs : ∀ n ∈ refs, IsPlainName n) (hdelete : IsAction delete)
      (hupdate : IsAction update) :
      IsPlainConstraint
        { name, kind := .foreignKey, columns, referencedTable := some table,
          referencedColumns := refs, onDelete := delete, onUpdate := update }

def nameText (d : Dialect) (name : Option String) : Chars :=
  name.elim [] fun n => "CONSTRAINT".toList ++ [' '] ++ (d.quote n).toList ++ [' ']

inductive IsConstraintText (d : Dialect) : Constraint → Chars → Prop where
  | unique {name : Option String} {columns : List String} (hne : columns ≠ []) :
      IsConstraintText d { name, kind := .unique, columns }
        ("UNIQUE".toList ++ ' ' :: namesText d columns)
  | foreignKey {name : Option String} {columns : List String} {table : String}
      {refs : List String} {delete update : Option String} (htable : IsPlainName table)
      (hrefs : ∀ n ∈ refs, IsPlainName n) (hdelete : IsAction delete) (hupdate : IsAction update) :
      IsConstraintText d
        { name, kind := .foreignKey, columns, referencedTable := some table,
          referencedColumns := refs, onDelete := delete, onUpdate := update }
        ("FOREIGN KEY".toList ++ ' ' :: keyText d columns table refs delete update)

theorem toList_named (hname : ∀ n ∈ name, n ≠ "") : (if given name then
    "CONSTRAINT " ++ d.quote (name.getD "") ++ " " else "").toList = nameText d name := by
  cases name with
  | none => simp [given, nameText]
  | some n =>
    have hgiven : given (some n) = true := by simpa [given] using hname n rfl
    rw [hgiven]
    simp [nameText]

theorem toList_action (event : String) {a : Option String} (ha : IsAction a) :
    (if given a then " ON " ++ event ++ " " ++ a.getD "" else "").toList = actionText event a := by
  cases a with
  | none => simp [given, actionText]
  | some a =>
    have hgiven : given (some a) = true := by
      have hall : ∀ a ∈ actions, given (some a) = true := by decide
      exact hall a (ha.mem a rfl)
    rw [hgiven]
    simp [actionText, eventText]

theorem IsPlainConstraint.exists_text (h : IsPlainConstraint k) (d : Dialect) :
    ∃ x, (constraint d k).toList = nameText d k.name ++ x ∧ IsConstraintText d k x := by
  cases h with
  | unique hname hne =>
    refine ⟨_, ?_, .unique hne⟩
    rw [← toList_named hname]
    simp [constraint, namesText]
  | @foreignKey name columns table refs delete update hname htable hrefs hdelete hupdate =>
    refine ⟨_, ?_, .foreignKey htable hrefs hdelete hupdate⟩
    have hd := toList_action "DELETE" hdelete
    have hu := toList_action "UPDATE" hupdate
    rw [← toList_named hname]
    simp only [constraint, keyText, actionTexts, ← hd, ← hu]
    cases refs with
    | nil => simp [namesText, targetText]
    | cons r refs => simp [namesText, targetText]

/-! ## Items and columns -/

theorem startsWith_upper (w : Chars) (rest : Chars) (hw : w.flatMap upperChar = w)
    (keyword : String) : startsWith keyword.toList (upper (ofChars (w ++ rest))).toList =
      startsWith keyword.toList (w ++ rest.flatMap upperChar) := by
  rw [toList_upper, ofChars, String.toList_ofList, List.flatMap_append, hw]

theorem not_opens {keyword : String} (hw : w.flatMap upperChar = w)
    (hkeyword : ∀ y, startsWith keyword.toList (w ++ y) = false) (rest : Chars) :
    ¬startsWith keyword.toList (upper (ofChars (w ++ rest))).toList = true := by
  rw [startsWith_upper w rest hw, hkeyword]
  exact Bool.false_ne_true

/-- A text that begins with a name in quotes is no item of a table. -/
theorem isTableItem_of_quote {cs : Chars} (h : cs.head? = some d.nameQuote) :
    isTableItem cs = false := by
  obtain ⟨cs, rfl⟩ := List.head?_eq_some_iff.1 h
  have hblank : isBlank d.nameQuote = false := not_isBlank_nameQuote d
  have htrim : trimLeft (d.nameQuote :: cs) = d.nameQuote :: cs :=
    trimLeft_eq_self (by rintro c ⟨⟩; exact hblank)
  have hupper : upperChar d.nameQuote = [d.nameQuote] := by
    cases d <;> rfl
  have hfirst (w : String) (hw : w.toList.head? ≠ some d.nameQuote) :
      upper (ofChars ((d.nameQuote :: cs).takeWhile (!isBlank ·))) ≠ w := by
    rintro rfl
    refine hw ?_
    rw [List.takeWhile_cons_of_pos (by rw [hblank]; rfl), toList_upper, ofChars,
      String.toList_ofList, List.flatMap_cons, hupper]
    rfl
  have hkeywords : ∀ w ∈ ["PRIMARY", "FOREIGN", "CONSTRAINT", "CHECK", "FULLTEXT", "SPATIAL",
      "EXCLUDE"] ++ ["UNIQUE", "KEY", "INDEX"], w.toList.head? ≠ some d.nameQuote := by
    cases d <;> decide
  unfold isTableItem
  rw [htrim]
  dsimp only
  rw [if_neg, if_neg]
  · rw [List.contains_iff_mem]
    exact fun hmem => hfirst _ (hkeywords _ (List.mem_append_right _ hmem)) rfl
  · rw [List.contains_iff_mem]
    exact fun hmem => hfirst _ (hkeywords _ (List.mem_append_left _ hmem)) rfl

theorem takeWhile_word {w : Chars} (hw : IsWordText w) (rest : Chars) :
    (w ++ ' ' :: rest).takeWhile (!isBlank ·) = w := by
  rw [List.takeWhile_append_of_pos fun c hc => by rw [hw.not_isBlank c hc]; rfl,
    List.takeWhile_cons_of_neg (by decide), List.append_nil]

theorem trimLeft_word {w : Chars} (hw : IsWordText w) (rest : Chars) :
    trimLeft (w ++ rest) = w ++ rest :=
  trimLeft_eq_self (hw.beginsSolid rest)

/-- An item of a table is known by its first word. -/
theorem isTableItem_word {u : String} (hu : u ∈ ["PRIMARY", "FOREIGN", "CONSTRAINT"])
    (rest : Chars) : isTableItem (u.toList ++ ' ' :: rest) = true := by
  have hword : IsWordText u.toList := by
    have hall : ∀ u ∈ ["PRIMARY", "FOREIGN", "CONSTRAINT"], u.toList ≠ [] ∧
        u.toList.all isWord = true := by decide
    exact isWordText_of_all (hall u hu).1 (hall u hu).2
  have hupper : upper u ∈ ["PRIMARY", "FOREIGN", "CONSTRAINT"] := by
    have hall : ∀ u ∈ ["PRIMARY", "FOREIGN", "CONSTRAINT"],
        upper u ∈ ["PRIMARY", "FOREIGN", "CONSTRAINT"] := by decide
    exact hall u hu
  unfold isTableItem
  rw [trimLeft_word hword]
  dsimp only
  rw [takeWhile_word hword, ofChars, String.ofList_toList, if_pos]
  rw [List.contains_iff_mem]
  exact List.mem_append_left ["CHECK", "FULLTEXT", "SPATIAL", "EXCLUDE"] hupper

theorem reads_itemHead (rest : Chars) : Reads itemHead none ['('] rest [] := by
  have hkey : Reads (opt (choice [word "KEY", word "INDEX"] ++ blanks1)) none [] ('(' :: rest) [] :=
    .skip (.seq_left (.alt (refuses_word rfl) (refuses_word rfl)))
  have hname (before : Option Char) : Reads (opt (ident ++ blanks)) before [] ('(' :: rest) [] :=
    .skip (.seq_left refuses_ident_open)
  have husing (before : Option Char) : Reads (opt (word "USING" ++ blanks1 ++ plus wordChar ++
      blanks)) before [] ('(' :: rest) [] :=
    .skip (.seq_left (.seq_left (.seq_left (refuses_word rfl))))
  exact ((hkey.seq (y := []) (hname _)).seq (y := []) (husing _)).seq (b := char '(') (y := ['('])
    (.one rfl)

theorem head?_quoteAll (d : Dialect) (ns : List String) :
    ∀ c ∈ ((d.quoteAll ns).toList ++ [')']).head?, c ∈ [d.nameQuote, ')'] := by
  rw [Dialect.toList_quoteAll]
  cases ns with
  | nil =>
    rintro c ⟨⟩
    simp
  | cons n ns =>
    have hne : (d.quote n).toList ≠ [] := (isItem_quote d n).ne_nil
    rw [List.map_cons]
    cases ns.map fun x => (d.quote x).toList with
    | nil =>
      rw [List.intercalate_singleton, List.head?_append_of_ne_nil _ hne, head?_quote]
      rintro c ⟨⟩
      simp
    | cons x xs =>
      rw [List.intercalate_cons_cons, List.append_assoc, List.append_assoc,
        List.head?_append_of_ne_nil _ hne, head?_quote]
      rintro c ⟨⟩
      simp

theorem isTableItem_unique (d : Dialect) (columns : List String) :
    isTableItem ("UNIQUE".toList ++ ' ' :: namesText d columns) = true := by
  have hword : IsWordText "UNIQUE".toList := isWordText_of_all (by decide) (by decide)
  have hupper : upper "UNIQUE" = "UNIQUE" := by decide
  have htrim : trimLeft (' ' :: namesText d columns) =
      ['('] ++ ((d.quoteAll columns).toList ++ [')']) := rfl
  have hplain : ∀ c ∈ [d.nameQuote, ')'], isBlank c = false ∧ isAsciiDigit c = false := by
    refine List.forall_mem_cons.2 ⟨?_, List.forall_mem_singleton.2 (by decide)⟩
    cases d <;> decide
  obtain ⟨m, hm, -, his⟩ := (reads_itemHead ((d.quoteAll columns).toList ++ [')'])).exists_match?
  have hhead := head?_quoteAll d columns
  have hdigit : (((trimLeft m.rest).head?.map isAsciiDigit).getD false) = false := by
    rw [his.rest, trimLeft_eq_self fun c hc => (hplain c (hhead c hc)).1]
    cases hc : ((d.quoteAll columns).toList ++ [')']).head? with
    | none => rfl
    | some c => exact (hplain c (hhead c hc)).2
  unfold isTableItem
  rw [trimLeft_word hword]
  dsimp only
  rw [takeWhile_word hword, ofChars, String.ofList_toList, hupper, if_neg (by decide),
    if_pos (by decide), List.drop_left, htrim, hm]
  dsimp only
  rw [hdigit]
  rfl

/-! ## Taking an item -/

theorem reads_constraintName (d : Dialect) (n : String)
    (hrest : ∀ c ∈ rest.head?, isBlank c = false) : Reads constraintName none
      ("CONSTRAINT".toList ++ [' '] ++ (d.quote n).toList ++ [' ']) rest
      [(1, (d.quote n).toList)] := by
  have hword : Reads (word "CONSTRAINT") none "CONSTRAINT".toList
      ([' '] ++ ((d.quote n).toList ++ ([' '] ++ rest))) [] := reads_word rfl rfl
  have hblank : Reads (word "CONSTRAINT" ++ blanks1) none ("CONSTRAINT".toList ++ [' '])
      ((d.quote n).toList ++ ([' '] ++ rest)) [] :=
    hword.seq (reads_space1 (not_isBlank_head?_quote d n _))
  have hname : Reads (word "CONSTRAINT" ++ blanks1 ++ capture 1 ident) none
      ("CONSTRAINT".toList ++ [' '] ++ (d.quote n).toList) ([' '] ++ rest)
      [(1, (d.quote n).toList)] :=
    hblank.seq (.capture 1 (reads_ident d n (head?_ne_nameQuote d (by decide) _)))
  exact hname.seq (reads_space1 hrest)

theorem IsConstraintText.phrase (h : IsConstraintText d k x) : Phrase d x := by
  cases h with
  | unique =>
    have hword : Phrase d "UNIQUE".toList := .keyword "UNIQUE" (by decide) (by decide)
    exact hword.space (phrase_namesText d _)
  | foreignKey _ _ hdelete hupdate =>
    have hforeign : Phrase d "FOREIGN".toList := .keyword "FOREIGN" (by decide) (by decide)
    have hwords : Phrase d "FOREIGN KEY".toList :=
      hforeign.space (.keyword "KEY" (by decide) (by decide))
    exact hwords.space (phrase_keyText hdelete hupdate)

theorem phrase_named (hx : Phrase d x) (name : Option String) :
    Phrase d (nameText d name ++ x) := by
  cases name with
  | none => exact hx
  | some n =>
    have hword : Phrase d "CONSTRAINT".toList := .keyword "CONSTRAINT" (by decide) (by decide)
    have h := hword.space ((Phrase.name d n).space hx)
    simpa [nameText] using h

/-- An item is taken as what stands behind its name. -/
theorem addItem_named (hx : Phrase d x) (hrefuses : Refuses constraintName none x)
    (name : Option String) :
    addItem d (nameText d name ++ x) = addNamed d name x := by
  unfold addItem
  rw [(phrase_named hx name).toIsItem.trim]
  dsimp only
  cases name with
  | none =>
    rw [nameText, Option.elim_none, List.nil_append, hrefuses.match?]
  | some n =>
    obtain ⟨m, hm, -, his⟩ := (reads_constraintName d n hx.first).exists_match?
    rw [nameText, Option.elim_some, hm]
    dsimp only
    rw [his.group, his.rest, hx.toIsItem.trim]
    exact congrArg (addNamed d · x) (congrArg some (unquote_quote d n))

theorem phrase_key (d : Dialect) (columns : List String) :
    Phrase d ("PRIMARY KEY".toList ++ ' ' :: namesText d columns) := by
  have hprimary : Phrase d "PRIMARY".toList := .keyword "PRIMARY" (by decide) (by decide)
  have hwords : Phrase d "PRIMARY KEY".toList :=
    hprimary.space (.keyword "KEY" (by decide) (by decide))
  exact hwords.space (phrase_namesText d columns)

theorem gives_key (d : Dialect) {columns : List String}
    (h : t.setPrimaryKey columns = .ok t') :
    Gives (addItem d ("PRIMARY KEY".toList ++ ' ' :: namesText d columns)) t () t' := by
  have hfind : find? ['('] ("PRIMARY KEY".toList ++ ' ' :: namesText d columns) = some 12 := rfl
  have hdrop : ("PRIMARY KEY".toList ++ ' ' :: namesText d columns).drop 12 =
      '(' :: (d.quoteAll columns).toList ++ ')' :: [] := rfl
  have hopens : startsWith "PRIMARY KEY".toList
      (upper (ofChars ("PRIMARY KEY".toList ++ ' ' :: namesText d columns))).toList = true :=
    startsWith_upper _ _ (by decide) _
  have hitem : addItem d ("PRIMARY KEY".toList ++ ' ' :: namesText d columns) =
      addNamed d none ("PRIMARY KEY".toList ++ ' ' :: namesText d columns) := by
    have hnone : Refuses constraintName none ("PRIMARY KEY".toList ++ ' ' :: namesText d columns) :=
      .seq_left (.seq_left (.seq_left (refuses_word rfl)))
    have h := addItem_named (phrase_key d columns) hnone (none : Option String)
    rwa [nameText, Option.elim_none, List.nil_append] at h
  rw [hitem]
  unfold addNamed
  refine (congrArg (Gives · t () t') (if_pos hopens)).mpr ?_
  rw [hfind]
  dsimp only
  rw [hdrop, group_append (balanced_quoteAll d columns)]
  refine Gives.bind (.lift (indexColumns_quoteAll d columns) t) (.change ?_)
  simpa [Function.comp_def] using h

theorem reads_indexHead (rest : Chars) : Reads indexHead none ['('] rest [] := by
  have hname : Reads (opt (capture 1 ident)) none [] ('(' :: rest) [] :=
    .skip (.capture 1 refuses_ident_open)
  have hblanks (before : Option Char) : Reads blanks before [] ('(' :: rest) [] :=
    reads_blanks (List.forall_mem_nil _) (by rintro c ⟨⟩; decide)
  have husing (before : Option Char) : Reads (opt (word "USING" ++ blanks1 ++
      capture 2 (plus wordChar) ++ blanks)) before [] ('(' :: rest) [] :=
    .skip (.seq_left (.seq_left (.seq_left (refuses_word rfl))))
  exact ((hname.seq (y := []) (hblanks _)).seq (y := []) (husing _)).seq (b := char '(')
    (y := ['(']) (.one rfl)

theorem addNamed_unique (origin : Dialect) (name : Option String) (rest : Chars) :
    addNamed origin name ("UNIQUE".toList ++ rest) =
      addIndexItem origin name ("UNIQUE".toList ++ rest) := by
  have hupper : "UNIQUE".toList.flatMap upperChar = "UNIQUE".toList := by decide
  unfold addNamed
  refine (if_neg (not_opens hupper (fun _ => rfl) rest)).trans ?_
  refine (if_neg (not_opens hupper (fun _ => rfl) rest)).trans ?_
  refine (if_neg (not_opens hupper (fun _ => rfl) rest)).trans ?_
  exact if_neg (not_opens hupper (fun _ => rfl) rest)

theorem groupAt_namesText (d : Dialect) (columns : List String) {m : Match} (hm : m.stop = 1) :
    groupAt (namesText d columns) m = (namesText d columns, []) := by
  have hclosing := closing?_group (balanced_quoteAll d columns) []
  have hgroup := group_append (balanced_quoteAll d columns) []
  have hdrop : (namesText d columns).drop (m.stop - 1) =
      '(' :: (d.quoteAll columns).toList ++ [')'] := by
    rw [hm]
    rfl
  unfold groupAt
  rw [hdrop, hclosing, hgroup]
  rfl

/-- A list of columns behind the word is a constraint. -/
theorem gives_unique {columns : List String} (hne : columns ≠ [])
    (h : t.addConstraint { name, kind := .unique, columns } = .ok t') :
    Gives (addNamed d name ("UNIQUE".toList ++ ' ' :: namesText d columns)) t () t' := by
  have hkind : [("UNIQUE", Index.Kind.unique), ("FULLTEXT", .fulltext), ("SPATIAL", .spatial)].find?
      (fun k => startsWith k.1.toList
        (upper (ofChars ("UNIQUE".toList ++ ' ' :: namesText d columns))).toList) =
          some ("UNIQUE", .unique) :=
    List.find?_cons_of_pos (startsWith_upper _ _ (by decide) "UNIQUE")
  have hbody : trim (("UNIQUE".toList ++ ' ' :: namesText d columns).drop "UNIQUE".length) =
      namesText d columns := by
    have h : trim ([' '] ++ namesText d columns ++ []) = _ :=
      (phrase_namesText d columns).toIsItem.trim_of_blanks
        (List.forall_mem_singleton.2 (by decide)) (List.forall_mem_nil _)
    rwa [List.append_nil] at h
  have hkey : (choice [word "KEY", word "INDEX"] ++ edge ++ blanks).match?
      (namesText d columns) = none :=
    Refuses.match? (.seq_left (.seq_left (.alt (refuses_word rfl) (refuses_word rfl))))
  obtain ⟨m, hm, hstop, his⟩ :=
    (reads_indexHead ((d.quoteAll columns).toList ++ [')'])).exists_match?
  have hhead : indexHead.match? (namesText d columns) = some m := hm
  have hown : (m.group? 1).map unquote = none := by
    rw [his.group?]
    rfl
  have hnonempty : (columns.map fun n => ({ name := n } : IndexColumn)).isEmpty = false := by
    simpa using hne
  rw [addNamed_unique]
  unfold addIndexItem
  dsimp only
  rw [hkind]
  dsimp only
  rw [hbody, hkey]
  dsimp only
  rw [hhead]
  dsimp only
  rw [groupAt_namesText d columns hstop]
  dsimp only
  refine Gives.bind (.lift (indexColumns_quoteAll d columns) t) ?_
  dsimp only
  rw [hown, hnonempty, if_pos (by decide)]
  refine .change ?_
  simpa [Function.comp_def] using h

theorem gives_foreignKey {columns refs : List String} {table : String}
    {delete update : Option String} (htable : IsPlainName table)
    (hrefs : ∀ n ∈ refs, IsPlainName n) (hd : IsAction delete) (hu : IsAction update)
    (h : t.addConstraint
      { name, kind := .foreignKey, columns, referencedTable := some table,
        referencedColumns := refs, onDelete := delete, onUpdate := update } = .ok t') :
    Gives (addNamed d name ("FOREIGN KEY".toList ++ ' ' :: keyText d columns table refs delete
      update)) t () t' := by
  have hupper : "FOREIGN KEY".toList.flatMap upperChar = "FOREIGN KEY".toList := by decide
  have hbody : addNamed d name ("FOREIGN KEY".toList ++ ' ' :: keyText d columns table refs delete
      update) = (do
        let c ← foreignKey name (' ' :: keyText d columns table refs delete update)
        change (·.addConstraint c)) := by
    unfold addNamed
    refine (if_neg (not_opens hupper (fun _ => rfl) _)).trans ?_
    exact if_pos (startsWith_upper _ _ hupper "FOREIGN KEY")
  rw [hbody]
  exact Gives.bind (.lift (foreignKey_text name htable hrefs hd hu) t) (.change h)

/-- A table takes a constraint from what is written for it. -/
theorem gives_constraint (hk : IsPlainConstraint k) (h : t.addConstraint k = .ok t') :
    Gives (addItem d (constraint d k).toList) t () t' := by
  obtain ⟨x, htext, hx⟩ := hk.exists_text d
  have hrefuses : Refuses constraintName none x := by
    cases hx with
    | unique => exact .seq_left (.seq_left (.seq_left (refuses_word rfl)))
    | foreignKey => exact .seq_left (.seq_left (.seq_left (refuses_word rfl)))
  rw [htext, addItem_named hx.phrase hrefuses]
  cases hx with
  | unique hne => exact gives_unique hne h
  | foreignKey htable hrefs hdelete hupdate =>
    exact gives_foreignKey htable hrefs hdelete hupdate h

/-- What is written for a key or a constraint is an item of one, and is told from a column. -/
theorem isTableItem_constraint (hk : IsPlainConstraint k) (d : Dialect) :
    Phrase d (constraint d k).toList ∧ isTableItem (constraint d k).toList = true := by
  obtain ⟨x, htext, hx⟩ := hk.exists_text d
  rw [htext]
  refine ⟨phrase_named hx.phrase k.name, ?_⟩
  cases hname : k.name with
  | some n =>
    have h := isTableItem_word (u := "CONSTRAINT") (by decide)
      ((d.quote n).toList ++ [' '] ++ x)
    simpa [nameText] using h
  | none =>
    rw [nameText, Option.elim_none, List.nil_append]
    cases hx with
    | unique => exact isTableItem_unique d _
    | foreignKey =>
      exact isTableItem_word (u := "FOREIGN") (by decide) _

end SqlFerry.Ddl
