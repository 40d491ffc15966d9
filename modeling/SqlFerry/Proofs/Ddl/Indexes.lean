import SqlFerry.Proofs.Ddl.Tables

/-!
# Indexes

What is written for an index by columns is read as the index, of the dialect it was read in.
-/

namespace SqlFerry.Ddl

open Text Pattern Sql

variable {d : Dialect} {i : Index} {table : String} {rest : Chars} {before : Option Char}

/-- An index that can be read again: by columns, on all rows, with an access method that the dialect
knows. -/
structure IsPlainIndex (d : Dialect) (i : Index) : Prop where
  kind : i.kind = .plain ∨ i.kind = .unique
  columns : ∀ c ∈ i.columns, IsPlainIndexColumn d c
  expression : i.expression = none
  condition : i.condition = none
  method : ∀ m ∈ i.method, m ∈ Index.methods d
  comment : i.comment = none

/-! ## How an index is written -/

def methodBefore (d : Dialect) (method : Option String) : Chars :=
  if d == .postgresql then
    method.elim [] fun m => "USING".toList ++ [' '] ++ m.toList ++ [' ']
  else []

def methodAfter (d : Dialect) (method : Option String) : Chars :=
  if d == .mysql then method.elim [] fun m => ' ' :: ("USING".toList ++ ' ' :: (upper m).toList)
  else []

def columnsText (d : Dialect) (cs : List IndexColumn) : Chars :=
  [',', ' '].intercalate (cs.map (indexColumnText d))

def kindText (kind : Index.Kind) : Chars :=
  if kind == .unique then "UNIQUE".toList ++ [' '] else []

def headText (d : Dialect) (table : String) (i : Index) : Chars :=
  "CREATE".toList ++ [' '] ++ kindText i.kind ++ "INDEX".toList ++ [' '] ++
    (d.quote i.name).toList ++ [' '] ++ "ON".toList ++ [' '] ++ (d.quote table).toList ++ [' '] ++
    methodBefore d i.method

def indexText (d : Dialect) (table : String) (i : Index) : Chars :=
  headText d table i ++ ('(' :: columnsText d i.columns ++ ')' :: methodAfter d i.method)

theorem toList_indexTarget (h : IsPlainIndex d i) :
    (indexTarget d i).toList = '(' :: columnsText d i.columns ++ [')'] := by
  have hgiven : (given i.expression && i.columns.isEmpty) = false := by
    rw [h.expression]
    rfl
  unfold indexTarget
  rw [hgiven, if_neg Bool.false_ne_true]
  simp only [String.toList_append, String.toList_intercalate, List.map_map]
  rw [List.map_congr_left (g := indexColumnText d) fun c hc => ?_]
  · rfl
  · obtain ⟨name, length, direction⟩ := c
    rw [Function.comp, String.toList_append, String.toList_append, indexColumnText]
    congr 1
    · congr 1
      cases length with
      | none => rfl
      | some n =>
        obtain ⟨rfl, -, hne⟩ := (h.columns _ hc).length n rfl
        have hwritten : (n != 0 && Dialect.mysql == .mysql) = true := by simpa using hne
        dsimp only
        rw [hwritten, if_pos rfl]
        simp [lengthText, toString]
    · cases direction with
      | none => rfl
      | some dir =>
        dsimp only
        rw [String.toList_append]
        rfl

theorem toList_indexParts {keyword before target after : String}
    (hkeyword : ("CREATE " ++ keyword ++ " ").toList =
      "CREATE".toList ++ [' '] ++ kindText i.kind ++ "INDEX".toList ++ [' '])
    (hbefore : before.toList ++ [' '] = [' '] ++ methodBefore d i.method)
    (htarget : target.toList = '(' :: columnsText d i.columns ++ [')'])
    (hafter : after.toList = methodAfter d i.method) :
    ("CREATE " ++ keyword ++ " " ++ d.quote i.name ++ " ON " ++ d.quote table ++ before ++ " " ++
      target ++ after ++ "").toList = indexText d table i := by
  have hon : " ON ".toList = [' '] ++ "ON".toList ++ [' '] := by decide
  have hspace : " ".toList = [' '] := rfl
  calc
    _ = ("CREATE " ++ keyword ++ " ").toList ++ (d.quote i.name).toList ++ " ON ".toList ++
        (d.quote table).toList ++ (before.toList ++ " ".toList) ++ target.toList ++
          after.toList := by
      simp only [String.toList_append, String.append_empty, List.append_assoc]
    _ = _ := by
      have happend (a b o t m x y : Chars) : a ++ b ++ ([' '] ++ o ++ [' ']) ++ t ++ ([' '] ++ m) ++
          ('(' :: x ++ [')']) ++ y =
            a ++ b ++ [' '] ++ o ++ [' '] ++ t ++ [' '] ++ m ++ ('(' :: x ++ ')' :: y) := by simp
      rw [hkeyword, hon, hspace, hbefore, htarget, hafter]
      exact happend _ _ _ _ _ _ _

theorem given_method (h : IsPlainIndex d i) : given i.method = i.method.isSome := by
  have hmethods : ∀ m ∈ Index.methods d, given (some m) = true := by
    cases d <;> decide
  cases hm : i.method with
  | none => rfl
  | some m => exact hmethods m (h.method m hm)

theorem isEmpty_method (h : IsPlainIndex d i) :
    (!(i.method.getD "").isEmpty) = i.method.isSome := by
  have hgiven := given_method h
  cases hm : i.method with
  | none => rfl
  | some m => rwa [hm] at hgiven

theorem toList_using : " USING ".toList = [' '] ++ "USING".toList ++ [' '] := by
  decide

theorem toList_methodBefore (h : IsPlainIndex d i) :
    (if !(i.method.getD "").isEmpty && d == .postgresql then
      " USING " ++ i.method.getD "" else "").toList ++ [' '] =
        [' '] ++ methodBefore d i.method := by
  rw [isEmpty_method h, methodBefore]
  cases d with
  | mysql | sqlite => cases i.method <;> rfl
  | postgresql =>
    cases i.method with
    | none => rfl
    | some m =>
      simp only [Option.isSome_some, Bool.true_and, beq_self_eq_true, if_true, Option.getD_some,
        Option.elim_some, String.toList_append, toList_using, List.append_assoc]

theorem toList_methodAfter (h : IsPlainIndex d i) :
    (if !(i.method.getD "").isEmpty && d == .mysql then
      " USING " ++ upper (i.method.getD "") else "").toList = methodAfter d i.method := by
  rw [isEmpty_method h, methodAfter]
  cases d with
  | postgresql | sqlite => cases i.method <;> rfl
  | mysql =>
    cases i.method with
    | none => rfl
    | some m =>
      simp only [Option.isSome_some, Bool.true_and, beq_self_eq_true, if_true, Option.getD_some,
        Option.elim_some, String.toList_append, toList_using, List.append_assoc, List.nil_append,
        List.cons_append]

theorem createIndex_eq (h : IsPlainIndex d i) (table : String) :
    createIndex d table i = some (ofChars (indexText d table i)) := by
  have hprimary : (i.kind == .primary) = false := by
    rcases h.kind with hk | hk <;> rw [hk] <;> rfl
  have hmethod : (if given i.method then i.method.getD "" else "") = i.method.getD "" := by
    rw [given_method h]
    cases i.method <;> rfl
  unfold createIndex
  rw [hprimary, if_neg Bool.false_ne_true]
  refine congrArg some (String.toList_injective ?_)
  rw [hmethod, h.condition, ofChars, String.toList_ofList]
  refine toList_indexParts ?_ (toList_methodBefore h) (toList_indexTarget h) (toList_methodAfter h)
  rcases h.kind with hk | hk
  · rw [hk]
    have hplain : ("CREATE " ++ "INDEX" ++ " ").toList =
        "CREATE".toList ++ [' '] ++ kindText .plain ++ "INDEX".toList ++ [' '] := by decide
    exact hplain
  · rw [hk]
    have hunique : ("CREATE " ++ "UNIQUE INDEX" ++ " ").toList =
        "CREATE".toList ++ [' '] ++ kindText .unique ++ "INDEX".toList ++ [' '] := by decide
    exact hunique

theorem phrase_columnsText (d : Dialect) (cs : List IndexColumn) :
    Phrase d ('(' :: columnsText d cs ++ [')']) := by
  have h : Phrase d ('(' :: ([] ++ [',', ' '].intercalate (cs.map (indexColumnText d)) ++ []) ++
      [')']) :=
    .group (List.forall_mem_map.2 fun c _ => phrase_indexColumnText d c) (List.forall_mem_nil _)
      (List.forall_mem_singleton.2 (.inl rfl)) (List.forall_mem_nil _)
  rwa [List.nil_append, List.append_nil] at h

/-- The columns with the access method before or behind them. -/
theorem phrase_methodText (h : IsPlainIndex d i) : Phrase d (methodBefore d i.method ++
    ('(' :: columnsText d i.columns ++ ')' :: methodAfter d i.method)) := by
  have hcolumns := phrase_columnsText d i.columns
  have husing : Phrase d "USING".toList := .keyword "USING" (by decide) (by decide)
  have hmethods : ∀ m ∈ Index.methods d, (m.toList ≠ [] ∧ m.toList.all isWord = true) ∧
      (upper m).toList ≠ [] ∧ (upper m).toList.all isWord = true := by
    cases d <;> decide
  have hwhole {before after : Chars}
      (h : Phrase d (before ++ ('(' :: columnsText d i.columns ++ [')'] ++ after))) :
      Phrase d (before ++ ('(' :: columnsText d i.columns ++ ')' :: after)) := by
    simpa using h
  cases hm : i.method with
  | none =>
    have hnone : methodBefore d none = [] ∧ methodAfter d none = [] := by
      cases d <;> exact ⟨rfl, rfl⟩
    rw [hnone.1, hnone.2]
    exact hcolumns
  | some m =>
    obtain ⟨hword, hupper⟩ := hmethods m (h.method m hm)
    have hbefore := husing.space (.space (.keyword m hword.1 hword.2) hcolumns)
    have hafter := hcolumns.space (husing.space (.keyword (upper m) hupper.1 hupper.2))
    cases d with
    | sqlite => exact absurd (h.method m hm) (by simp [Index.methods])
    | mysql => exact @hwhole [] _ hafter
    | postgresql =>
      have happend (a b x : Chars) :
          a ++ [' '] ++ b ++ [' '] ++ x = a ++ ' ' :: (b ++ ' ' :: x) := by
        simp
      have hnone : methodAfter .postgresql (some m) = [] := rfl
      refine hwhole ?_
      rw [← happend] at hbefore
      rw [hnone, List.append_nil]
      exact hbefore

theorem isDefinition_indexText (h : IsPlainIndex d i) (table : String) :
    IsDefinition d (indexText d table i) := by
  have hon : Phrase d "ON".toList := .keyword "ON" (by decide) (by decide)
  have hrest := (Phrase.name d i.name).space (hon.space ((Phrase.name d table).space
    (phrase_methodText h)))
  have happend (a k w n o t m x : Chars) : a ++ [' '] ++ k ++ w ++ [' '] ++ n ++ [' '] ++ o ++
      [' '] ++ t ++ [' '] ++ m ++ x =
        a ++ ' ' :: (k ++ w ++ [' '] ++ (n ++ ' ' :: (o ++ ' ' :: (t ++ ' ' :: (m ++ x))))) := by
    simp
  have hopening : ∃ ws ∈ Splitter.openings, ∀ x, Splitter.spaced ws ++ x =
      "CREATE".toList ++ ' ' :: (kindText i.kind ++ "INDEX".toList ++ [' '] ++ x) := by
    rcases h.kind with hk | hk
    · refine ⟨["CREATE", "INDEX"], by decide, fun x => ?_⟩
      rw [hk, Splitter.spaced_cons, Splitter.spaced_cons]
      simp [Splitter.spaced, kindText]
    · refine ⟨["CREATE", "UNIQUE", "INDEX"], by decide, fun x => ?_⟩
      rw [hk]
      simp [Splitter.spaced, kindText]
  obtain ⟨ws, hws, htext⟩ := hopening
  have hdefinition := IsDefinition.intro hws hrest
  rw [htext, ← happend] at hdefinition
  exact hdefinition

/-! ## How an index is read -/

def methodGroups (d : Dialect) (method : Option String) : List (Nat × Chars) :=
  if d == .postgresql then method.elim [] fun m => [(4, m.toList)] else []

def kindGroups (kind : Index.Kind) : List (Nat × Chars) :=
  if kind == .unique then [(1, "UNIQUE".toList ++ [' '])] else []

def indexGroups (d : Dialect) (table : String) (i : Index) : List (Nat × Chars) :=
  methodGroups d i.method ++
    (3, (d.quote table).toList) :: (2, (d.quote i.name).toList) :: kindGroups i.kind

theorem reads_kindText (kind : Index.Kind) (x : Chars) : Reads (word "CREATE" ++ blanks1 ++
    opt (capture 1 (choice [word "UNIQUE", word "FULLTEXT", word "SPATIAL"] ++ blanks1))) none
      ("CREATE".toList ++ [' '] ++ kindText kind) ("INDEX".toList ++ x)
      (kindGroups kind) := by
  have hcreate (y : Chars) (hy : ∀ c ∈ y.head?, isBlank c = false) :
      Reads (word "CREATE" ++ blanks1) none ("CREATE".toList ++ [' ']) y [] :=
    .seq (reads_word rfl rfl) (reads_space1 hy)
  unfold kindText kindGroups
  split
  · have hunique (before : Option Char) : Reads (choice [word "UNIQUE", word "FULLTEXT",
        word "SPATIAL"] ++ blanks1) before ("UNIQUE".toList ++ [' ']) ("INDEX".toList ++ x) [] :=
      .seq (.left (reads_word rfl rfl))
        (reads_space1 (by rintro c ⟨⟩; decide))
    exact (hcreate _ (by rintro c ⟨⟩; decide)).seq (.opt (.capture 1 (hunique _)))
  · rw [List.append_nil]
    refine (hcreate _ (by rintro c ⟨⟩; decide)).seq_skip (.capture 1 (.seq_left ?_))
    exact .alt (refuses_word rfl) (.alt (refuses_word rfl) (refuses_word rfl))

theorem head?_methodBefore (d : Dialect) (method : Option String) (x : Chars) :
    ∀ c ∈ (methodBefore d method ++ (['('] ++ x)).head?, c ∈ ['U', '('] := by
  unfold methodBefore
  split
  · cases method <;>
    · rintro c ⟨⟩
      decide
  · rintro c ⟨⟩
    decide

theorem reads_methodBefore (h : IsPlainIndex d i) : Reads (opt (word "USING" ++ blanks1 ++
    capture 4 (plus wordChar) ++ blanks)) before (methodBefore d i.method) (['('] ++ rest)
      (methodGroups d i.method) := by
  have hskip : Reads (opt (word "USING" ++ blanks1 ++ capture 4 (plus wordChar) ++ blanks)) before
      [] (['('] ++ rest) [] := .skip (.seq_left (.seq_left (.seq_left (refuses_word rfl))))
  unfold methodBefore methodGroups
  split
  · cases hm : i.method with
    | none => exact hskip
    | some m =>
      have hword : IsWordText m.toList := by
        have hmethods : ∀ m ∈ Index.methods d, m.toList ≠ [] ∧ m.toList.all isWord = true := by
          cases d <;> decide
        exact isWordText_of_all (hmethods m (h.method m hm)).1 (hmethods m (h.method m hm)).2
      have hfirst : BeginsSolid (m.toList ++ ([' '] ++ (['('] ++ rest))) :=
        hword.beginsSolid _
      have husing : Reads (word "USING" ++ blanks1) before ("USING".toList ++ [' '])
          (m.toList ++ ([' '] ++ (['('] ++ rest))) [] :=
        .seq (reads_word rfl rfl) (reads_space1 hfirst)
      have hname (before : Option Char) : Reads (capture 4 (plus wordChar)) before m.toList
          ([' '] ++ (['('] ++ rest)) [(4, m.toList)] :=
        .capture 4 (reads_plus_one hword.ne_nil hword.isWord (by rintro c ⟨⟩; decide))
      exact .opt ((husing.seq (hname _)).seq (reads_space (by rintro c ⟨⟩; decide)))
  · exact hskip

/-- A name in quotes before a space. -/
theorem reads_quoted (d : Dialect) (n : String) (k : Nat) (before : Option Char) {x : Chars}
    (hx : ∀ c ∈ x.head?, isBlank c = false ∧ c ≠ '.') :
    Reads (capture k qname) before (d.quote n).toList ([' '] ++ x) [(k, (d.quote n).toList)] := by
  refine .capture k (reads_qname (reads_ident d n (head?_ne_nameQuote d (by decide) _)) ?_)
  have htrim : trimLeft ([' '] ++ x) = x :=
    (trimLeft_append (List.forall_mem_singleton.2 (by decide))).trans
      (trimLeft_eq_self fun c hc => (hx c hc).1)
  rw [htrim]
  exact fun hdot => (hx _ hdot).2 rfl

theorem reads_createIndexHead (h : IsPlainIndex d i) (table : String) :
    Reads createIndexHead none (headText d table i ++ ['(']) rest (indexGroups d table i) := by
  have hmethod : ∀ c ∈ (methodBefore d i.method ++ (['('] ++ rest)).head?,
      isBlank c = false ∧ c ≠ '.' := by
    have hall : ∀ c ∈ ['U', '('], isBlank c = false ∧ c ≠ '.' :=
      List.forall_mem_cons.2 ⟨by decide, List.forall_mem_singleton.2 (by decide)⟩
    exact fun c hc => hall c (head?_methodBefore d i.method rest c hc)
  have hon (x : Chars) : ∀ c ∈ ("ON".toList ++ x).head?, isBlank c = false ∧ c ≠ '.' := by
    rintro c ⟨⟩
    decide
  have hindex := (reads_kindText i.kind ([' '] ++ ((d.quote i.name).toList ++ ([' '] ++
    ("ON".toList ++ ([' '] ++ ((d.quote table).toList ++ ([' '] ++ (methodBefore d i.method ++
      (['('] ++ rest)))))))))).seq (reads_word rfl rfl)
  have hblank := hindex.seq (reads_space1 (not_isBlank_head?_quote d _ _))
  have hconcurrently := hblank.seq_skip (b := word "CONCURRENTLY" ++ blanks1)
    (.seq_left (refuses_word_quote d i.name fun _ => ⟨rfl, rfl⟩))
  have hexists := hconcurrently.seq_skip (b := phrase ["IF", "NOT", "EXISTS"] ++ blanks1)
    (.seq_left (.seq_left (.seq_left (refuses_word_quote d i.name fun _ => ⟨rfl, rfl⟩))))
  have hname := (hexists.seq (.opt (reads_quoted d i.name 2 _ (hon _)))).seq
    (reads_space fun c hc => (hon _ c hc).1)
  have hword := (hname.seq (reads_word (s := "ON") rfl rfl)).seq
    (reads_space1 (not_isBlank_head?_quote d _ _))
  have honly := hword.seq_skip (b := word "ONLY" ++ blanks1)
    (.seq_left (refuses_word_quote d table fun _ => ⟨rfl, rfl⟩))
  have htable := (honly.seq (reads_quoted d table 3 _ hmethod)).seq
    (reads_space fun c hc => (hmethod c hc).1)
  exact (htable.seq (reads_methodBefore h)).seq (.one rfl)

theorem lookup_indexGroups (d : Dialect) (table : String) (i : Index) :
    (indexGroups d table i).lookup 1 =
        (if i.kind == .unique then some ("UNIQUE".toList ++ [' ']) else none) ∧
      (indexGroups d table i).lookup 2 = some (d.quote i.name).toList ∧
      (indexGroups d table i).lookup 3 = some (d.quote table).toList ∧
      (indexGroups d table i).lookup 4 =
        if d == .postgresql then i.method.map String.toList else none := by
  unfold indexGroups methodGroups kindGroups
  cases d <;> cases i.method <;> cases i.kind == .unique <;> exact ⟨rfl, rfl, rfl, rfl⟩

/-- Behind the columns stands nothing but the access method. -/
theorem methodAfter_facts (h : IsPlainIndex d i) :
    (edge ++ word "WHERE" ++ blanks1).search? (methodAfter d i.method) = none ∧
      comment? (methodAfter d i.method) = none ∧
      (((if d == .postgresql then i.method.map String.toList else none).map ofChars).or
        (method? (methodAfter d i.method))).map lower = i.method := by
  have hall : ∀ d : Dialect, ∀ m ∈ none :: (Index.methods d).map some,
      ((edge ++ word "WHERE" ++ blanks1).search? (methodAfter d m)).isNone = true ∧
        comment? (methodAfter d m) = none ∧
        (((if d == .postgresql then m.map String.toList else none).map ofChars).or
          (method? (methodAfter d m))).map lower = m := by
    intro d
    cases d <;> decide
  have hmem : i.method ∈ none :: (Index.methods d).map some := by
    cases hm : i.method with
    | none => exact List.mem_cons_self
    | some m => exact List.mem_cons_of_mem _ (List.mem_map_of_mem (h.method m hm))
  obtain ⟨hwhere, hcomment, hmethod⟩ := hall d i.method hmem
  exact ⟨Option.isNone_iff_eq_none.1 hwhere, hcomment, hmethod⟩

/-- What is written for an index is read as the index. -/
theorem readIndex_text (h : IsPlainIndex d i) (table : String) :
    readIndex d (indexText d table i) = .ok (some (table, { i with origin := some d })) := by
  have hbalanced : Balanced (columnsText d i.columns) :=
    balanced_intercalate (List.forall_mem_map.2 fun c _ =>
      (phrase_indexColumnText d c).single.toBalanced) (List.forall_mem_singleton.2 (by decide))
  have hread : Reads createIndexHead none (headText d table i ++ ['('])
      (columnsText d i.columns ++ ')' :: methodAfter d i.method) (indexGroups d table i) :=
    reads_createIndexHead h table
  obtain ⟨m, hm, hstop, his⟩ := hread.exists_match?
  have htext : headText d table i ++ ['('] ++ (columnsText d i.columns ++
      ')' :: methodAfter d i.method) = indexText d table i := by
    simp only [indexText, List.append_assoc, List.cons_append, List.nil_append]
  have hopening : m.stop - 1 = (headText d table i).length := by
    rw [hstop, List.length_append, List.length_singleton, Nat.add_sub_cancel]
  have hdrop : (indexText d table i).drop (headText d table i).length =
      '(' :: columnsText d i.columns ++ ')' :: methodAfter d i.method := List.drop_left
  have hclosing := closing?_group hbalanced (methodAfter d i.method)
  have hcolumns : indexColumns ('(' :: columnsText d i.columns ++ [')']) = .ok (i.columns, none) :=
    indexColumns_list h.columns
  obtain ⟨hkind, hname, htable, hmethodGroup⟩ := lookup_indexGroups d table i
  obtain ⟨hwhere, hcomment, hmethod⟩ := methodAfter_facts h
  unfold readIndex
  dsimp only
  rw [(isDefinition_indexText h table).phrase.toIsItem.trim, ← htext, hm]
  dsimp only
  rw [htext, hopening, hdrop, hclosing]
  dsimp only
  rw [group_append hbalanced]
  dsimp only
  rw [hcolumns]
  dsimp only [bind, Except.bind]
  rw [hwhere, hcomment, his.group?, his.group?, his.group, his.group, hkind, hname, htable,
    hmethodGroup, hmethod, h.expression, h.condition, h.comment]
  simp only [Option.map_none, Option.getD_none, Bool.and_false, Bool.false_eq_true, if_false,
    Option.getD_some, Option.map_some, unquote_quote]
  rcases h.kind with hk | hk
  · have hplain : upper (ofChars (trim [])) = "" := by decide
    rw [hk, if_neg (by decide), Option.getD_none, hplain]
    rfl
  · have hunique : upper (ofChars (trim ("UNIQUE".toList ++ [' ']))) = "UNIQUE" := by decide
    rw [hk, if_pos (by decide), Option.getD_some, hunique]
    rfl

end SqlFerry.Ddl
