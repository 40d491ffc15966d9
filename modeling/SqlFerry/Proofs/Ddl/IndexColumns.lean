import SqlFerry.Ddl.Printer
import SqlFerry.Proofs.Ddl.Types

/-!
# Columns of indexes

The columns of an index or a key, with how many characters of each count and in which direction it
runs, are read back from how they are written.
-/

namespace SqlFerry.Ddl

open Text Pattern Sql

variable {d : Dialect} {c : IndexColumn} {cs : List IndexColumn} {n : Int} {x rest : Chars}
  {before : Option Char}

/-- A column of an index that can be read again; only MySQL has prefixes. -/
structure IsPlainIndexColumn (d : Dialect) (c : IndexColumn) : Prop where
  length : ∀ n ∈ c.length, d = .mysql ∧ IsNumber n ∧ n ≠ 0

def lengthText : Option Int → Chars
  | some n => '(' :: (toString n).toList ++ [')']
  | none => []

def directionText : Option Direction → Chars
  | some dir => ' ' :: dir.name.toList
  | none => []

def indexColumnText (d : Dialect) (c : IndexColumn) : Chars :=
  (d.quote c.name).toList ++ lengthText c.length ++ directionText c.direction

theorem phrase_indexColumnText (d : Dialect) (c : IndexColumn) :
    Phrase d (indexColumnText d c) := by
  have hname : Phrase d ((d.quote c.name).toList ++ lengthText c.length) := by
    cases c.length with
    | none =>
      rw [lengthText, List.append_nil]
      exact .name d c.name
    | some n => exact (IsList.number d n).phrase (.name d c.name)
  rw [indexColumnText]
  cases c.direction with
  | none => rwa [directionText, List.append_nil]
  | some dir =>
    refine hname.space ?_
    cases dir with
    | ascending => exact .keyword "ASC" (by decide) (by decide)
    | descending => exact .keyword "DESC" (by decide) (by decide)

/-! ## Reading -/

def afterLength (head : Pattern) : Pattern :=
  head ++ blanks ++ opt (capture 3 (choice [word "ASC", word "DESC"]) ++ edge) ++
    opt (blanks1 ++ word "NULLS" ++ blanks1 ++ choice [word "FIRST", word "LAST"]) ++ finish

variable {head : Pattern} {gs : List (Nat × Chars)} {dir : Direction}

theorem reads_undirected (h : Reads head none x [] gs) : Reads (afterLength head) none x [] gs := by
  have hend (before : Option Char) : Reads blanks before [] [] [] :=
    reads_blanks (List.forall_mem_nil _) (by simp)
  have hdirection (before : Option Char) :
      Reads (opt (capture 3 (choice [word "ASC", word "DESC"]) ++ edge)) before [] [] [] :=
    .skip (.seq_left (.capture 3 (.alt (refuses_word rfl) (refuses_word rfl))))
  have hnulls (before : Option Char) : Reads (opt (blanks1 ++ word "NULLS" ++ blanks1 ++
      choice [word "FIRST", word "LAST"])) before [] [] [] :=
    .skip (.seq_left (.seq_left (.seq_left (refuses_blanks1 (by simp)))))
  have hfinish (before : Option Char) : Reads finish before [] [] [] := .finish
  have hwhole := (((h.seq (y := []) (hend _)).seq (hdirection _)).seq (hnulls _)).seq (hfinish _)
  simpa [afterLength] using hwhole

theorem reads_dirName (before : Option Char) (dir : Direction) :
    Reads (choice [word "ASC", word "DESC"]) before dir.name.toList [] [] := by
  cases dir with
  | ascending => exact .left (reads_word rfl rfl)
  | descending => exact .right (refuses_word rfl) (reads_word rfl rfl)

theorem reads_directed {gap : Chars} (hgap : ∀ c ∈ gap, isBlank c = true)
    (h : Reads head none x (gap ++ dir.name.toList) gs) :
    Reads (afterLength head) none (x ++ gap ++ dir.name.toList) []
      ((3, dir.name.toList) :: gs) := by
  have hfirst : ∀ c ∈ dir.name.toList.head?, isBlank c = false := by
    cases dir <;>
    · rintro c ⟨⟩
      decide
  have hedge : Reads edge (dir.name.toList.getLast?.or ((x ++ gap).getLast?.or none)) [] [] [] := by
    refine .edge ?_
    cases dir <;> rfl
  have hdirection : Reads (capture 3 (choice [word "ASC", word "DESC"]) ++ edge)
      ((x ++ gap).getLast?.or none) dir.name.toList [] [(3, dir.name.toList)] := by
    have h := (Reads.capture 3 (reads_dirName ((x ++ gap).getLast?.or none) dir)).seq (y := [])
      hedge
    rwa [List.append_nil, List.nil_append] at h
  have hnulls (before : Option Char) : Reads (opt (blanks1 ++ word "NULLS" ++ blanks1 ++
      choice [word "FIRST", word "LAST"])) before [] [] [] :=
    .skip (.seq_left (.seq_left (.seq_left (refuses_blanks1 (by simp)))))
  have hblanks : Reads (head ++ blanks) none (x ++ gap) (dir.name.toList ++ []) ([] ++ gs) := by
    rw [List.append_nil]
    exact h.seq (reads_blanks hgap hfirst)
  have hfinish (before : Option Char) : Reads finish before [] [] [] := .finish
  have hwhole := ((hblanks.seq (Reads.opt hdirection)).seq (y := []) (hnulls _)).seq (hfinish _)
  simpa [afterLength] using hwhole

def toLength : Pattern :=
  capture 1 ident ++ blanks ++
    opt (char '(' ++ blanks ++ capture 2 (plus digit) ++ blanks ++ char ')')

theorem indexColumnPattern_eq : indexColumnPattern = afterLength toLength := rfl

theorem reads_toLength_none {gap : Chars} (name : String) (hgap : ∀ c ∈ gap, isBlank c = true)
    (hquote : (gap ++ rest).head? ≠ some d.nameQuote)
    (hrest : ∀ c ∈ rest.head?, isBlank c = false ∧ c ≠ '(') :
    Reads toLength none ((d.quote name).toList ++ gap) rest [(1, (d.quote name).toList)] := by
  have hname : Reads (capture 1 ident) none (d.quote name).toList (gap ++ rest)
      [(1, (d.quote name).toList)] := .capture 1 (reads_ident d name hquote)
  have hblanks := hname.seq (reads_blanks hgap fun c hc => (hrest c hc).1)
  have hskip (before : Option Char) : Reads (opt (char '(' ++ blanks ++ capture 2 (plus digit) ++
      blanks ++ char ')')) before [] rest [] := by
    refine .skip (.seq_left (.seq_left (.seq_left (.seq_left (.one fun c hc => ?_)))))
    simpa using (hrest c hc).2
  have hwhole := Reads.seq (y := []) hblanks (hskip _)
  rwa [List.append_nil] at hwhole

theorem head?_ne_nameQuote {c : Char} (d : Dialect) (hc : c ∈ Splitter.separators) (x : Chars) :
    (c :: x).head? ≠ some d.nameQuote := by
  rw [List.head?_cons, Ne, Option.some_inj]
  rintro rfl
  revert hc
  cases d <;> decide

/-- A number in parentheses. -/
theorem reads_group (hn : IsNumber n) :
    Reads (char '(' ++ blanks ++ capture 2 (plus digit) ++ blanks ++ char ')') before
      ('(' :: (toString n).toList ++ [')']) rest [(2, (toString n).toList)] := by
  have hdigits : ∀ c ∈ (toString n).toList, isDecimal c = true := by
    rw [Value.toList_toString_of_nonneg hn.nonneg]
    exact fun c hc => Value.isDecimal_of_isDigit (Value.isDigit_of_mem_toDigits hc)
  have hne : (toString n).toList ≠ [] := (Phrase.number .mysql n).ne_nil
  have hfirst : ∀ c ∈ ((toString n).toList ++ ([')'] ++ rest)).head?, isBlank c = false := by
    rw [List.head?_append_of_ne_nil _ hne]
    exact (Phrase.number .mysql n).first
  have hclose : ∀ c ∈ ([')'] ++ rest).head?, isBlank c = false ∧ isDecimal c = false := by
    rintro c ⟨⟩
    decide
  have hopen : Reads (char '(') before ['('] ([] ++ ((toString n).toList ++ ([')'] ++ rest))) [] :=
    .one rfl
  have hblanks : Reads (char '(' ++ blanks) before (['('] ++ [])
      ((toString n).toList ++ ([')'] ++ rest)) [] :=
    hopen.seq (reads_blanks (List.forall_mem_nil _) hfirst)
  have hnumber : Reads (char '(' ++ blanks ++ capture 2 (plus digit)) before
      (['('] ++ [] ++ (toString n).toList) ([] ++ ([')'] ++ rest)) [(2, (toString n).toList)] :=
    hblanks.seq (.capture 2 (reads_plus_one hne hdigits fun c hc => (hclose c hc).2))
  have hwhole := (hnumber.seq (reads_blanks (List.forall_mem_nil _)
    fun c hc => (hclose c hc).1)).seq (b := char ')') (y := [')']) (.one rfl)
  simpa using hwhole

theorem reads_toLength_some (name : String) (hn : IsNumber n) :
    Reads toLength none ((d.quote name).toList ++ ('(' :: (toString n).toList ++ [')'])) rest
      [(2, (toString n).toList), (1, (d.quote name).toList)] := by
  have hname : Reads (capture 1 ident) none (d.quote name).toList
      ([] ++ (('(' :: (toString n).toList ++ [')']) ++ rest)) [(1, (d.quote name).toList)] :=
    .capture 1 (reads_ident d name (head?_ne_nameQuote d (by decide) _))
  have hblanks := hname.seq (reads_blanks (List.forall_mem_nil _) (by rintro c ⟨⟩; decide))
  rw [List.append_nil] at hblanks
  exact hblanks.seq (.opt (reads_group hn))

def indexColumnGroups (d : Dialect) (c : IndexColumn) : List (Nat × Chars) :=
  (c.direction.map fun dir => (3, dir.name.toList)).toList ++
    (c.length.map fun n => (2, (toString n).toList)).toList ++ [(1, (d.quote c.name).toList)]

theorem reads_indexColumnText (h : IsPlainIndexColumn d c) :
    Reads indexColumnPattern none (indexColumnText d c) [] (indexColumnGroups d c) := by
  obtain ⟨name, length, direction⟩ := c
  rw [indexColumnPattern_eq, indexColumnText]
  cases length with
  | none =>
    rw [lengthText, List.append_nil]
    cases direction with
    | none =>
      have hhead : Reads toLength none ((d.quote name).toList ++ []) []
          [(1, (d.quote name).toList)] :=
        reads_toLength_none name (List.forall_mem_nil _) (by simp) (by simp)
      exact reads_undirected hhead
    | some dir =>
      have hfirst : ∀ c ∈ dir.name.toList.head?, isBlank c = false ∧ c ≠ '(' := by
        cases dir <;>
        · rintro c ⟨⟩
          decide
      have hhead : Reads toLength none ((d.quote name).toList ++ [' ']) ([] ++ dir.name.toList)
          [(1, (d.quote name).toList)] :=
        reads_toLength_none name isBlank_of_mem_space (head?_ne_nameQuote d (by decide) _) hfirst
      have hwhole := reads_directed (List.forall_mem_nil _) hhead
      rw [List.append_nil, List.append_assoc] at hwhole
      exact hwhole
  | some n =>
    have hn := (h.length n rfl).2.1
    rw [lengthText]
    cases direction with
    | none =>
      rw [directionText, List.append_nil]
      exact reads_undirected (reads_toLength_some name hn)
    | some dir =>
      have hhead : Reads toLength none ((d.quote name).toList ++ ('(' :: (toString n).toList ++
          [')'])) ([' '] ++ dir.name.toList) _ := reads_toLength_some name hn
      have hwhole := reads_directed isBlank_of_mem_space hhead
      rw [List.append_assoc _ [' ']] at hwhole
      exact hwhole

theorem indexColumn?_text (h : IsPlainIndexColumn d c) :
    indexColumn? (indexColumnText d c) = some (.ok c) := by
  obtain ⟨m, hm, -, his⟩ := (reads_indexColumnText h).exists_match?
  rw [List.append_nil] at hm
  rw [indexColumn?, hm, Option.map_some, his.group, his.group?, his.group?]
  obtain ⟨name, length, direction⟩ := c
  have hname : (indexColumnGroups d ⟨name, length, direction⟩).lookup 1 =
      some (d.quote name).toList := by
    cases length <;> cases direction <;> rfl
  have hlength : ((indexColumnGroups d ⟨name, length, direction⟩).lookup 2).mapM number =
      .ok length := by
    cases length with
    | none => cases direction <;> rfl
    | some n =>
      have hlookup : (indexColumnGroups d ⟨name, some n, direction⟩).lookup 2 =
          some (toString n).toList := by
        cases direction <;> rfl
      have hnumber := number_toString (h.length n rfl).2.1.few
      rw [hlookup]
      exact congrArg (Option.some <$> ·) hnumber
  have hdirection : ((indexColumnGroups d ⟨name, length, direction⟩).lookup 3).mapM
      (fun t => (Direction.ofText (ofChars t)).mapError Fault.broken) = .ok direction := by
    cases direction with
    | none => cases length <;> rfl
    | some dir => cases length <;> cases dir <;> rfl
  rw [hname, hlength, hdirection, Option.getD_some, unquote_quote]
  rfl

theorem read_indexColumns {body : Chars} (h : ∀ c ∈ cs, IsPlainIndexColumn d c)
    (done : List IndexColumn) : indexColumns.read body (cs.map (indexColumnText d)) done =
      .ok (done.reverse ++ cs, none) := by
  induction cs generalizing done with
  | nil => rw [List.map_nil, indexColumns.read, List.append_nil]
  | cons c cs ih =>
    rw [List.map_cons, indexColumns.read, indexColumn?_text (h c List.mem_cons_self)]
    have hrest := ih (fun x hx => h x (List.mem_cons_of_mem _ hx)) (c :: done)
    rw [List.reverse_cons, List.append_assoc, List.singleton_append] at hrest
    exact hrest

/-- The columns of an index are read back from their list. -/
theorem indexColumns_list (h : ∀ c ∈ cs, IsPlainIndexColumn d c) :
    indexColumns ('(' :: [',', ' '].intercalate (cs.map (indexColumnText d)) ++ [')']) =
      .ok (cs, none) := by
  have hitems : items ([] ++ [',', ' '].intercalate (cs.map (indexColumnText d)) ++ []) =
      cs.map (indexColumnText d) := by
    refine items_intercalate (List.forall_mem_map.2 fun c _ => ?_) (List.forall_mem_nil _)
      (List.forall_mem_singleton.2 (by decide)) (List.forall_mem_nil _)
    exact (phrase_indexColumnText d c).toIsItem
  have hphrase : Phrase d ('(' :: ([] ++ [',', ' '].intercalate (cs.map (indexColumnText d)) ++ [])
      ++ [')']) :=
    .group (List.forall_mem_map.2 fun c _ => phrase_indexColumnText d c) (List.forall_mem_nil _)
      (List.forall_mem_singleton.2 (.inl rfl)) (List.forall_mem_nil _)
  rw [List.nil_append, List.append_nil] at hitems hphrase
  unfold indexColumns
  rw [hphrase.toIsItem.trim, inner_enclosed]
  dsimp only
  rw [hitems]
  exact read_indexColumns h []

/-- A list of names is a list of columns. -/
theorem indexColumns_quoteAll (d : Dialect) (ns : List String) :
    indexColumns ('(' :: (d.quoteAll ns).toList ++ [')']) =
      .ok (ns.map fun n => { name := n }, none) := by
  have hnames : (d.quoteAll ns).toList =
      [',', ' '].intercalate ((ns.map fun n => ({ name := n } : IndexColumn)).map
        (indexColumnText d)) := by
    rw [Dialect.toList_quoteAll, List.map_map]
    simp [Function.comp_def, indexColumnText, lengthText, directionText]
  rw [hnames]
  refine indexColumns_list (List.forall_mem_map.2 fun n _ => ⟨?_⟩)
  rintro n ⟨⟩

end SqlFerry.Ddl
