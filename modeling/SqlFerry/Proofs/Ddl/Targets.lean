import SqlFerry.Proofs.Ddl.Applying
import SqlFerry.Proofs.Pattern.Search
import SqlFerry.Proofs.Sql.Insert

/-!
# The tables of written statements

The table that a written statement concerns is read from it again, whatever names stand in the
statement. The definition of an index is read at the first word `ON` that has a name behind it, and
that is its own unless the word stands in the name of the index.
-/

namespace SqlFerry

open Text Pattern Sql Ddl

namespace Sql

variable {before : Option Char} {cs rest : Chars} {p : Pattern} {m : Match} {n : String}

/-! ## The first statement that is recognised -/

theorem withoutLeadingComments_eq_self
    (h : ∀ c ∈ cs.head?, isBlank c = false ∧ c ≠ '-' ∧ c ≠ '/') :
    withoutLeadingComments cs = cs := by
  have hmark (x : Char) (hx : ∀ c ∈ cs.head?, c ≠ x) : Refuses (char x) none cs :=
    .one fun c hc => beq_eq_false_iff_ne.2 (hx c hc)
  have hdash := hmark '-' fun c hc => (h c hc).2.1
  have hslash := hmark '/' fun c hc => (h c hc).2.2
  have hread : Reads leadingComments none [] cs [] :=
    .star_nil (.alt (refuses_blanks1 fun c hc => (h c hc).1)
      (.alt (.seq_left (.seq_left (.seq_left hdash)))
        (.alt (.seq_left (.seq_left (.seq_left (.seq_left hslash))))
          (.seq_left (.seq_left hslash)))))
  obtain ⟨m, hm, -, his⟩ := hread.exists_match?
  rw [List.nil_append] at hm
  rw [withoutLeadingComments, hm]
  exact his.rest

/-- The first pattern that matches decides. -/
theorem targetTable?_eq (pre : List Pattern) {post : List Pattern} {sql : String}
    (htargets : targets = pre ++ p :: post)
    (hfirst : ∀ c ∈ sql.toList.head?, isBlank c = false ∧ c ≠ '-' ∧ c ≠ '/')
    (hpre : ∀ q ∈ pre, q.match? sql.toList = none) (hm : p.match? sql.toList = some m) :
    targetTable? sql = some (unquote (m.group 1)) := by
  have hnone : pre.findSome? (·.match? sql.toList) = none := List.findSome?_eq_none_iff.2 hpre
  rw [targetTable?, withoutLeadingComments_eq_self hfirst, htargets, List.findSome?_append, hnone,
    Option.none_or, List.findSome?_cons, hm]
  rfl

/-- The first pattern that matches may read the name of the table in quotes. -/
theorem targetTable?_of_reads (pre : List Pattern) {post : List Pattern} {sql : String}
    {taken : Chars} {d : Dialect} (htargets : targets = pre ++ p :: post)
    (hread : Reads p none taken rest [(1, (d.quote n).toList)]) (hsql : sql.toList = taken ++ rest)
    {c : Char} (hfirst : taken.head? = some c) (hletter : isAsciiLetter c = true)
    (hpre : ∀ q ∈ pre, Refuses q none (taken ++ rest)) : targetTable? sql = some n := by
  obtain ⟨m, hm, -, his⟩ := hread.exists_match?
  have hall : ∀ x ∈ sql.toList.head?, isBlank x = false ∧ x ≠ '-' ∧ x ≠ '/' := by
    rw [hsql, List.head?_append, hfirst, Option.some_or]
    rintro x ⟨⟩
    refine ⟨isBlank_of_isAsciiLetter hletter, ?_, ?_⟩ <;> · rintro rfl; revert hletter; decide
  rw [← hsql] at hm
  rw [targetTable?_eq pre htargets hall (fun q hq => hsql ▸ (hpre q hq).match?) hm, his.group]
  exact congrArg some (unquote_quote d n)

end Sql

namespace Ddl

variable {d : Dialect} {n text : String} {t : Table} {k : Constraint} {i : Index}
  {before : Option Char} {cs rest : Chars}

/-! ## Tables, foreign keys and rows -/

theorem refuses_createIndexOn (h : opensWith "CREATE".toList rest = false) :
    Refuses createIndexOn before rest := by
  unfold createIndexOn
  -- the word is the leftmost part of the pattern
  repeat with_reducible first
    | exact refuses_word h
    | apply Refuses.seq_left

theorem refuses_alterTable (h : opensWith "ALTER".toList rest = false) :
    Refuses alterTable before rest := by
  unfold alterTable
  exact .seq_left (.seq_left (.seq_left (.seq_left (.seq_left (.seq_left (.seq_left
    (refuses_word h)))))))

def guardText (ifNotExists : Bool) : Chars :=
  if ifNotExists then "IF".toList ++ [' '] ++ "NOT".toList ++ [' '] ++ "EXISTS".toList ++ [' ']
  else []

theorem reads_space1_letter {c : Char} (hrest : rest.head? = some c)
    (hletter : isAsciiLetter c = true) : Reads blanks1 before [' '] rest [] :=
  reads_space1 fun x hx => by
    obtain rfl : c = x := by simpa [hrest] using hx
    exact isBlank_of_isAsciiLetter hletter

theorem reads_guardText (d : Dialect) (n : String) (ifNotExists : Bool) (before : Option Char) :
    Reads (maybe ["IF", "NOT", "EXISTS"]) before (guardText ifNotExists)
      ((d.quote n).toList ++ rest) [] := by
  cases ifNotExists with
  | false =>
    exact .skip (.seq_left (.seq_left (.seq_left (refuses_word_quote d n fun _ => ⟨rfl, rfl⟩))))
  | true =>
    have hwords : Reads (word "IF" ++ blanks1 ++ (word "NOT" ++ blanks1 ++ word "EXISTS")) before
        ("IF".toList ++ [' '] ++ ("NOT".toList ++ [' '] ++ "EXISTS".toList))
          ([' '] ++ ((d.quote n).toList ++ rest)) [] :=
      .seq (.seq (reads_word rfl rfl) (reads_space1_letter rfl (by decide)))
        (.seq (.seq (reads_word rfl rfl) (reads_space1_letter rfl (by decide)))
          (reads_word rfl rfl))
    exact .opt (hwords.seq (reads_space1 (not_isBlank_head?_quote d n rest)))

theorem exists_createTableText {inlineForeignKeys ifNotExists : Bool}
    (h : createTable d t inlineForeignKeys ifNotExists = .ok text) : ∃ rest, text.toList =
      "CREATE".toList ++ [' '] ++ "TABLE".toList ++ [' '] ++ guardText ifNotExists ++
        (d.quote t.name).toList ++ [' '] ++ ['('] ++ rest := by
  have hopen : " (\n  ".toList = [' '] ++ (['('] ++ ['\n', ' ', ' ']) := rfl
  have hhead : (if ifNotExists then "CREATE TABLE IF NOT EXISTS " else "CREATE TABLE ").toList =
      "CREATE".toList ++ [' '] ++ "TABLE".toList ++ [' '] ++ guardText ifNotExists := by
    cases ifNotExists <;> rfl
  unfold createTable at h
  obtain ⟨columns, -, h⟩ := exists_of_bind_eq_ok h
  cases h
  simp only [String.toList_append, hhead, hopen, List.append_assoc]
  exact ⟨_, rfl⟩

theorem targetTable?_createTable {inlineForeignKeys ifNotExists : Bool}
    (h : createTable d t inlineForeignKeys ifNotExists = .ok text) :
    targetTable? text = some t.name := by
  obtain ⟨rest, htext⟩ := exists_createTableText h
  have hblank (x : Chars) : ∀ c ∈ (guardText ifNotExists ++ ((d.quote t.name).toList ++ x)).head?,
      isBlank c = false := by
    cases ifNotExists with
    | false => exact not_isBlank_head?_quote d t.name x
    | true =>
      rintro c ⟨⟩
      decide
  exact targetTable?_of_reads [] rfl (reads_opening d t.name _ hblank
    (reads_guardText d t.name ifNotExists)) htext rfl (by decide) (List.forall_mem_nil _)

theorem targetTable?_addForeignKey (d : Dialect) (n : String) (k : Constraint) :
    targetTable? (addForeignKey d n k) = some n := by
  have hadd : ∀ c ∈ (addText (constraint d k).toList).head?, isBlank c = false ∧ c ≠ '.' := by
    rintro c ⟨⟩
    decide
  have hread := reads_alterTable d n fun before => reads_quoted d n 1 before hadd
  have htext := toList_addForeignKey d n k
  unfold alterText at htext
  rw [List.append_assoc _ [' ']] at htext
  refine targetTable?_of_reads [Sql.createTable, createIndexOn] rfl hread htext rfl (by decide) ?_
  simp only [List.forall_mem_cons, List.not_mem_nil, false_implies, implies_true, and_true]
  exact ⟨refuses_createTable rfl, refuses_createIndexOn rfl⟩

/-- A name at the end of a statement or before a blank. -/
theorem reads_name_last (d : Dialect) (n : String) (before : Option Char)
    (hrest : rest = [] ∨ ∃ c x, rest = ' ' :: c :: x ∧ isBlank c = false ∧ c ≠ '.') :
    Reads (capture 1 qname) before (d.quote n).toList rest [(1, (d.quote n).toList)] := by
  rcases hrest with rfl | ⟨c, x, rfl, hc⟩
  · exact .capture 1 (reads_qname (reads_ident d n (by simp)) (by simp [trimLeft]))
  · exact reads_quoted d n 1 before (x := c :: x) (by rintro c ⟨⟩; exact hc)

theorem targetTable?_dropTable (d : Dialect) (n : String) :
    targetTable? (dropTable d n) = some n := by
  obtain ⟨rest, htext, hrest⟩ : ∃ rest, (dropTable d n).toList = "DROP".toList ++ [' '] ++
      "TABLE".toList ++ [' '] ++ ("IF".toList ++ [' '] ++ "EXISTS".toList ++ [' ']) ++
        (d.quote n).toList ++ rest ∧
      (rest = [] ∨ ∃ c x, rest = ' ' :: c :: x ∧ isBlank c = false ∧ c ≠ '.') := by
    refine ⟨(if d == .postgresql then " CASCADE" else "").toList, ?_, ?_⟩
    · unfold dropTable
      rw [String.toList_append, String.toList_append]
      rfl
    · cases d with
      | mysql | sqlite => exact .inl rfl
      | postgresql => exact .inr ⟨'C', _, rfl, by decide, by decide⟩
  have hdrop : Reads (phrase ["DROP", "TABLE"]) none
      ("DROP".toList ++ [' '] ++ "TABLE".toList) ([' '] ++ ("IF".toList ++ [' '] ++
        "EXISTS".toList ++ [' '] ++ ((d.quote n).toList ++ rest))) [] :=
    .seq (.seq (reads_word rfl rfl) (reads_space1_letter rfl (by decide))) (reads_word rfl rfl)
  have hexists (before : Option Char) : Reads (phrase ["IF", "EXISTS"]) before
      ("IF".toList ++ [' '] ++ "EXISTS".toList) ([' '] ++ ((d.quote n).toList ++ rest)) [] :=
    .seq (.seq (reads_word rfl rfl) (reads_space1_letter rfl (by decide))) (reads_word rfl rfl)
  have hguard (before : Option Char) : Reads (maybe ["IF", "EXISTS"]) before
      ("IF".toList ++ [' '] ++ "EXISTS".toList ++ [' ']) ((d.quote n).toList ++ rest) [] :=
    .opt ((hexists _).seq (reads_space1 (not_isBlank_head?_quote d n rest)))
  have hread := ((hdrop.seq (reads_space1_letter rfl (by decide))).seq (hguard _)).seq
    (reads_name_last d n _ hrest)
  refine targetTable?_of_reads [Sql.createTable, createIndexOn, alterTable] rfl hread htext rfl
    (by decide) ?_
  simp only [List.forall_mem_cons, List.not_mem_nil, false_implies, implies_true, and_true]
  exact ⟨refuses_createTable rfl, refuses_createIndexOn rfl, refuses_alterTable rfl⟩

theorem targetTable?_insert (d : Dialect) (n : String) (columns : List String)
    (rows : List (List Value)) : targetTable? (d.insert n columns rows) = some n := by
  obtain ⟨rest, htext⟩ : ∃ rest, (d.insert n columns rows).toList = "INSERT".toList ++ [' '] ++
      ("INTO".toList ++ [' ']) ++ (d.quote n).toList ++ ([' '] ++ '(' :: rest) := by
    rw [Dialect.toList_insert]
    simp only [List.append_assoc]
    exact ⟨_, rfl⟩
  have hname (before : Option Char) := reads_quoted d n 1 before
    (show ∀ c ∈ ('(' :: rest).head?, isBlank c = false ∧ c ≠ '.' by rintro c ⟨⟩; decide)
  have hinsert : Reads (choice [word "INSERT", word "REPLACE"] ++ blanks1) none
      ("INSERT".toList ++ [' ']) ("INTO".toList ++ [' '] ++ ((d.quote n).toList ++
        ([' '] ++ '(' :: rest))) [] :=
    .seq (.left (reads_word rfl rfl)) (reads_space1_letter rfl (by decide))
  have hnone (before : Option Char) (x : Chars) : Refuses (choice [word "IGNORE",
      word "OR" ++ blanks1 ++ plus wordChar, word "LOW_PRIORITY", word "DELAYED",
      word "HIGH_PRIORITY"] ++ blanks1) before ("INTO".toList ++ [' '] ++ x) :=
    .seq_left (.alt (refuses_word rfl) (.alt (.seq_left (.seq_left (refuses_word rfl)))
      (.alt (refuses_word rfl) (.alt (refuses_word rfl) (refuses_word rfl)))))
  have hinto (before : Option Char) : Reads (maybe ["INTO"]) before ("INTO".toList ++ [' '])
      ((d.quote n).toList ++ ([' '] ++ '(' :: rest)) [] :=
    .opt (.seq (reads_word rfl rfl) (reads_space1 (not_isBlank_head?_quote d n _)))
  have hread := ((hinsert.seq_star_nil (hnone _ _)).seq (hinto _)).seq (hname _)
  refine targetTable?_of_reads [Sql.createTable, createIndexOn, alterTable, _] rfl hread htext rfl
    (by decide) ?_
  simp only [List.forall_mem_cons, List.not_mem_nil, false_implies, implies_true, and_true]
  exact ⟨refuses_createTable rfl, refuses_createIndexOn rfl, refuses_alterTable rfl,
    .seq_left (.seq_left (.seq_left (.seq_left (.seq_left (refuses_word rfl)))))⟩

/-! ## Indexes -/

def onName : Pattern :=
  edge ++ word "ON" ++ blanks1 ++ Sql.only ++ capture 1 qname

def indexWords : List (List String) :=
  [[], ["UNIQUE"], ["FULLTEXT"], ["SPATIAL"]]

def indexOpening (ws : List String) : Chars :=
  "CREATE".toList ++ [' '] ++ (Splitter.spaced ws ++ "INDEX".toList) ++ [' ']

theorem exists_indexTarget (d : Dialect) (i : Index) :
    ∃ x, (indexTarget d i).toList = '(' :: x := by
  have hopen (a : String) : ∃ x, ("(" ++ a).toList = '(' :: x :=
    ⟨a.toList, by rw [String.toList_append]; rfl⟩
  unfold indexTarget
  split
  · dsimp only
    split
    · rw [String.append_assoc]
      obtain ⟨x, hx⟩ := hopen ("(" ++ (i.expression.getD "" ++ "))"))
      exact ⟨x, by rw [← hx, ← String.append_assoc]; rfl⟩
    · rw [String.append_assoc]
      exact hopen _
  · rw [String.append_assoc]
    exact hopen _

/-- What follows the name of the table goes on with a word or a parenthesis. -/
theorem exists_indexTail {before target : String} {x : Chars}
    (hbefore : before = "" ∨ ∃ method, before = " USING " ++ method)
    (htarget : target.toList = '(' :: x) (after : String) :
    ∃ tail, (∀ c ∈ tail.head?, isBlank c = false ∧ c ≠ '.') ∧
      (before ++ " " ++ target ++ after).toList = [' '] ++ tail := by
  rcases hbefore with rfl | ⟨method, rfl⟩
  · refine ⟨'(' :: x ++ after.toList, ?_, ?_⟩
    · rintro c ⟨⟩
      decide
    · simp only [String.toList_append, htarget]
      rfl
  · refine ⟨"USING ".toList ++ (method ++ " " ++ target ++ after).toList, ?_, ?_⟩
    · rintro c ⟨⟩
      decide
    · simp only [String.toList_append, List.append_assoc]
      rfl

theorem exists_createIndexText {table : String} (h : createIndex d table i = some text) :
    ∃ ws ∈ indexWords, ∃ tail, (∀ c ∈ tail.head?, isBlank c = false ∧ c ≠ '.') ∧
      text.toList = indexOpening ws ++ ((d.quote i.name).toList ++ [' '] ++
        ("ON".toList ++ [' '] ++ (d.quote table).toList ++ ([' '] ++ tail))) := by
  have hopenings : ∀ keyword ∈ ["INDEX", "UNIQUE INDEX", "FULLTEXT INDEX", "SPATIAL INDEX"],
      ∃ ws ∈ indexWords, "CREATE ".toList ++ (keyword.toList ++ " ".toList) = indexOpening ws := by
    decide
  obtain ⟨x, htarget⟩ := exists_indexTarget d i
  obtain ⟨keyword, hkeyword, before, hbefore, a, b, rfl⟩ : ∃ keyword ∈
      ["INDEX", "UNIQUE INDEX", "FULLTEXT INDEX", "SPATIAL INDEX"], ∃ before,
        (before = "" ∨ ∃ method, before = " USING " ++ method) ∧ ∃ a b,
          text = "CREATE " ++ keyword ++ " " ++ d.quote i.name ++ " ON " ++ d.quote table ++
            before ++ " " ++ indexTarget d i ++ a ++ b := by
    unfold createIndex at h
    rw [Option.ite_none_left_eq_some] at h
    refine ⟨_, ?_, _, ?_, _, _, (Option.some.inj h.2).symm⟩
    · split
      · decide
      · split <;> decide
      · split <;> decide
      · decide
    · generalize (if given i.method then i.method.getD "" else "") = method
      split
      · exact .inr ⟨_, rfl⟩
      · exact .inl rfl
  obtain ⟨ws, hws, hopening⟩ := hopenings keyword hkeyword
  obtain ⟨tail, htail, htext⟩ := exists_indexTail hbefore htarget (a ++ b)
  have hon : " ON ".toList = [' '] ++ ("ON".toList ++ [' ']) := rfl
  refine ⟨ws, hws, tail, htail, ?_⟩
  rw [← htext, ← hopening]
  simp only [String.toList_append, hon, List.append_assoc]

theorem ends_append (a b : Pattern) : (a ++ b).ends = fun r => (a.ends r).flatMap b.ends :=
  rfl

theorem ends_createIndexOn : createIndexOn.ends = (word "CREATE" ++ blanks1 ++
    (few (plus wordChar ++ blanks1) ++ word "INDEX") ++ blanks1 ++ (few any ++ onName)).ends := by
  unfold createIndexOn onName
  simp only [ends_append, List.flatMap_assoc]

variable {ws : List String}

theorem reads_indexOpening (hws : ws ∈ indexWords) (hrest : ∀ c ∈ rest.head?, isBlank c = false) :
    Reads (word "CREATE" ++ blanks1 ++ (few (plus wordChar ++ blanks1) ++ word "INDEX") ++ blanks1)
      none (indexOpening ws) rest [] := by
  have hindex (before : Option Char) :
      Reads (few (plus wordChar ++ blanks1) ++ word "INDEX") before "INDEX".toList ([' '] ++ rest)
        [] :=
    .few_nil_seq (reads_word rfl rfl)
  have hone (w : String) (hword : ∀ c ∈ w.toList, isWord c = true) (hne : w.toList ≠ [])
      (hother : ∀ x, opensWith "INDEX".toList (w.toList ++ x) = false) :
      Reads (few (plus wordChar ++ blanks1) ++ word "INDEX") (some ' ')
        (w.toList ++ [' '] ++ "INDEX".toList) ([' '] ++ rest) [] := by
    have hnone : Refuses (word "INDEX") (some ' ')
        (w.toList ++ [' '] ++ ("INDEX".toList ++ ([' '] ++ rest))) :=
      refuses_word (by rw [List.append_assoc]; exact hother _)
    have hround : Reads (plus wordChar ++ blanks1) (some ' ') (w.toList ++ [' '])
        ("INDEX".toList ++ ([' '] ++ rest)) [] :=
      .seq (reads_plus_one hne hword (by rintro c ⟨⟩; decide)) (reads_space1_letter rfl (by decide))
    exact .few_cons_seq hnone hround (by simp) (hindex _)
  have hwords : Reads (few (plus wordChar ++ blanks1) ++ word "INDEX") (some ' ')
      (Splitter.spaced ws ++ "INDEX".toList) ([' '] ++ rest) [] ∧
      ∃ c x, Splitter.spaced ws ++ "INDEX".toList = c :: x ∧ isAsciiLetter c = true := by
    simp only [indexWords, List.mem_cons, List.not_mem_nil, or_false] at hws
    rcases hws with rfl | rfl | rfl | rfl
    · exact ⟨hindex _, 'I', _, rfl, by decide⟩
    · exact ⟨hone "UNIQUE" (by decide) (by decide) fun x => rfl, 'U', _, rfl, by decide⟩
    · exact ⟨hone "FULLTEXT" (by decide) (by decide) fun x => rfl, 'F', _, rfl, by decide⟩
    · exact ⟨hone "SPATIAL" (by decide) (by decide) fun x => rfl, 'S', _, rfl, by decide⟩
  obtain ⟨hwords, c, x, hfirst, hletter⟩ := hwords
  have hcreate : Reads (word "CREATE" ++ blanks1) none ("CREATE".toList ++ [' '])
      (Splitter.spaced ws ++ "INDEX".toList ++ ([' '] ++ rest)) [] :=
    .seq (reads_word rfl rfl) (reads_space1_letter (by rw [hfirst]; rfl) hletter)
  exact (hcreate.seq hwords).seq (reads_space1 hrest)

theorem refuses_createTable_indexOpening (hws : ws ∈ indexWords) (rest : Chars) :
    Refuses Sql.createTable none (indexOpening ws ++ rest) := by
  have htext : indexOpening ws ++ rest = "CREATE".toList ++ [' '] ++
      (Splitter.spaced ws ++ "INDEX".toList ++ [' '] ++ rest) := by
    unfold indexOpening
    simp only [List.append_assoc]
  rw [htext]
  simp only [indexWords, List.mem_cons, List.not_mem_nil, or_false] at hws
  refine refuses_createTable_other ?_ ?_
  · rcases hws with rfl | rfl | rfl | rfl <;> · rintro c ⟨⟩; decide
  · simp only [List.forall_mem_cons, List.not_mem_nil, false_implies, implies_true, and_true]
    rcases hws with rfl | rfl | rfl | rfl <;> exact ⟨rfl, rfl, rfl, rfl, rfl, rfl⟩

/-- No `ON` begins with another letter. -/
theorem refuses_onName (h : ∀ c ∈ cs.head?, sameLetter 'O' c = false) :
    Refuses onName before cs := by
  have hword : Refuses (word "ON") before cs := by
    refine refuses_word ?_
    cases cs with
    | nil => rfl
    | cons c cs =>
      change (sameLetter 'O' c && _) = false
      rw [h c rfl, Bool.false_and]
  exact .seq_left (.seq_left (.seq_left (.edge_seq hword)))

theorem refusesWithin_onName (h : ∀ c ∈ cs, sameLetter 'O' c = false) :
    RefusesWithin onName before cs rest := by
  intro x y hxy hy
  obtain ⟨c, y, rfl⟩ := List.exists_cons_of_ne_nil hy
  refine refuses_onName ?_
  rintro c' ⟨⟩
  exact h c (by simp [hxy])

theorem refusesWithin_indexOpening (hws : ws ∈ indexWords) :
    RefusesWithin onName none (indexOpening ws) rest := by
  have hall : ∀ ws ∈ indexWords, ∀ c ∈ indexOpening ws, sameLetter 'O' c = false := by
    decide
  exact refusesWithin_onName (hall ws hws)

/-- Behind the name of the index the table is named. -/
theorem reads_onName (d : Dialect) (table : String) {tail : Chars}
    (htail : ∀ c ∈ tail.head?, isBlank c = false ∧ c ≠ '.') :
    Reads onName (some ' ') ("ON".toList ++ [' '] ++ (d.quote table).toList) ([' '] ++ tail)
      [(1, (d.quote table).toList)] := by
  have hon : Reads (edge ++ word "ON" ++ blanks1) (some ' ') ("ON".toList ++ [' '])
      ((d.quote table).toList ++ ([' '] ++ tail)) [] :=
    .seq (.seq (x := []) (.edge rfl) (reads_word rfl rfl))
      (reads_space1 (not_isBlank_head?_quote d _ _))
  exact (hon.seq_skip (.seq_left (refuses_word_quote d table fun _ => ⟨rfl, rfl⟩))).seq
    (reads_quoted d table 1 _ htail)

/-- The table that the definition of an index concerns is the one that is named behind its first
`ON` with a name. -/
theorem exists_target_createIndex {table : String} (h : createIndex d table i = some text) :
    ∃ m, onName.search? text.toList = some m ∧
      targetTable? text = some (unquote (m.group 1)) := by
  obtain ⟨ws, hws, tail, htail, htext⟩ := exists_createIndexText h
  generalize hz : (d.quote i.name).toList ++ [' '] ++
    ("ON".toList ++ [' '] ++ (d.quote table).toList ++ ([' '] ++ tail)) = z at htext
  have hlast : (indexOpening ws).getLast? = some ' ' := List.getLast?_concat
  obtain ⟨m, hm⟩ : ∃ m, onName.searchIn (some ' ') (indexOpening ws).length z = some m := by
    obtain ⟨m, hm, -⟩ := (reads_onName d table htail).matchAt?
      ((indexOpening ws).length + ((d.quote i.name).toList ++ [' ']).length)
    have hbefore : ((d.quote i.name).toList ++ [' ']).getLast?.or (some ' ') = some ' ' := by simp
    rw [← hz]
    exact exists_searchIn (hbefore ▸ hm)
  have hblank : ∀ c ∈ z.head?, isBlank c = false := by
    rw [← hz, List.append_assoc]
    exact not_isBlank_head?_quote d i.name _
  obtain ⟨m', hm', hcaptures⟩ := (reads_indexOpening hws hblank).exists_match?_gap (hlast ▸ hm)
  have hmatch : createIndexOn.match? text.toList = some m' := by
    rw [← hm', htext, match?, match?, matchAt?, matchAt?, run_some, run_some, ends_createIndexOn]
  have hgroup : m'.group 1 = m.group 1 := by
    rw [Match.group, Match.group, Match.group?, Match.group?, hcaptures]
  refine ⟨m, ?_, ?_⟩
  · rw [search?, searchFrom?, Cursor.atStart, htext, (refusesWithin_indexOpening hws).searchIn,
      hlast, Option.some_or, Nat.zero_add, hm]
  · rw [targetTable?_eq [Sql.createTable] rfl ?_ ?_ hmatch, hgroup]
    · rw [htext]
      rintro c ⟨⟩
      decide
    · rw [List.forall_mem_singleton, htext]
      exact (refuses_createTable_indexOpening hws z).match?

/-! ## Names of indexes -/

def opensOn : Chars → Bool
  | o :: n :: c :: _ => sameLetter 'O' o && sameLetter 'N' n && isBlank c
  | _ => false

def mentionsOn (before : Option Char) : Chars → Bool
  | [] => false
  | c :: cs => (!before.any isWord && opensOn (c :: cs)) || mentionsOn (some c) cs

theorem refuses_onName_of_opensOn (h : (!before.any isWord && opensOn cs) = false) :
    Refuses onName before cs := by
  cases cs with
  | nil => exact refuses_onName (by simp)
  | cons o cs =>
    by_cases ho : sameLetter 'O' o = true
    · refine .seq_left (.seq_left ?_)
      cases hbefore : before.any isWord with
      | true =>
        obtain ⟨c, rfl, hc⟩ := (Option.any_eq_true _ _).1 hbefore
        have hedge : Refuses edge (some c) (o :: cs) := fun n captures => by
          simp [Fails, ends, Cursor.atEdge, hc, isWord_of_sameLetter (by decide) ho]
        exact .seq_left (.seq_left hedge)
      | false =>
        rw [hbefore, Bool.not_false, Bool.true_and] at h
        refine .assoc (.edge_seq ?_)
        cases cs with
        | nil => exact .seq_left (refuses_word (by simp [opensWith]))
        | cons n cs =>
          by_cases hn : sameLetter 'N' n = true
          · have hblank : ∀ c ∈ cs.head?, isBlank c = false := by
              cases cs with
              | nil => simp
              | cons c cs =>
                rintro c' ⟨⟩
                simpa [opensOn, ho, hn] using h
            exact .after (x := [o, n]) (only_word rfl) (refuses_blanks1 hblank)
          · exact .seq_left (refuses_word (by simp [opensWith, hn]))
    · refine refuses_onName ?_
      rintro c ⟨⟩
      simpa using ho

variable {q : Char}

/-- Where quotes are doubled, another character stands for itself. -/
theorem exists_of_double_eq_cons {x : Char} {y : Chars} (hx : x ≠ q)
    (h : double q cs ++ q :: rest = x :: y) :
    ∃ cs', cs = x :: cs' ∧ y = double q cs' ++ q :: rest := by
  cases cs with
  | nil => exact absurd (List.cons.inj h).1.symm hx
  | cons c cs =>
    rw [double, List.flatMap_cons, ← double] at h
    split at h
    · exact absurd (List.cons.inj h).1.symm hx
    · obtain ⟨rfl, rfl⟩ := List.cons.inj h
      exact ⟨cs, rfl, rfl⟩

theorem opensOn_of_double (hq : q = '"' ∨ q = '\x60')
    (h : opensOn (double q cs ++ q :: rest) = true) : opensOn cs = true := by
  have hquote : sameLetter 'O' q = false ∧ sameLetter 'N' q = false ∧ isBlank q = false := by
    rcases hq with rfl | rfl <;> decide
  have hne {f : Char → Bool} {x : Char} (hf : f q = false) (hx : f x = true) : x ≠ q := by
    rintro rfl
    rw [hf] at hx
    cases hx
  unfold opensOn at h
  split at h
  · next o n c y heq =>
    rw [Bool.and_eq_true, Bool.and_eq_true] at h
    obtain ⟨⟨ho, hn⟩, hc⟩ := h
    obtain ⟨cs, rfl, hsecond⟩ := exists_of_double_eq_cons (hne hquote.1 ho) heq
    obtain ⟨cs, rfl, hthird⟩ := exists_of_double_eq_cons (hne hquote.2.1 hn) hsecond.symm
    obtain ⟨cs, rfl, -⟩ := exists_of_double_eq_cons (hne hquote.2.2 hc) hthird.symm
    rw [opensOn, ho, hn, hc]
    rfl
  · cases h

theorem refusesWithin_double (hq : q = '"' ∨ q = '\x60') (h : mentionsOn before cs = false) :
    RefusesWithin onName before (double q cs ++ [q]) rest := by
  have hquote (before : Option Char) (x : Chars) : Refuses onName before (q :: x) := by
    refine refuses_onName ?_
    rintro c ⟨⟩
    rcases hq with rfl | rfl <;> decide
  induction cs generalizing before with
  | nil => exact .cons (hquote _ _) .nil
  | cons c cs ih =>
    rw [mentionsOn, Bool.or_eq_false_iff] at h
    obtain ⟨hhere, hlater⟩ := h
    rw [double, List.flatMap_cons, ← double]
    split
    · next hc =>
      subst hc
      exact .cons (hquote _ _) (.cons (hquote _ _) (ih hlater))
    · next hc =>
      refine .cons (refuses_onName_of_opensOn ?_) (ih hlater)
      have hdouble : double q (c :: cs) ++ q :: rest = c :: (double q cs ++ [q]) ++ rest := by
        simp [double, hc]
      cases hbefore : before.any isWord with
      | true => rfl
      | false =>
        rw [Bool.not_false, Bool.true_and, Bool.eq_false_iff]
        change opensOn (c :: (double q cs ++ [q]) ++ rest) ≠ true
        rw [← hdouble]
        intro hopens
        simp [hbefore, opensOn_of_double hq hopens] at hhere

theorem mentionsOn_some_eq (hbefore : before.any isWord = false) (cs : Chars) :
    mentionsOn before cs = mentionsOn none cs := by
  cases cs with
  | nil => rfl
  | cons c cs =>
    rw [mentionsOn, mentionsOn, hbefore]
    rfl

/-- Nothing is read as an `ON` in a name that does not mention one. -/
theorem refusesWithin_quote (d : Dialect) (h : mentionsOn none n.toList = false) :
    RefusesWithin onName before (d.quote n).toList rest := by
  have hquote : sameLetter 'O' d.nameQuote = false ∧ (some d.nameQuote).any isWord = false := by
    cases d <;> decide
  rw [Dialect.toList_quote]
  refine .cons (refuses_onName ?_) (refusesWithin_double (nameQuote_cases d) ?_)
  · rintro c ⟨⟩
    exact hquote.1
  · rwa [mentionsOn_some_eq hquote.2]

/-- Whether the name behind the first `ON` of a statement is that of another table. -/
def Strays (n text : String) : Prop :=
  ∃ m, onName.search? text.toList = some m ∧ unquote (m.group 1) ≠ n

theorem not_strays_of_mentionsOn (h : createIndex d n i = some text)
    (hname : mentionsOn none i.name.toList = false) : ¬Strays n text := by
  obtain ⟨ws, hws, tail, htail, htext⟩ := exists_createIndexText h
  rintro ⟨m, hm, hother⟩
  obtain ⟨m', hm', -, his⟩ := (reads_onName d n htail).exists_matchAt?
    ((indexOpening ws ++ ((d.quote i.name).toList ++ [' '])).length)
  have hwithin : RefusesWithin onName none (indexOpening ws ++ ((d.quote i.name).toList ++ [' ']))
      ("ON".toList ++ [' '] ++ (d.quote n).toList ++ ([' '] ++ tail)) :=
    (refusesWithin_indexOpening hws).append ((refusesWithin_quote d hname).append
      (refusesWithin_onName (List.forall_mem_singleton.2 (by decide))))
  have hlast : (indexOpening ws ++ ((d.quote i.name).toList ++ [' '])).getLast? = some ' ' := by
    rw [← List.append_assoc, List.getLast?_concat]
  have hsearch : onName.search? text.toList = some m' := by
    have hsplit : text.toList = indexOpening ws ++ ((d.quote i.name).toList ++ [' ']) ++
        ("ON".toList ++ [' '] ++ (d.quote n).toList ++ ([' '] ++ tail)) := by
      rw [htext]
      simp only [List.append_assoc]
    rw [search?, searchFrom?, Cursor.atStart, hsplit, hwithin.searchIn, hlast, Option.some_or,
      Nat.zero_add, searchIn_of_matchAt? hm']
  obtain rfl := Option.some.inj (hm.symm.trans hsearch)
  rw [his.group] at hother
  exact hother (unquote_quote d n)

/-- Whatever names stand in it, a statement that is written for a table concerns this table. Only
the definition of an index may stray, by an `ON` in the name of the index. -/
theorem written_concerns_table (d : Dialect) (n : String) :
    (∀ t inlineForeignKeys ifNotExists text, t.name = n →
      createTable d t inlineForeignKeys ifNotExists = .ok text → targetTable? text = some n) ∧
    (∀ k, targetTable? (addForeignKey d n k) = some n) ∧
    targetTable? (dropTable d n) = some n ∧
    (∀ columns rows, targetTable? (d.insert n columns rows) = some n) ∧
    ∀ i text, createIndex d n i = some text →
      (targetTable? text = some n ↔ ¬Strays n text) ∧
      (mentionsOn none i.name.toList = false → targetTable? text = some n) := by
  have hindex {i : Index} {text : String} (h : createIndex d n i = some text) :
      targetTable? text = some n ↔ ¬Strays n text := by
    obtain ⟨m, hm, htarget⟩ := exists_target_createIndex h
    rw [htarget, Option.some_inj]
    constructor
    · rintro hname ⟨m', hm', hother⟩
      obtain rfl := Option.some.inj (hm.symm.trans hm')
      exact hother hname
    · intro hstray
      by_contra hother
      exact hstray ⟨m, hm, hother⟩
  refine ⟨?_, targetTable?_addForeignKey d n, targetTable?_dropTable d n,
    targetTable?_insert d n, fun i text h => ⟨hindex h, fun hname => ?_⟩⟩
  · rintro t inlineForeignKeys ifNotExists text rfl h
    exact targetTable?_createTable h
  · exact (hindex h).2 (not_strays_of_mentionsOn h hname)

def keywordTable : Table :=
  { name := "a\" on b", columns := [{ name := "on c (", typeName := "text" }] }

def keywordIndex : Index :=
  { name := "INDEX on", columns := [{ name := "on c (" }] }

theorem keywordTable_concerned :
    let table := "CREATE TABLE IF NOT EXISTS \"a\"\" on b\" (\n  \"on c (\" text\n)"
    let index := "CREATE INDEX \"INDEX on\" ON \"a\"\" on b\" (\"on c (\")"
    createTable .sqlite keywordTable false true = .ok table ∧
      createIndex .sqlite keywordTable.name keywordIndex = some index ∧
      mentionsOn none keywordIndex.name.toList = false ∧
      targetTable? table = some "a\" on b" ∧ targetTable? index = some "a\" on b" := by
  intro table index
  have htable : createTable .sqlite keywordTable false true = .ok table := by rfl
  have hindex : createIndex .sqlite keywordTable.name keywordIndex = some index := by
    decide +kernel
  have hname : mentionsOn none keywordIndex.name.toList = false := by decide +kernel
  have h := written_concerns_table .sqlite keywordTable.name
  exact ⟨htable, hindex, hname, h.1 keywordTable false true table rfl htable,
    (h.2.2.2.2 keywordIndex index hindex).2 hname⟩

/-- The index named `a on b` of the table `t` is taken for one of the table `b`. -/
theorem not_written_concerns_table : ¬∀ (d : Dialect) (n : String) (i : Index) (text : String),
    createIndex d n i = some text → targetTable? text = some n := by
  intro h
  have hindex := h .sqlite "t" { name := "a on b", columns := [{ name := "c" }] }
    "CREATE INDEX \"a on b\" ON \"t\" (\"c\")" (by decide +kernel)
  revert hindex
  decide +kernel

end Ddl

end SqlFerry
