import SqlFerry.Proofs.Ddl.Definitions
import SqlFerry.Proofs.Schema.Order
import SqlFerry.Proofs.Sql.Literals
import SqlFerry.Strategy.Writing

/-!
# Backups read again

The script of a backup is split into the very statements that were written, in their order, as long
as no table whose rows it holds has a line feed in its name. Such a name would leave the note that
names the table.
-/

namespace SqlFerry.Backup

open Text Splitter

variable {d : Dialect} {a b : Script} {place : Surroundings} {db : Database}

/-! ## Beginning and end -/

theorem formed_preamble (d : Dialect) : ∀ x ∈ d.preamble, Formed d x.toList := by
  have hflat (rest : String) (h : IsFlat d rest.toList) (hends : EndsSolid rest.toList) :
      Formed d (spaced ["SET"] ++ rest.toList) :=
    .of_opening (by decide) (.flat h) hends
  cases d with
  | mysql =>
    simp only [Dialect.preamble, List.forall_mem_cons, List.not_mem_nil, false_implies,
      implies_true, and_true]
    exact ⟨hflat "NAMES utf8mb4" (by decide) (by decide),
      hflat "FOREIGN_KEY_CHECKS=0" (by decide) (by decide)⟩
  | postgresql =>
    simp only [Dialect.preamble, List.forall_mem_cons, List.not_mem_nil, false_implies,
      implies_true, and_true]
    have hencoding := (Closes.literal .postgresql "UTF8").before
      (show IsLink .postgresql "client_encoding = ".toList by decide)
    exact ⟨hencoding.formed ["SET"] (by decide) rfl,
      hflat "standard_conforming_strings = on" (by decide) (by decide)⟩
  | sqlite =>
    simp only [Dialect.preamble, List.forall_mem_cons, List.not_mem_nil, false_implies,
      implies_true, and_true]
    have hoff : IsFlat .sqlite "foreign_keys=OFF".toList := by decide
    exact .of_opening (show ["PRAGMA"] ∈ openings by decide) (.flat hoff) (by decide)

theorem formed_epilogue (d : Dialect) : ∀ x ∈ d.epilogue, Formed d x.toList := by
  cases d with
  | mysql =>
    simp only [Dialect.epilogue, List.forall_mem_cons, List.not_mem_nil, false_implies,
      implies_true, and_true]
    have hon : IsFlat .mysql "FOREIGN_KEY_CHECKS=1".toList := by decide
    exact .of_opening (show ["SET"] ∈ openings by decide) (.flat hon) (by decide)
  | postgresql | sqlite => rintro x ⟨⟩

/-! ## Positions of sequences -/

theorem formed_sequenceStatement (t : Table) (c : Column) :
    Formed .postgresql (sequenceStatement t c).toList := by
  have hlargest : Spelled .postgresql ("(SELECT MAX(" ++ Dialect.postgresql.quote c.name ++
      ") FROM " ++ Dialect.postgresql.quote t.name ++ ")").toList := by
    have hfrom : IsLink .postgresql ") FROM ".toList := by decide
    have hselect : IsLink .postgresql "(SELECT MAX(".toList := by decide
    have hclose : IsFlat .postgresql ")".toList := by decide
    have h := (((Spelled.name .postgresql c.name).link hfrom
      (.name .postgresql t.name)).before hselect).after hclose
    simpa only [String.toList_append, List.append_assoc] using h
  have hcomma : IsLink .postgresql ", ".toList := by decide
  have hcoalesce : IsLink .postgresql "), COALESCE(".toList := by decide
  have hone : IsLink .postgresql ", 1), ".toList := by decide
  have hsequence : IsLink .postgresql "setval(pg_get_serial_sequence(".toList := by decide
  have hnull : IsFlat .postgresql " IS NOT NULL)".toList := by decide
  have hnames := (Spelled.literal .postgresql (Dialect.postgresql.quote t.name)).link hcomma
    (.literal .postgresql c.name)
  have hmaximum := (hnames.link hcoalesce hlargest).link hone hlargest
  have hend := Closes.after (hmaximum.before hsequence) hnull (by decide)
  have hopening : "SELECT setval(pg_get_serial_sequence(".toList =
      spaced ["SELECT"] ++ "setval(pg_get_serial_sequence(".toList := rfl
  refine hend.formed ["SELECT"] (by decide) ?_
  unfold sequenceStatement
  simp only [String.toList_append, hopening, List.append_assoc]

theorem formed_mysqlSequence (table : String) (next : Int) : Formed .mysql
    ("ALTER TABLE " ++ Dialect.mysql.quote table ++ s!" AUTO_INCREMENT={next}").toList := by
  have hopening : "ALTER TABLE ".toList = spaced ["ALTER", "TABLE"] := rfl
  have hincrement : IsLink .mysql " AUTO_INCREMENT=".toList := by decide
  refine (Closes.link (.name .mysql table) hincrement (.number .mysql next)).formed
    ["ALTER", "TABLE"] (by decide) ?_
  simp only [String.toList_append, hopening, List.append_assoc]
  rfl

theorem formed_sqliteSequence (name : String) (n : Int) : Formed .sqlite
    (s!"UPDATE sqlite_sequence SET seq = {n} WHERE name = " ++
      Dialect.sqlite.literal (.text name)).toList := by
  have hopening : "UPDATE sqlite_sequence SET seq = ".toList =
      spaced ["UPDATE"] ++ "sqlite_sequence SET seq = ".toList := rfl
  have hwhere : IsLink .sqlite " WHERE name = ".toList := by decide
  have hset : IsLink .sqlite "sqlite_sequence SET seq = ".toList := by decide
  refine ((Closes.link (.number (Value.isNumberText_toString n)) hwhere
    (.literal .sqlite name)).before hset).formed ["UPDATE"] (by decide) ?_
  change ("UPDATE sqlite_sequence SET seq = " ++ toString n ++ " WHERE name = " ++
    Dialect.sqlite.textLiteral name).toList = _
  simp only [String.toList_append, hopening, List.append_assoc]

/-! ## Scripts -/

namespace Script

@[simp]
theorem text_append (a b : Script) : (a ++ b).text = a.text ++ b.text := by
  change (Script.append a b).text = _
  simp [Script.append, text, String.join_append]

/-- Whether a splitter finds the statements of a script in its text. -/
def IsLaid (d : Dialect) (s : Script) : Prop :=
  Laid d (s.statements.map (·.toList)) s.text.toList

namespace IsLaid

theorem empty (d : Dialect) : IsLaid d {} :=
  Laid.nil

theorem append (ha : IsLaid d a) (hb : IsLaid d b) : IsLaid d (a ++ b) := by
  rw [IsLaid, statements_append, List.map_append, text_append, String.toList_append]
  exact Laid.append ha hb

theorem ofStatements {xs : List String} (h : ∀ x ∈ xs, Formed d x.toList) :
    IsLaid d (.ofStatements xs) := by
  have htext : (Script.ofStatements xs).text = String.join (xs.map (· ++ ";\n")) := by
    simp [Script.ofStatements, text, Piece.text, Function.comp_def]
  rw [IsLaid, statements_ofStatements, htext]
  exact Laid.statements h

theorem part {note : String} {xs : List String} (hnote : Laid d [] note.toList)
    (h : ∀ x ∈ xs, Formed d x.toList) : IsLaid d (.part note xs) := by
  have htext : (Script.part note xs).text = note ++ (Script.ofStatements xs).text := by
    simp [Script.part, Script.ofStatements, text, Piece.text, String.join_cons]
  rw [IsLaid, htext, String.toList_append]
  exact hnote.append (ofStatements h)

end IsLaid

end Script

/-! ## Notes -/

theorem laid_line (d : Dialect) (line : String) (hline : '\n' ∉ line.toList) :
    Laid d [] ("--" ++ line ++ "\n").toList := by
  have h := Laid.comment d hline
  rwa [String.toList_append, String.toList_append]

/-- A note of one line below a blank one. -/
theorem laid_note (d : Dialect) (line : String) (hline : '\n' ∉ line.toList) :
    Laid d [] ("\n--" ++ line ++ "\n").toList := by
  have h := (Laid.lineFeed d).append (laid_line d line hline)
  rwa [String.toList_append, String.toList_append] at h ⊢

/-- The lines of a header are comments. -/
theorem laid_header (d : Dialect) {strategy created : String} (hstrategy : '\n' ∉ strategy.toList)
    (hcreated : '\n' ∉ created.toList) (target : Option Dialect) :
    Laid d [] (Restore.Header.write d strategy version created target).toList := by
  have hfirst : Laid d [] ("--" ++ " dbporter 0.1.0 SQL backup" ++ "\n").toList :=
    laid_line d _ (by decide)
  have hown (label : String) {value : String} (hlabel : '\n' ∉ label.toList)
      (hvalue : '\n' ∉ value.toList) : Laid d [] ("--" ++ (label ++ value) ++ "\n").toList :=
    laid_line d _ (by simp [hlabel, hvalue])
  have hname (d : Dialect) : '\n' ∉ d.name.toList := by
    cases d <;> decide
  have hhead := hfirst.append (hown " Dialect: " (by decide) (hname d))
  have htail := (hown " Strategy: " (by decide) hstrategy).append
    (hown " Created: " (by decide) hcreated)
  unfold Restore.Header.write Restore.Header.marker version
  split
  · next t =>
    split
    · simpa using hhead.append htail
    · simpa using (hhead.append (hown " Target-Dialect: " (by decide) (hname t))).append htail
  · simpa using hhead.append htail

/-! ## Parts of a script -/

section Parts

variable {s : Schema} {order : List Table} {o : BackupOptions}

theorem isLaid_schemaScript {drops : Bool} (hplain : ∀ t ∈ order, t.IsPlain)
    {script : Script} (h : schemaScript d order drops = .ok script) : script.IsLaid d := by
  obtain ⟨tables, htables, h⟩ := exists_of_bind_eq_ok h
  cases h
  refine .part (laid_note d " Schema" (by decide)) fun x hx => ?_
  rcases List.mem_append.1 hx with hx | hx
  · split at hx
    · obtain ⟨t, -, rfl⟩ := List.mem_map.1 hx
      exact Ddl.formed_dropTable d t.name
    · cases hx
  · exact forall_of_mapM_eq_ok htables (P := fun x => Formed d x.toList)
      (fun t ht _ => Ddl.formed_createTable (hplain t ht)) x hx

theorem isLaid_constraintsScript (hplain : ∀ t ∈ order, t.IsPlain) :
    (constraintsScript d order).IsLaid d := by
  refine .part (laid_note d " Indexes and constraints" (by decide)) fun x hx => ?_
  rcases List.mem_append.1 hx with hx | hx
  · obtain ⟨t, ht, hx⟩ := List.mem_flatMap.1 hx
    obtain ⟨i, hi, hx⟩ := List.mem_filterMap.1 hx
    exact Ddl.formed_createIndex ((hplain t ht).indexes i hi) hx
  · split at hx
    · cases hx
    · obtain ⟨t, ht, hx⟩ := List.mem_flatMap.1 hx
      obtain ⟨c, hc, rfl⟩ := List.mem_map.1 hx
      exact Ddl.formed_addForeignKey ((hplain t ht).constraints c (List.mem_filter.1 hc).1) t.name

theorem stream_returns (db : Database) {size : Nat} {sql : String} :
    Work.Returns (∀ g ∈ ·, g ≠ []) place (Act.on db (Talk.stream size sql)) := by
  have hstream : Work.Returns (∀ g ∈ ·, g ≠ []) db (Talk.stream size sql) :=
    .seq fun _ => .seq fun log => .bind .read fun db' _ =>
      .pure fun _ hg => (db'.cutting log sql).ne_nil_of_mem hg
  exact .within hstream

/-- The rows of each table stand below a note that names it. -/
theorem rowsScript_returns {batchSize total : Nat} (hnames : ∀ t ∈ order, '\n' ∉ t.name.toList)
    (done rows : Nat) : Work.Returns (Script.IsLaid d) place
      (rowsScript db d batchSize total done rows order) := by
  induction order generalizing done rows with
  | nil => exact .pure (.empty d)
  | cons t order ih =>
    have hnote : '\n' ∉ (" Data for " ++ t.name).toList := by
      rw [String.toList_append, List.mem_append, not_or]
      exact ⟨by decide, hnames t List.mem_cons_self⟩
    refine (stream_returns db).bind fun groups hgroups => ?_
    refine .bind (.ofOutcome fun inserts => Dialect.eq_map_insert) fun inserts hinserts =>
      .seq fun _ => ?_
    refine (ih (fun u hu => hnames u (List.mem_cons_of_mem _ hu)) _ _).bind fun rest hrest => ?_
    have hown : (Script.part s!"\n-- Data for {t.name}\n" inserts).IsLaid d := by
      refine .part ?_ fun x hx => ?_
      · have h := laid_note d _ hnote
        rwa [← String.append_assoc] at h
      · rw [hinserts] at hx
        obtain ⟨group, hgroup, rfl⟩ := List.mem_map.1 hx
        exact formed_insert d t.name t.columnNames (hgroups group hgroup)
    exact .pure (.append hown hrest)

theorem formed_of_filterMap {found : List (Option String)}
    (h : ∀ x ∈ found, ∀ sql ∈ x, Formed d sql.toList) :
    ∀ x ∈ found.filterMap id, Formed d x.toList := by
  intro sql hsql
  obtain ⟨x, hx, hsql⟩ := List.mem_filterMap.1 hsql
  exact h x hx sql hsql

/-- All that a table of MySQL adds is the number that comes next. -/
theorem mysqlSequence_writes (t : Table) (c : Column) : Work.Returns
    (∀ sql ∈ ·, ∃ next : Int,
      sql = "ALTER TABLE " ++ Dialect.mysql.quote t.name ++ s!" AUTO_INCREMENT={next}") place
    (mysqlSequence db t c) := by
  refine .seq fun found => ?_
  split
  · exact .pure (by simp)
  · exact .pure (by simp)
  · refine .seq fun last => .bind (.ofOutcome fun _ => Value.eq_toString_of_wholeText) ?_
    rintro _ rfl
    refine .pure ?_
    rintro _ ⟨⟩
    exact ⟨last + 1, String.append_assoc ..⟩

/-- Only a text can be the name of a table. -/
theorem sqliteSequence_writes {row : Row} {x : Option String}
    (h : sqliteSequence s row = .ok x) : ∀ sql ∈ x, ∃ name : String, ∃ n : Int,
      sql = s!"UPDATE sqlite_sequence SET seq = {n} WHERE name = " ++
        Dialect.sqlite.literal (.text name) := by
  unfold sqliteSequence at h
  split at h
  · next name position =>
    obtain ⟨known, hknown, h⟩ := exists_of_bind_eq_ok h
    cases known with
    | false =>
      cases h
      simp
    | true =>
      obtain ⟨n, -, h⟩ := exists_of_bind_eq_ok h
      obtain ⟨digits, hdigits, h⟩ := exists_of_bind_eq_ok h
      obtain ⟨name, rfl⟩ : ∃ text, name = .text text := by
        cases name <;> first | exact ⟨_, rfl⟩ | cases hknown
      cases h
      rw [Value.eq_toString_of_wholeText hdigits]
      rintro _ ⟨⟩
      exact ⟨name, n, rfl⟩
  · cases h

theorem sequences_returns (s : Schema) :
    Work.Returns (∀ x ∈ ·, Formed d x.toList) place (sequences db d s) := by
  cases d with
  | postgresql =>
    refine .pure fun x hx => ?_
    obtain ⟨⟨t, c⟩, -, rfl⟩ := List.mem_map.1 hx
    exact formed_sequenceStatement t c
  | mysql =>
    have hone (tc : Table × Column) :
        Work.Returns (∀ sql ∈ ·, Formed .mysql sql.toList) place (mysqlSequence db tc.1 tc.2) := by
      intro w x w' hx sql hsql
      obtain ⟨next, rfl⟩ := mysqlSequence_writes tc.1 tc.2 w x w' hx sql hsql
      exact formed_mysqlSequence _ next
    exact (Work.Returns.mapM fun tc _ => hone tc).bind fun found h => .pure (formed_of_filterMap h)
  | sqlite =>
    refine .seq fun there => ?_
    split
    · exact .pure (by simp)
    · refine .seq fun rows => .bind (.ofOutcome fun found hfound => ?_) fun found h =>
        .pure (formed_of_filterMap h)
      refine forall_of_mapM_eq_ok hfound fun row _ x hx sql hsql => ?_
      obtain ⟨name, n, rfl⟩ := sqliteSequence_writes hx sql hsql
      exact formed_sqliteSequence name n

/-- To find the positions of sequences is to ask queries. -/
theorem sequences_follows {R : World → World → Prop}
    (hquery : ∀ sql, Work.Follows R place (Act.on db (Talk.query sql))) (s : Schema) :
    Work.Follows R place (sequences db d s) := by
  cases d with
  | postgresql => exact .pure _
  | mysql =>
    refine Work.Follows.bind (.mapM fun tc _ => (hquery _).bind fun found => ?_) fun _ => .pure _
    split
    · exact .pure _
    · exact .pure _
    · exact (Work.Follows.ofOutcome _).bind fun _ =>
        (Work.Follows.ofOutcome _).bind fun _ => .pure _
  | sqlite =>
    refine (hquery _).bind fun there => ?_
    split
    · exact .pure _
    · exact (hquery _).bind fun _ => (Work.Follows.ofOutcome _).bind fun _ => .pure _

/-! ## The whole script -/

theorem contentScript_returns (hplain : ∀ t ∈ s.tables, t.IsPlain)
    (hnames : o.includeData = true → ∀ t ∈ s.tables, '\n' ∉ t.name.toList) :
    Work.Returns (Script.IsLaid d) place (contentScript db d o s) := by
  have hconstraints : (if o.includeSchema then constraintsScript d s.createOrder
      else {}).IsLaid d := by
    split
    · exact isLaid_constraintsScript fun t ht =>
        hplain t (Schema.mem_tables_of_mem_createOrder ht)
    · exact .empty d
  refine .ite_bind (fun hdata => rowsScript_returns (fun t ht =>
    hnames hdata t (Schema.mem_tables_of_mem_createOrder ht)) 0 0) (fun _ => .pure (.empty d))
      fun rows hrows => ?_
  refine .ite_bind (fun _ => sequences_returns s) (fun _ => .pure (by simp))
    fun positions hpositions => .pure ((hrows.append hconstraints).append ?_)
  split
  · exact .empty d
  · exact .part (laid_note d " Sequences" (by decide)) hpositions

/-- Whatever its tables hold, the script of a backup is split into its statements. -/
theorem wholeScript_returns {strategy : String} (target : Option Dialect)
    (hnow : '\n' ∉ place.now.toList) (hstrategy : '\n' ∉ strategy.toList)
    (hplain : ∀ t ∈ s.tables, t.IsPlain)
    (hnames : o.includeData = true → ∀ t ∈ s.tables, '\n' ∉ t.name.toList) :
    Work.Returns (Script.IsLaid d) place (wholeScript db strategy d o target s) := by
  have hheader : Laid d [] (Restore.Header.write d strategy version place.now target ++
      "\n").toList := by
    rw [String.toList_append]
    exact (laid_header d hstrategy hnow target).append (.lineFeed d)
  have htables (script : Script) (h : (if o.includeSchema then
      schemaScript d s.createOrder o.dropExisting else .ok {}) = .ok script) :
      script.IsLaid d := by
    split at h
    · exact isLaid_schemaScript (fun t ht =>
        hplain t (Schema.mem_tables_of_mem_createOrder ht)) h
    · cases h
      exact .empty d
  refine .bind .read fun here hhere => ?_
  subst hhere
  refine .bind (.ofOutcome htables) fun tables htables => ?_
  refine (Work.Returns.connected (contentScript_returns hplain hnames)).bind fun content hcontent =>
    .pure ?_
  exact ((Script.IsLaid.part hheader (formed_preamble d)).append htables |>.append hcontent).append
    (.ofStatements (formed_epilogue d))

end Parts

def stored (o : BackupOptions) (script : Script) : Bytes.Octets :=
  let bytes := Bytes.encode script.text
  if o.compress then Bytes.Gzip.compress bytes else bytes

/-- The script that a backup of the schema `s` makes once its file has been made empty. -/
inductive Emits (db : Database) (strategy : String) (d : Dialect) (o : BackupOptions) (p : Path)
    (place : Surroundings) (w : World) (s : Schema) (script : Script) : Prop
  | intro {target : Option Dialect} {files : Files} {w' : World} (htarget : o.target = .ok target)
      (hempty : w.files.write p [] = .ok files)
      (hscript : (wholeScript db strategy d o target (s.without o.excludeTables)).result place
        { w with files } = (.ok script, w'))

/-- A backup as a script is its script and what its record says of it. -/
theorem exists_of_writeScript_eq_ok {strategy : String} {o : BackupOptions} {p : Path}
    {world world' : World} {details : Details}
    (h : (writeScript db strategy d o p).result place world = (.ok details, world')) :
    ∃ s w target files script w',
      (Act.on db (Introspection.schema d o.tables)).result place world = (.ok s, w) ∧
      o.target = .ok target ∧ w.files.write p [] = .ok files ∧
      (wholeScript db strategy d o target (s.without o.excludeTables)).result place
        { w with files } = (.ok script, w') ∧
      world'.log = w'.log ∧ world'.files.read? p = some (stored o script) ∧
      details.facts.lookup "statements" = some (.int script.statements.length) ∧
      details.rows = script.rows := by
  obtain ⟨target, htarget, h⟩ := Work.exists_of_ofOutcome_bind_eq_ok h
  obtain ⟨s, w, hs, h⟩ := Work.exists_of_result_bind_eq_ok h
  obtain ⟨_, _, hemptied, h⟩ := Work.exists_of_result_bind_eq_ok h
  obtain ⟨files, hempty, rfl⟩ := Act.exists_of_change_eq_ok hemptied
  obtain ⟨script, w', hscript, h⟩ := Work.exists_of_result_bind_eq_ok h
  obtain ⟨_, _, hwritten, h⟩ := Work.exists_of_result_bind_eq_ok h
  obtain ⟨files', hwrite, rfl⟩ := Act.exists_of_change_eq_ok hwritten
  cases h
  exact ⟨s, w, target, files, script, w', hs, htarget, hempty, hscript, rfl,
    Files.read?_of_write hwrite, rfl, rfl⟩

theorem exists_of_writeScript {strategy : String} {o : BackupOptions} {p : Path}
    {world world' : World} {details : Details}
    (h : (writeScript db strategy d o p).result place world = (.ok details, world')) :
    ∃ s w script, (Act.on db (Introspection.schema d o.tables)).result place world = (.ok s, w) ∧
      Emits db strategy d o p place w s script ∧
      world'.files.read? p = some (stored o script) ∧
      details.facts.lookup "statements" = some (.int script.statements.length) := by
  obtain ⟨s, w, target, files, script, w', hs, htarget, hempty, hscript, -, hfile, hfacts, -⟩ :=
    exists_of_writeScript_eq_ok h
  exact ⟨s, w, script, hs, ⟨htarget, hempty, hscript⟩, hfile, hfacts⟩

theorem writeScript_of_write {o : BackupOptions} {p : Path} {world world' : World}
    {details : Details} (hdb : place.database = some db)
    (h : ((Strategy.script d).write o p).result place world = (.ok details, world')) :
    (writeScript db (Strategy.script d).name d o p).result place world = (.ok details, world') := by
  have hrequire : (Strategy.script d).requireDatabase.result place world = (.ok db, world) := by
    simp [Strategy.requireDatabase, Work.result_bind, hdb]
  obtain ⟨_, _, hfound, hwrite⟩ := Work.exists_of_result_bind_eq_ok h
  rw [hrequire] at hfound
  cases hfound
  exact hwrite

/-- A backup as a script is split into the statements that were emitted, as many as its record says,
whatever the names and the rows are: no text is taken over into it as it stands but words, and no
table whose rows it holds has a line feed in its name. -/
theorem write_parses_back {o : BackupOptions} {p : Path} {world w world' : World} {s : Schema}
    {details : Details} (hdb : place.database = some db) (hnow : '\n' ∉ place.now.toList)
    (hschema : (Act.on db (Introspection.schema d o.tables)).result place world = (.ok s, w))
    (hplain : ∀ t ∈ (s.without o.excludeTables).tables, t.IsPlain)
    (hnames : o.includeData = true →
      ∀ t ∈ (s.without o.excludeTables).tables, '\n' ∉ t.name.toList)
    (hrun : ((Strategy.script d).write o p).result place world = (.ok details, world')) :
    ∃ script, Emits db (Strategy.script d).name d o p place w s script ∧
      world'.files.read? p = some (stored o script) ∧
      details.facts.lookup "statements" = some (.int script.statements.length) ∧
      ∀ maxSize : SizeLimit, (∀ x ∈ script.statements, maxSize.isExceededBy x.length = false) →
        ∃ found, (parse { dialect := some d, maxSize } script.text.toList).2 = .ok found ∧
          found.map (·.text) = script.statements := by
  have hwrite := writeScript_of_write hdb hrun
  obtain ⟨s', w₁, script, hs, hemits, hfile, hfacts⟩ := exists_of_writeScript hwrite
  rw [hschema] at hs
  cases hs
  have hlaid : script.IsLaid d := by
    obtain ⟨-, -, hscript⟩ := hemits
    have hstrategy : '\n' ∉ (Strategy.script d).name.toList := by
      cases d <;> decide
    exact wholeScript_returns _ hnow hstrategy hplain hnames _ _ _ hscript
  refine ⟨script, hemits, hfile, hfacts, fun maxSize hsize => ?_⟩
  obtain ⟨found, hparse, htexts⟩ := parse_laid hlaid maxSize fun cs hcs => by
    obtain ⟨x, hx, rfl⟩ := List.mem_map.1 hcs
    exact hsize x hx
  exact ⟨found, hparse, by simpa [Function.comp_def] using htexts⟩

def keeping (table : String) : Database where
  dialect := .sqlite
  refuses := fun _ _ => none
  rows := fun _ sql =>
    if sql = "SELECT \"a\" FROM " ++ Dialect.sqlite.quote table then [[.text "it's; -- a"]] else []
  catalog := { tables := [{ name := table, columns := [{ name := "a", type := some "TEXT" }] }] }

def around (db : Database) : Surroundings where
  connection := { dialect := db.dialect }
  database := some db
  tools := { access := .error .nothingFirst, finds := fun _ => false
             run := fun _ => .error .nothingFirst }
  now := "2024-01-01T00:00:00+00:00"
  folder := "/"
  imageTrouble := fun _ => none
  sqliteVersion := "3.45.0"

def keptSchema (table : String) : Schema where
  dialect := some .sqlite
  tables := [{ name := table, columns := [{ name := "a", typeName := "text" }] }]

theorem quotes_parse_back : ∃ details world' script,
    ((Strategy.script .sqlite).write {} { parts := ["b.sql"] }).result
      (around (keeping "a;'\"--")) {} = (.ok details, world') ∧
    world'.files.read? { parts := ["b.sql"] } = some (stored {} script) ∧
    details.facts.lookup "statements" = some (.int script.statements.length) ∧
    ∃ found, (parse { dialect := some .sqlite, maxSize := ⟨none, ""⟩ } script.text.toList).2 =
      .ok found ∧ found.map (·.text) = script.statements := by
  let db := keeping "a;'\"--"
  let o : BackupOptions := {}
  have hintrospection : ((Act.on db (Introspection.schema .sqlite o.tables)).result
      (around db) {}).1.toOption.map id = some (keptSchema "a;'\"--") := by
    decide +kernel
  obtain ⟨s, w, hschema, rfl⟩ := Work.exists_ok_of_map_eq_some hintrospection
  have hreturn : (((Strategy.script .sqlite).write o { parts := ["b.sql"] }).result
      (around db) {}).1.toOption.map (·.rows) = some 1 := by
    decide +kernel
  obtain ⟨details, world', hrun, -⟩ := Work.exists_ok_of_map_eq_some hreturn
  have hplain : ∀ t ∈ ((keptSchema "a;'\"--").without o.excludeTables).tables, t.IsPlain := by
    decide +kernel
  have hnames : ∀ t ∈ ((keptSchema "a;'\"--").without o.excludeTables).tables,
      '\n' ∉ t.name.toList := by
    decide +kernel
  have hnow : '\n' ∉ (around db).now.toList := by decide
  obtain ⟨script, -, hfile, hcount, hparse⟩ :=
    write_parses_back rfl hnow hschema hplain (fun _ => hnames) hrun
  exact ⟨details, world', script, hrun, hfile, hcount, hparse ⟨none, ""⟩ fun _ _ => rfl⟩

/-- The name of a table can leave the note that names it. -/
theorem not_write_parses_back : ¬∀ (d : Dialect) (db : Database) (place : Surroundings)
    (o : BackupOptions) (p : Path) (world w world' : World) (s : Schema) (details : Details),
    place.database = some db → '\n' ∉ place.now.toList →
    (Act.on db (Introspection.schema d o.tables)).result place world = (.ok s, w) →
    (∀ t ∈ (s.without o.excludeTables).tables, t.IsPlain) →
    ((Strategy.script d).write o p).result place world = (.ok details, world') →
    ∃ script, Emits db (Strategy.script d).name d o p place w s script ∧
      ∀ maxSize : SizeLimit, (∀ x ∈ script.statements, maxSize.isExceededBy x.length = false) →
        ∃ found, (parse { dialect := some d, maxSize } script.text.toList).2 = .ok found ∧
          found.map (·.text) = script.statements := by
  intro h
  let db := keeping "a\nb"
  -- Without the schema the script is short.
  let o : BackupOptions := { includeSchema := false }
  let p : Path := { parts := ["b.sql"] }
  let seen := (Act.on db (Introspection.schema .sqlite o.tables)).result (around db) {}
  have hintrospection : seen.1.toOption.map id = some (keptSchema "a\nb") := by
    decide +kernel
  obtain ⟨s, w, hschema, rfl⟩ := Work.exists_ok_of_map_eq_some hintrospection
  have hreturn : (((Strategy.script .sqlite).write o p).result (around db) {}).1.toOption.map
      (·.rows) = some 1 := by
    decide +kernel
  obtain ⟨details, world', hrun, -⟩ := Work.exists_ok_of_map_eq_some hreturn
  have hplain : ∀ t ∈ ((keptSchema "a\nb").without o.excludeTables).tables, t.IsPlain := by
    decide +kernel
  have hnow : '\n' ∉ (around db).now.toList := by decide
  obtain ⟨script, ⟨htarget, hempty, hscript⟩, hparse⟩ :=
    h .sqlite db (around db) o p {} w world' _ details rfl hnow hschema hplain hrun
  cases htarget
  obtain ⟨found, hfound, htexts⟩ := hparse ⟨none, ""⟩ fun _ _ => rfl
  have hother : ((seen.2.files.write p []).toOption.bind fun files =>
      ((wholeScript db (Strategy.script .sqlite).name .sqlite o none
        ((keptSchema "a\nb").without o.excludeTables)).result (around db)
          { seen.2 with files }).1.toOption.map fun script =>
            decide ((parse { dialect := some .sqlite, maxSize := ⟨none, ""⟩ }
              script.text.toList).2.toOption.map (·.map (·.text)) = some script.statements)) =
        some false := by
    decide +kernel
  have hw : seen.2 = w := congrArg Prod.snd hschema
  simp only [hw, hempty, Except.toOption, Option.bind_some, hscript, hfound, Option.map_some,
    htexts, decide_true, Option.some.injEq, Bool.true_eq_false] at hother

end SqlFerry.Backup
