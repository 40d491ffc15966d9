import SqlFerry.Proofs.Convert.Skeleton
import SqlFerry.Proofs.Ddl.Producers

/-!
# Rows are moved once

A migration and a backup read the tables of a schema one after another and write what they read as
statements that insert it. All rows of a table are written behind one another in the order in which
they were found, under the names of the columns from which they were read, and nothing else that is
written inserts rows.
-/

namespace SqlFerry

open Text Work

/-! ## Statements that insert -/

def isInsertion (sql : String) : Bool :=
  startsWith "INSERT ".toList sql.toList

def Request.insertion? : Request → Option String
  | .exec sql => if isInsertion sql then some sql else none
  | _ => none

theorem isInsertion_insert (d : Dialect) (table : String) (columns : List String)
    (rows : List Row) : isInsertion (d.insert table columns rows) = true := by
  unfold isInsertion Dialect.insert Dialect.insertOf
  simp only [String.toList_append, List.append_assoc]
  rfl

/-- A statement that begins with another letter inserts nothing. -/
theorem isInsertion_append {a : String} (h : a.toList.head?.any (· != 'I') = true) (b : String) :
    isInsertion (a ++ b) = false := by
  unfold isInsertion
  rw [String.toList_append]
  cases ha : a.toList with
  | nil =>
    rw [ha] at h
    cases h
  | cons c cs =>
    rw [ha] at h
    have hc : ('I' == c) = false := by
      rw [beq_eq_false_iff_ne]
      rintro rfl
      cases h
    simp [startsWith, after?, hc]

theorem filterMap_insertion?_exec (statements : List String) :
    (statements.map Request.exec).filterMap Request.insertion? =
      statements.filter isInsertion := by
  induction statements with
  | nil => rfl
  | cons sql rest ih =>
    rw [List.map_cons, List.filterMap_cons, List.filter_cons, ih, Request.insertion?]
    cases isInsertion sql <;> rfl

/-- Of statements among which only some in the middle insert rows, these are those that do. -/
theorem filter_isInsertion {before rows after : List String}
    (hbefore : ∀ sql ∈ before, isInsertion sql = false)
    (hrows : ∀ sql ∈ rows, isInsertion sql = true)
    (hafter : ∀ sql ∈ after, isInsertion sql = false) :
    (before ++ rows ++ after).filter isInsertion = rows := by
  have hnone {xs : List String} (h : ∀ sql ∈ xs, isInsertion sql = false) :
      xs.filter isInsertion = [] :=
    List.filter_eq_nil_iff.2 fun sql hsql => by simp [h sql hsql]
  rw [List.filter_append, List.filter_append, hnone hbefore, hnone hafter,
    List.filter_eq_self.2 hrows, List.nil_append, List.append_nil]

namespace Ddl

variable {d : Dialect} {s : Schema} {sql : String}

theorem isInsertion_preamble : ∀ sql ∈ d.preamble, isInsertion sql = false := by
  cases d <;> decide

theorem isInsertion_epilogue : ∀ sql ∈ d.epilogue, isInsertion sql = false := by
  cases d <;> decide

theorem isInsertion_dropTable (d : Dialect) (table : String) :
    isInsertion (dropTable d table) = false := by
  unfold dropTable
  rw [String.append_assoc]
  exact isInsertion_append (by decide) _

theorem isInsertion_of_makes {t : Table} (h : Makes d t sql) : isInsertion sql = false := by
  obtain ⟨columns, -, rfl⟩ := h
  simp only [String.append_assoc]
  exact isInsertion_append (by decide) _

/-- The statements that drop and make the tables. -/
theorem isInsertion_of_made {made : List String} {drops : Bool}
    (h : s.createOrder.mapM (createTable d · (d == .sqlite)) = .ok made) :
    ∀ sql ∈ dropped d s drops ++ made, isInsertion sql = false := by
  refine List.forall_mem_append.2 ⟨fun sql hsql => ?_, ?_⟩
  · unfold dropped at hsql
    split at hsql
    · obtain ⟨t, -, rfl⟩ := List.mem_map.1 hsql
      exact isInsertion_dropTable d t.name
    · cases hsql
  · exact forall_of_mapM_eq_ok h fun t _ sql hsql =>
      isInsertion_of_makes (makes_of_createTable hsql)

theorem isInsertion_of_write {tables : List String} {drops : Bool}
    (h : write d s { drops, indexes := false, foreignKeys := d == .sqlite } = .ok tables) :
    ∀ sql ∈ tables, isInsertion sql = false := by
  rw [write_tables] at h
  obtain ⟨made, hmade, rfl⟩ := exists_of_map_eq_ok h
  exact isInsertion_of_made hmade

theorem isInsertion_of_createIndex {table : String} {i : Index}
    (h : createIndex d table i = some sql) : isInsertion sql = false := by
  unfold createIndex at h
  split at h
  · cases h
  · cases h
    simp only [String.append_assoc]
    exact isInsertion_append (by decide) _

theorem isInsertion_later : ∀ sql ∈ later d s, isInsertion sql = false := by
  intro sql hsql
  rcases List.mem_append.1 hsql with hsql | hsql
  · obtain ⟨t, -, hsql⟩ := List.mem_flatMap.1 hsql
    obtain ⟨i, -, hsql⟩ := List.mem_filterMap.1 hsql
    exact isInsertion_of_createIndex hsql
  · obtain ⟨t, -, hsql⟩ := List.mem_flatMap.1 hsql
    obtain ⟨c, -, rfl⟩ := List.mem_map.1 hsql
    unfold addForeignKey
    simp only [String.append_assoc]
    exact isInsertion_append (by decide) _

theorem SetsSequence.isInsertion (h : SetsSequence s d sql) : isInsertion sql = false := by
  cases h with
  | postgresql h =>
    unfold Backup.sequenceStatement
    simp only [String.append_assoc]
    exact isInsertion_append (by decide) _
  | reset h =>
    obtain ⟨t, -, h⟩ := List.mem_flatMap.1 h
    obtain ⟨c, -, rfl⟩ := List.mem_map.1 h
    unfold Convert.sequenceReset
    simp only [String.append_assoc]
    exact isInsertion_append (by decide) _
  | mysql h next =>
    simp only [String.append_assoc]
    exact isInsertion_append (by decide) _
  | sqlite name n =>
    simp only [String.append_assoc]
    exact isInsertion_append (by decide) _

end Ddl

/-! ## Rows as they were read -/

/-- What is found when the rows of the tables are asked for, one table after another, behind the
requests of a log. -/
def Database.readAll (db : Database) (d : Dialect) : Log → List Table → List (Table × List Row)
  | _, [] => []
  | log, t :: rest =>
    let log := log ++ [.query (d.rowsQuery t)]
    (t, db.rows log (d.rowsQuery t)) :: db.readAll d log rest

/-- Whether the groups hold the rows in their order, without an empty group and with at most `n` in
each. -/
structure IsCut (n : Nat) (rows : List Row) (groups : List (List Row)) : Prop where
  flatten_eq : groups.flatten = rows
  ne_nil : ∀ g ∈ groups, g ≠ []
  length_le : ∀ g ∈ groups, g.length ≤ n

/-- The rows of a table, as they were read, and statements that insert them group by group into a
table of the schema with the name of that table and with columns of the same names. -/
inductive Moves (d : Dialect) (n : Nat) (s : Schema) : Table × List Row → List String → Prop where
  | intro {t into : Table} {rows : List Row} {groups : List (List Row)} (hinto : into ∈ s.tables)
      (hname : into.name = t.name) (hcolumns : into.columnNames = t.columnNames)
      (hgroups : IsCut n rows groups) :
    Moves d n s (t, rows) (groups.map (d.insert into.name into.columnNames))

/-- Whether the rows of the tables were asked for on a connection of their own, behind the requests
of `log` and one table after another, and the statements, part by part, move what was found: so many
rows in all. -/
structure MovesAll (db : Database) (d : Dialect) (log : Log) (order : List Table)
    (moves : Table × List Row → List String → Prop) (after : Log) (statements : List String)
    (count : Nat) : Prop where
  asked : log ++ .connect :: order.map (.query ∘ d.rowsQuery) <+: after
  moved : ∃ parts, List.Forall₂ moves (db.readAll d (log ++ [.connect]) order) parts ∧
    statements = parts.flatten
  counted : count = ((db.readAll d (log ++ [.connect]) order).flatMap (·.2)).length

/-- The rows of a single table. -/
theorem MovesAll.of_one {db : Database} {d target : Dialect} {n count : Nat} {s : Schema}
    {t : Table} {log after : Log} {statements : List String}
    (h : MovesAll db d log [t] (Moves target n s) after statements count) :
    ∃ groups, IsCut n (db.rows (log ++ [.connect] ++ [.query (d.rowsQuery t)]) (d.rowsQuery t))
        groups ∧
      statements = groups.map (target.insert t.name t.columnNames) ∧
      count = (db.rows (log ++ [.connect] ++ [.query (d.rowsQuery t)]) (d.rowsQuery t)).length := by
  obtain ⟨-, ⟨parts, hparts, rfl⟩, hcount⟩ := h
  obtain _ | ⟨hmoves, _ | _⟩ := hparts
  obtain ⟨hinto, hname, hcolumns, hgroups⟩ := hmoves
  exact ⟨_, hgroups, by simp [hname, hcolumns], by simpa [Database.readAll] using hcount⟩

/-- All that is written of the rows are insertions. -/
theorem isInsertion_of_moves {d : Dialect} {n : Nat} {s : Schema}
    {found : List (Table × List Row)} {inserts : List (List String)}
    (h : List.Forall₂ (Moves d n s) found inserts) :
    ∀ sql ∈ inserts.flatten, isInsertion sql = true := by
  induction h with
  | nil => simp
  | cons hmoves _ ih =>
    refine List.forall_mem_append.2 ⟨fun sql hsql => ?_, ih⟩
    cases hmoves
    obtain ⟨g, -, rfl⟩ := List.mem_map.1 hsql
    exact isInsertion_insert _ _ _ _

/-- What is streamed is what the query finds. -/
theorem Talk.of_stream_eq_ok {db : Database} {n : Nat} {sql : String} {log log' : Log}
    {groups : List (List Row)} (hn : 0 < n)
    (h : (Talk.stream n sql).result db log = (.ok groups, log')) :
    log' = log ++ [.query sql] ∧ IsCut n (db.rows (log ++ [.query sql]) sql) groups := by
  obtain ⟨_, _, hsent, h⟩ := exists_of_result_bind_eq_ok h
  cases Talk.eq_of_send_eq_ok hsent
  cases h
  exact ⟨rfl, (db.cutting _ sql).flatten_groups hn _, fun _ => (db.cutting _ sql).ne_nil_of_mem,
    fun _ => (db.cutting _ sql).length_le_of_mem⟩

/-! ## Tables that receive rows -/

/-- Whether the rows of `t` go into a table of its name with columns of the same names. -/
def Schema.Receives (target : Schema) (t : Table) : Prop :=
  ∃ into, target.table? t.name = some into ∧ into.name = t.name ∧
    into.columnNames = t.columnNames

theorem find?_of_forall₂ {α β : Type} {R : α → β → Prop} {p : α → Bool} {q : β → Bool}
    (hpq : ∀ a b, R a b → q b = p a) {as : List α} {bs : List β} (h : List.Forall₂ R as bs) {a : α}
    (ha : as.find? p = some a) : ∃ b, bs.find? q = some b ∧ R a b := by
  induction h with
  | nil => cases ha
  | @cons a' b' _ _ hab _ ih =>
    rw [List.find?_cons] at ha ⊢
    rw [hpq _ _ hab]
    cases hp : p a' with
    | true =>
      rw [hp] at ha
      cases ha
      exact ⟨b', rfl, hab⟩
    | false =>
      rw [hp] at ha
      exact ih ha

theorem Schema.named?_of_mem_createOrder {s : Schema} {t : Table} (h : t ∈ s.createOrder) :
    s.named? t.name = some t := by
  rw [createOrder_eq, List.mem_filterMap] at h
  obtain ⟨name, -, hnamed⟩ := h
  rwa [(name_of_named? hnamed).2]

/-- A schema with the names of another receives the rows of its tables. -/
theorem Schema.receives_of_echoes {s target : Schema}
    (h : List.Forall₂ Table.Echoes s.tables target.tables) {t : Table} (ht : t ∈ s.createOrder) :
    target.Receives t := by
  have hfind : s.tables.find? (·.name == t.name) = some t := named?_of_mem_createOrder ht
  obtain ⟨into, hinto, hechoes⟩ :=
    find?_of_forall₂ (fun _ _ hab => congrArg (· == t.name) hab.name) h hfind
  have hnamed : target.named? t.name = some into := hinto
  refine ⟨into, ?_, hechoes.name, hechoes.columns⟩
  rw [table?, hnamed]

/-! ## Migrations -/

namespace Migration

variable {job : Job} {run run' : Run} {α : Type}

/-- Whether one run is another after more requests to the source and to the target. -/
structure Run.Extends (run : Run) (asked told : Log) (run' : Run) : Prop where
  source : run'.sourceLog = run.sourceLog ++ asked
  target : run'.targetLog = run.targetLog ++ told

namespace Run.Extends

variable {run'' : Run} {asked asked' told told' : Log}

theorem refl (run : Run) : run.Extends [] [] run :=
  ⟨by simp, by simp⟩

theorem trans (h : run.Extends asked told run') (h' : run'.Extends asked' told' run'') :
    run.Extends (asked ++ asked') (told ++ told') run'' :=
  ⟨by rw [h'.source, h.source, List.append_assoc], by rw [h'.target, h.target, List.append_assoc]⟩

end Run.Extends

theorem extends_of_send_eq_ok {r : Request} {u : Unit}
    (h : (onSource (Talk.send r)).result job run = (.ok u, run')) : run.Extends [r] [] run' := by
  obtain ⟨log, hlog, rfl⟩ := exists_of_within_eq_ok h
  exact ⟨Talk.eq_of_send_eq_ok hlog, by simp⟩

theorem extends_of_write_eq_ok {statements : List String} {u : Unit}
    (h : (write statements).result job run = (.ok u, run')) :
    run.Extends [] (statements.map .exec) run' := by
  induction statements generalizing run with
  | nil =>
    cases h
    exact .refl _
  | cons sql rest ih =>
    obtain ⟨_, run₁, hsent, h⟩ := exists_of_result_bind_eq_ok h
    obtain ⟨log, hlog, rfl⟩ := exists_of_within_eq_ok hsent
    have hown : run.Extends [] [.exec sql] { run with targetLog := log } :=
      ⟨by simp, Talk.eq_of_send_eq_ok hlog⟩
    exact hown.trans (ih h)

theorem extends_of_copyGroups_eq_ok {into : Table} {groups : List (List Row)} {u : PUnit}
    (h : (groups.forM (copyGroup into)).result job run = (.ok u, run')) :
    run.Extends []
      ((groups.map (job.target.dialect.insert into.name into.columnNames)).map .exec) run' := by
  induction groups generalizing run with
  | nil =>
    cases h
    exact .refl _
  | cons group rest ih =>
    obtain ⟨_, run₁, hgroup, h⟩ := exists_of_result_bind_eq_ok h
    obtain ⟨sql, hsql, hwritten⟩ := exists_of_ofOutcome_bind_eq_ok (of_read_bind_eq_ok hgroup)
    obtain ⟨-, rfl⟩ := Dialect.renderInsert_eq_ok.1 hsql
    exact (extends_of_write_eq_ok hwritten).trans (ih h)

/-- The rows of a table are written as they were read. -/
theorem of_copyRows_eq_ok {t into : Table} {k : Nat} {target : Schema}
    (hn : 0 < job.options.batchSize) (hinto : into ∈ target.tables) (hname : into.name = t.name)
    (hcolumns : into.columnNames = t.columnNames)
    (h : (copyRows t into).result job run = (.ok k, run')) :
    let query := job.source.dialect.rowsQuery t
    let rows := job.source.rows (run.sourceLog ++ [.query query]) query
    ∃ inserts, Moves job.target.dialect job.options.batchSize target (t, rows) inserts ∧
      k = rows.length ∧ run.Extends [.query query] (inserts.map .exec) run' := by
  obtain ⟨groups, run₁, hstream, h⟩ := exists_of_result_bind_eq_ok (of_read_bind_eq_ok h)
  obtain ⟨log, hlog, rfl⟩ := exists_of_within_eq_ok hstream
  obtain ⟨rfl, hcut⟩ := Talk.of_stream_eq_ok hn hlog
  obtain ⟨_, run₂, hwrite, h⟩ := exists_of_result_bind_eq_ok h
  cases h
  have hwritten := extends_of_copyGroups_eq_ok hwrite
  exact ⟨_, .intro hinto hname hcolumns hcut, congrArg List.length hcut.flatten_eq,
    by simpa using hwritten.source, hwritten.target⟩

theorem of_copyTables_eq_ok {target : Schema} {total done rows n : Nat} {order : List Table}
    (hn : 0 < job.options.batchSize) (horder : ∀ t ∈ order, target.Receives t)
    (h : (copyTables target total done rows order).result job run = (.ok n, run')) :
    let found := job.source.readAll job.source.dialect run.sourceLog order
    ∃ inserts, List.Forall₂ (Moves job.target.dialect job.options.batchSize target) found inserts ∧
      n = rows + (found.flatMap (·.2)).length ∧
      run.Extends (order.map (.query ∘ job.source.dialect.rowsQuery))
        (inserts.flatten.map .exec) run' := by
  induction order generalizing done rows run with
  | nil =>
    cases h
    exact ⟨[], .nil, by simp [Database.readAll], .refl _⟩
  | cons t rest ih =>
    obtain ⟨into, hinto, hname, hcolumns⟩ := horder t List.mem_cons_self
    unfold copyTables at h
    rw [hinto] at h
    obtain ⟨k, run₁, hcopy, h⟩ := exists_of_result_bind_eq_ok h
    obtain ⟨own, hown, rfl, hextends⟩ :=
      of_copyRows_eq_ok hn (target.mem_of_table? hinto) hname hcolumns hcopy
    obtain ⟨_, run₂, hreported, h⟩ := exists_of_result_bind_eq_ok h
    obtain ⟨inserts, hinserts, rfl, hextends'⟩ :=
      ih (fun u hu => horder u (List.mem_cons_of_mem _ hu)) h
    cases hreported
    dsimp only at hinserts hextends'
    -- The other tables are read behind the query of this one.
    rw [hextends.source] at hinserts ⊢
    refine ⟨own :: inserts, .cons hown hinserts, by simp [Database.readAll, Nat.add_assoc], ?_⟩
    rw [List.flatten_cons, List.map_append]
    exact hextends.trans ⟨hextends'.source, hextends'.target⟩

/-- What is written into the target, with the rows between the definitions. -/
theorem of_fill_eq_ok {target : Schema} {order : List Table} {n : Nat}
    (hdata : job.options.includeData = true) (hn : 0 < job.options.batchSize)
    (horder : ∀ t ∈ order, target.Receives t)
    (h : (fill target order).result job run = (.ok n, run')) :
    let found := job.source.readAll job.source.dialect (run.sourceLog ++ [.connect]) order
    ∃ before inserts after,
      List.Forall₂ (Moves job.target.dialect job.options.batchSize target) found inserts ∧
      n = (found.flatMap (·.2)).length ∧
      run.Extends (.connect :: order.map (.query ∘ job.source.dialect.rowsQuery) ++ [.close])
        ((before ++ inserts.flatten ++ after).map .exec) run' ∧
      (∀ sql ∈ before, isInsertion sql = false) ∧ ∀ sql ∈ after, isInsertion sql = false := by
  rw [fill_eq] at h
  obtain ⟨_, run₁, hpreamble, h⟩ := exists_of_result_bind_eq_ok (of_read_bind_eq_ok h)
  obtain ⟨tables, hmade, h⟩ := exists_of_ofOutcome_bind_eq_ok h
  obtain ⟨_, run₂, htables, h⟩ := exists_of_result_bind_eq_ok h
  rw [if_pos hdata] at h
  obtain ⟨rows, run₅, hcopied, h⟩ := exists_of_result_bind_eq_ok h
  obtain ⟨run₃, run₄, hconnect, hcopy, hclose⟩ := exists_of_connected_eq_ok hcopied
  dsimp only at h
  rw [complete_eq] at h
  obtain ⟨_, run₆, hcompleted, h⟩ := exists_of_result_bind_eq_ok h
  cases h
  have hopened := ((extends_of_write_eq_ok hpreamble).trans (extends_of_write_eq_ok htables)).trans
    (extends_of_send_eq_ok hconnect)
  have hclosed := (extends_of_send_eq_ok hclose).trans (extends_of_write_eq_ok hcompleted)
  obtain ⟨inserts, hinserts, rfl, hrows⟩ := of_copyTables_eq_ok hn horder hcopy
  have hall := (hopened.trans hrows).trans hclosed
  -- To write into the target is to ask nothing of the source.
  have hlog : run₃.sourceLog = run.sourceLog ++ [.connect] := hopened.source
  rw [hlog] at hinserts ⊢
  refine ⟨job.target.dialect.preamble ++ tables, inserts,
    Ddl.later job.target.dialect target ++ (positions job target ++ job.target.dialect.epilogue),
    hinserts, by simp, by simpa [List.append_assoc] using hall, ?_, ?_⟩
  · exact List.forall_mem_append.2 ⟨Ddl.isInsertion_preamble, Ddl.isInsertion_of_write hmade⟩
  · exact List.forall_mem_append.2 ⟨Ddl.isInsertion_later, List.forall_mem_append.2
      ⟨fun sql hsql => (positions_setSequences sql hsql).isInsertion, Ddl.isInsertion_epilogue⟩⟩

theorem of_transacted_eq_ok {work : Migrating α} {a : α}
    (h : (transacted ask work).result job run = (.ok a, run')) :
    ∃ run₁, work.result job ((run.asked .connect).asked .start) = (.ok a, run₁) ∧
      run' = (run₁.asked .commit).asked .close := by
  have hwritten := @transacted_written job _ work run
  rw [h] at hwritten
  cases hwritten with
  | committed hwork _ => exact ⟨_, hwork, rfl⟩

/-- To count rows is to run no statement, and the result stays as it is. -/
theorem of_countBoth_eq_ok {tables : List Table} {counts : List TableCount}
    (h : (countBoth tables).result job run = (.ok counts, run')) :
    ∃ asked told, run.Extends asked told run' ∧ (∀ r ∈ told, r.insertion? = none) ∧
      run'.result = run.result := by
  have hadds (db : Database) {A : Request → Prop} (hframe : A .connect ∧ A .close)
      (hquery : ∀ sql, A (.query sql)) : Follows (Logs id A) db (countRows db.dialect tables) :=
    (countRows_follows hframe hquery tables).mono fun _ _ => .inr
  obtain ⟨_, run₁, hsource, h⟩ := exists_of_result_bind_eq_ok (of_read_bind_eq_ok h)
  obtain ⟨log₁, hlog₁, rfl⟩ := exists_of_within_eq_ok hsource
  obtain ⟨_, run₂, htarget, h⟩ := exists_of_result_bind_eq_ok h
  obtain ⟨log₂, hlog₂, rfl⟩ := exists_of_within_eq_ok htarget
  cases h
  obtain ⟨asked, hasked, -⟩ := (hadds job.source (A := fun _ => True) ⟨trivial, trivial⟩
    fun _ => trivial).log_eq run.sourceLog
  obtain ⟨told, htold, hnone⟩ := (hadds job.target (A := (·.insertion? = none)) ⟨rfl, rfl⟩
    fun _ => rfl).log_eq run.targetLog
  rw [hlog₁] at hasked
  dsimp only at hlog₂
  rw [hlog₂] at htold
  exact ⟨asked, told, ⟨hasked, htold⟩, hnone, rfl⟩

/-- A migration whose source was read writes its rows, and then says how many they are. -/
theorem of_finish_eq_ok {target : Schema} {order : List Table} {u : Unit}
    (hdata : job.options.includeData = true) (hn : 0 < job.options.batchSize)
    (horder : ∀ t ∈ order, target.Receives t)
    (h : (finish job.options target order).result job run = (.ok u, run')) :
    let found := job.source.readAll job.source.dialect (run.sourceLog ++ [.connect]) order
    ∃ inserts asked told,
      List.Forall₂ (Moves job.target.dialect job.options.batchSize target) found inserts ∧
      run'.result.rows = (found.flatMap (·.2)).length ∧
      run.Extends (.connect :: order.map (.query ∘ job.source.dialect.rowsQuery) ++ asked) told
        run' ∧
      told.filterMap Request.insertion? = inserts.flatten := by
  obtain ⟨n, run₂, hwritten, h⟩ := exists_of_result_bind_eq_ok h
  obtain ⟨run₁, hfill, rfl⟩ := of_transacted_eq_ok hwritten
  obtain ⟨before, inserts, after, hinserts, rfl, hextends, hbefore, hafter⟩ :=
    of_fill_eq_ok hdata hn horder hfill
  obtain ⟨_, run₃, hnoted, h⟩ := exists_of_result_bind_eq_ok h
  -- What comes after the transaction is at most to count, and that inserts nothing.
  obtain ⟨asked, told, hcounted, hnone, hrows⟩ : ∃ asked told, run₃.Extends asked told run' ∧
      (∀ r ∈ told, r.insertion? = none) ∧ run'.result.rows = run₃.result.rows := by
    split at h
    · obtain ⟨counts, run₄, hcount, h⟩ := exists_of_result_bind_eq_ok h
      obtain ⟨asked, told, hcounted, hnone, hresult⟩ := of_countBoth_eq_ok hcount
      cases h
      have hrows : run₄.result.rows = run₃.result.rows := congrArg Result.rows hresult
      exact ⟨asked, told, ⟨hcounted.source, hcounted.target⟩, hnone, hrows⟩
    · cases h
      exact ⟨[], [], .refl _, by simp, rfl⟩
  cases hnoted
  have hsource := hcounted.source
  have htarget := hcounted.target
  refine ⟨inserts, .close :: asked, [.connect, .start] ++ (before ++ inserts.flatten ++ after).map
    .exec ++ [.commit, .close] ++ told, hinserts, hrows, ⟨?_, ?_⟩, ?_⟩
  · simp [hsource, Run.asked, hextends.source]
  · simp [htarget, Run.asked, hextends.target]
  · have hopened : [Request.connect, .start].filterMap Request.insertion? = [] := rfl
    have hclosed : [Request.commit, .close].filterMap Request.insertion? = [] := rfl
    rw [List.filterMap_append, List.filterMap_append, List.filterMap_append,
      filterMap_insertion?_exec, hopened, hclosed, List.filterMap_eq_nil_iff.2 hnone,
      filter_isInsertion hbefore (isInsertion_of_moves hinserts) hafter]
    simp

/-- No step says that the migration has succeeded. -/
theorem steps_unsuccessful (h : run.result.success = false) :
    (steps.result job run).2.result.success = false := by
  let Same (run run' : Run) : Prop := run'.result.success = run.result.success
  have hsource {α : Type} (t : Talk α) : Follows Same job (onSource t) := fun _ => .single rfl
  have htarget {α : Type} (t : Talk α) : Follows Same job (onTarget t) := fun _ => .single rfl
  have hnote {f : Result → Result} (hf : ∀ r, (f r).success = r.success) :
      Follows Same job (note f) := .modify fun run => hf run.result
  have hfill (target : Schema) (order : List Table) : Follows Same job (fill target order) :=
    fill_follows hsource (fun _ => htarget _) (fun _ => .modify fun _ => rfl) target order
  have hcount (tables : List Table) : Follows Same job (countBoth tables) :=
    follows_of_read <| (hsource _).bind fun _ => (htarget _).bind fun _ => .pure _
  have hfinish (target : Schema) (order : List Table) :
      Follows Same job (finish job.options target order) :=
    (Follows.transacted (fun _ _ => htarget _) (hfill target order)).bind fun _ =>
      (hnote (by simp)).bind fun _ =>
        .ite ((hcount order).bind fun _ => hnote (by simp)) (.pure _)
  have hsteps : Follows Same job steps := by
    rw [steps_eq]
    exact follows_of_read <| (hsource _).bind fun _ => (Follows.ofOutcome _).bind fun _ =>
      (hnote (by simp)).bind fun _ => hfinish _ _
  exact hsteps.keeps (fun _ _ hsame hrun => hsame.trans hrun) h

/-- A migration that succeeds ends as its steps do. -/
theorem steps_ok_of_succeeded {r : Result} (h : job.perform = (.ok r, run))
    (hr : r.success = true) :
    ∃ u, steps.result job (.unbegun job) = (.ok u, run) ∧ r.rows = run.result.rows := by
  change migrate.result job (.unbegun job) = (.ok r, run) at h
  obtain ⟨outcome, run₁, houtcome, h⟩ := exists_of_result_bind_eq_ok (of_read_bind_eq_ok h)
  rw [result_outcome] at houtcome
  obtain ⟨hsteps, rfl⟩ := Prod.mk.inj houtcome
  cases outcome with
  | ok u =>
    obtain ⟨_, _, hget, h⟩ := exists_of_result_bind_eq_ok h
    cases hget
    obtain ⟨warnings, -, h⟩ := exists_of_ofOutcome_bind_eq_ok h
    cases h
    exact ⟨u, Prod.ext (Except.ok.inj hsteps) rfl, rfl⟩
  | error e =>
    obtain ⟨failure, -, h⟩ := exists_of_ofOutcome_bind_eq_ok h
    cases h
    -- A failure returns the result as the steps left it.
    have hnone := @steps_unsuccessful job (.unbegun job) rfl
    rw [hr] at hnone
    cases hnone

/-- What the source holds comes into the target. -/
theorem of_perform_eq_ok {r : Result} (h : job.perform = (.ok r, run)) (hr : r.success = true)
    (hdata : job.options.includeData = true) (hn : 0 < job.options.batchSize) :
    ∃ all log target warnings,
      (Introspection.schema job.source.dialect job.options.tables).result job.source [] =
        (.ok all, log) ∧
      Convert.schema (all.without job.options.excludeTables) job.target.dialect
        (some job.source.dialect) job.options.strict = .ok (target, warnings) ∧
      MovesAll job.source job.source.dialect log (all.without job.options.excludeTables).createOrder
        (Moves job.target.dialect job.options.batchSize target) run.sourceLog
        (run.targetLog.filterMap Request.insertion?) r.rows := by
  obtain ⟨_, hsteps, hrows⟩ := steps_ok_of_succeeded h hr
  rw [steps_eq] at hsteps
  obtain ⟨all, _, hfound, hsteps⟩ := exists_of_result_bind_eq_ok (of_read_bind_eq_ok hsteps)
  obtain ⟨log, hschema, rfl⟩ := exists_of_within_eq_ok hfound
  obtain ⟨⟨target, warnings⟩, hconvert, hsteps⟩ := exists_of_ofOutcome_bind_eq_ok hsteps
  obtain ⟨_, _, hnoted, hfinish⟩ := exists_of_result_bind_eq_ok hsteps
  cases hnoted
  have hechoes := (Convert.Route.convertSchema_echoes _ _).run hconvert
  obtain ⟨inserts, asked, told, hinserts, hsum, hextends, htold⟩ :=
    of_finish_eq_ok hdata hn (fun t ht => Schema.receives_of_echoes hechoes ht) hfinish
  refine ⟨all, log, target, warnings, hschema, hconvert, ?_, ⟨inserts, hinserts, ?_⟩,
    hrows.trans hsum⟩
  · rw [hextends.source]
    exact ⟨asked, by simp⟩
  · rw [hextends.target]
    exact htold

end Migration

/-! ## Backups -/

namespace Backup

open Ddl

variable {db : Database} {d : Dialect} {o : BackupOptions} {s : Schema} {place : Surroundings}
  {w w' : World} {script : Script}

theorem of_rowsScript_eq_ok {n total done rows : Nat} {order : List Table} (hn : 0 < n)
    (horder : ∀ t ∈ order, t ∈ s.tables)
    (h : (rowsScript db d n total done rows order).result place w = (.ok script, w')) :
    let found := db.readAll d w.log order
    ∃ inserts, List.Forall₂ (Moves d n s) found inserts ∧
      script.statements = inserts.flatten ∧ script.rows = (found.flatMap (·.2)).length ∧
      w'.log = w.log ++ order.map (.query ∘ d.rowsQuery) := by
  induction order generalizing done rows w script with
  | nil =>
    cases h
    exact ⟨[], .nil, rfl, rfl, by simp⟩
  | cons t rest ih =>
    obtain ⟨groups, _, hstream, h⟩ := exists_of_result_bind_eq_ok h
    obtain ⟨log, hlog, rfl⟩ := exists_of_within_eq_ok hstream
    obtain ⟨rfl, hcut⟩ := Talk.of_stream_eq_ok hn hlog
    obtain ⟨own, hown, h⟩ := exists_of_ofOutcome_bind_eq_ok h
    obtain rfl := Dialect.eq_map_insert hown
    obtain ⟨_, _, hreported, h⟩ := exists_of_result_bind_eq_ok h
    cases hreported
    obtain ⟨others, _, hothers, h⟩ := exists_of_result_bind_eq_ok h
    cases h
    obtain ⟨inserts, hinserts, hstatements, hrows, hlog'⟩ :=
      ih (fun u hu => horder u (List.mem_cons_of_mem _ hu)) hothers
    have hown : Moves d n s (t, _) (groups.map (d.insert t.name t.columnNames)) :=
      .intro (horder t List.mem_cons_self) rfl rfl hcut
    refine ⟨_ :: inserts, .cons hown hinserts, ?_, ?_, ?_⟩
    · rw [Script.statements_append, hstatements, List.flatten_cons]
      congr 1
      exact Script.statements_part _ _
    · change groups.flatten.length + others.rows = _
      rw [hrows, hcut.flatten_eq, ← List.length_append]
      rfl
    · simp [hlog']

theorem Script.rows_append (a b : Script) : (a ++ b).rows = a.rows + b.rows := rfl

theorem log_of_send_eq_ok {r : Request} {u : Unit}
    (h : (Act.on db (Talk.send r)).result place w = (.ok u, w')) : w'.log = w.log ++ [r] := by
  obtain ⟨log, hlog, rfl⟩ := exists_of_within_eq_ok h
  exact Talk.eq_of_send_eq_ok hlog

theorem sequences_logs (s : Schema) :
    Follows (Logs World.log fun _ => True) place (sequences db d s) :=
  sequences_follows (fun _ => (Talk.query_follows trivial).within (fun _ => rfl)
    fun _ _ _ hlog => .inr hlog) s

/-- Behind the rows of a backup nothing is inserted. -/
theorem of_contentScript_eq_ok (hdata : o.includeData = true) (hn : 0 < o.batchSize)
    (h : (contentScript db d o s).result place w = (.ok script, w')) :
    let found := db.readAll d w.log s.createOrder
    ∃ inserts after asked, List.Forall₂ (Moves d o.batchSize s) found inserts ∧
      script.statements = inserts.flatten ++ after ∧ (∀ sql ∈ after, isInsertion sql = false) ∧
      script.rows = (found.flatMap (·.2)).length ∧
      w'.log = w.log ++ s.createOrder.map (.query ∘ d.rowsQuery) ++ asked := by
  unfold contentScript at h
  simp only [if_pos hdata] at h
  obtain ⟨rows, w₁, hrows, h⟩ := exists_of_result_bind_eq_ok h
  obtain ⟨positions, w₂, hpositions, h⟩ := exists_of_result_bind_eq_ok h
  cases h
  obtain ⟨inserts, hinserts, hstatements, hcount, hlog⟩ :=
    of_rowsScript_eq_ok hn (fun _ => Schema.mem_tables_of_mem_createOrder) hrows
  -- The positions of sequences are asked for behind the rows.
  obtain ⟨asked, hasked, -⟩ := (@sequences_logs db d place s).log_eq w₁
  rw [hpositions] at hasked
  have hconstraints : ∀ sql ∈ (if o.includeSchema then constraintsScript d s.createOrder
      else {}).statements, isInsertion sql = false := by
    split
    · rw [statements_constraintsScript]
      exact isInsertion_later
    · rintro _ ⟨⟩
  have hnone : (if o.includeSchema then constraintsScript d s.createOrder else {}).rows = 0 := by
    split <;> rfl
  have hnone' : (if positions.isEmpty then ({} : Script)
      else .part "\n-- Sequences\n" positions).rows = 0 := by
    split <;> rfl
  refine ⟨inserts, _ ++ positions, asked, hinserts, ?_, List.forall_mem_append.2 ⟨hconstraints,
    fun sql hsql => (sequences_setSequences s _ _ _ hpositions sql hsql).isInsertion⟩, ?_, ?_⟩
  · rw [Script.statements_append, Script.statements_append, statements_noted, hstatements,
      List.append_assoc]
  · rw [Script.rows_append, Script.rows_append, hnone, hnone', hcount]
    rfl
  · exact hasked.trans (congrArg (· ++ asked) hlog)

theorem of_schemaScript_eq_ok {drops : Bool}
    (h : schemaScript d s.createOrder drops = .ok script) :
    (∀ sql ∈ script.statements, isInsertion sql = false) ∧ script.rows = 0 := by
  rw [schemaScript_eq] at h
  obtain ⟨made, hmade, rfl⟩ := exists_of_map_eq_ok h
  rw [Script.statements_part]
  exact ⟨isInsertion_of_made hmade, rfl⟩

/-- Before the rows of a backup nothing is inserted either. -/
theorem of_wholeScript_eq_ok {strategy : String} {target : Option Dialect}
    (hdata : o.includeData = true) (hn : 0 < o.batchSize)
    (h : (wholeScript db strategy d o target s).result place w = (.ok script, w')) :
    let found := db.readAll d (w.log ++ [.connect]) s.createOrder
    ∃ inserts asked, List.Forall₂ (Moves d o.batchSize s) found inserts ∧
      script.statements.filter isInsertion = inserts.flatten ∧
      script.rows = (found.flatMap (·.2)).length ∧
      w'.log = w.log ++ .connect :: s.createOrder.map (.query ∘ d.rowsQuery) ++ asked := by
  obtain ⟨tables, htables, h⟩ := exists_of_ofOutcome_bind_eq_ok (of_read_bind_eq_ok h)
  obtain ⟨content, w₃, hconnected, h⟩ := exists_of_result_bind_eq_ok h
  cases h
  obtain ⟨w₁, w₂, hconnect, hcontent, hclose⟩ := exists_of_connected_eq_ok hconnected
  obtain ⟨inserts, after, asked, hinserts, hstatements, hafter, hrows, hlog⟩ :=
    of_contentScript_eq_ok hdata hn hcontent
  have hopened : w₁.log = w.log ++ [.connect] := log_of_send_eq_ok hconnect
  have hclosed : w'.log = w₂.log ++ [.close] := log_of_send_eq_ok hclose
  rw [hopened] at hinserts hrows hlog
  obtain ⟨hmade, hnone⟩ : (∀ sql ∈ tables.statements, isInsertion sql = false) ∧
      tables.rows = 0 := by
    split at htables
    · exact of_schemaScript_eq_ok htables
    · cases htables
      exact ⟨by rintro _ ⟨⟩, rfl⟩
  refine ⟨inserts, asked ++ [.close], hinserts, ?_, ?_, ?_⟩
  · have hstart : ∀ sql ∈ d.preamble ++ tables.statements, isInsertion sql = false :=
      List.forall_mem_append.2 ⟨isInsertion_preamble, hmade⟩
    have hend : ∀ sql ∈ after ++ d.epilogue, isInsertion sql = false :=
      List.forall_mem_append.2 ⟨hafter, isInsertion_epilogue⟩
    have h := filter_isInsertion hstart (isInsertion_of_moves hinserts) hend
    simpa [hstatements] using h
  · rw [Script.rows_append, Script.rows_append, Script.rows_append, hnone, hrows]
    simp [Script.part, Script.ofStatements]
  · simp [hclosed, hlog]

/-- What the database holds comes into its backup. -/
theorem of_write_eq_ok {p : Path} {world world' : World} {details : Details}
    (hdb : place.database = some db) (hdata : o.includeData = true) (hn : 0 < o.batchSize)
    (h : ((Strategy.script d).write o p).result place world = (.ok details, world')) :
    ∃ all w script,
      (Act.on db (Introspection.schema d o.tables)).result place world = (.ok all, w) ∧
      Emits db (Strategy.script d).name d o p place w all script ∧
      world'.files.read? p = some (stored o script) ∧
      MovesAll db d w.log (all.without o.excludeTables).createOrder
        (Moves d o.batchSize (all.without o.excludeTables)) world'.log
        (script.statements.filter isInsertion) details.rows := by
  obtain ⟨all, w, target, files, script, w', hschema, htarget, hempty, hscript, hlog, hfile, -,
    hrows⟩ := exists_of_writeScript_eq_ok (writeScript_of_write hdb h)
  obtain ⟨inserts, asked, hinserts, hstatements, hcount, hasked⟩ :=
    of_wholeScript_eq_ok hdata hn hscript
  refine ⟨all, w, script, hschema, ⟨htarget, hempty, hscript⟩, hfile, ⟨asked, ?_⟩,
    ⟨inserts, hinserts, hstatements⟩, hrows.trans hcount⟩
  rw [hlog, hasked]

end Backup

/-! ## Both -/

/-- Whatever the tables hold and however it is cut into groups, a migration that succeeds inserts
into the target exactly the rows that it finds in the source, table by table in the order in which
the tables are created: each once, in the order in which they are found, and under the names of the
columns that were asked for. It counts as many rows as there are. A backup holds the rows of its
database likewise. -/
theorem rows_moved_once :
    (∀ (job : Migration.Job) (r : Migration.Result) (run : Migration.Run),
      job.perform = (.ok r, run) → r.success = true → job.options.includeData = true →
      0 < job.options.batchSize → ∃ all log target warnings,
        (Introspection.schema job.source.dialect job.options.tables).result job.source [] =
          (.ok all, log) ∧
        Convert.schema (all.without job.options.excludeTables) job.target.dialect
          (some job.source.dialect) job.options.strict = .ok (target, warnings) ∧
        MovesAll job.source job.source.dialect log
          (all.without job.options.excludeTables).createOrder
          (Moves job.target.dialect job.options.batchSize target) run.sourceLog
          (run.targetLog.filterMap Request.insertion?) r.rows) ∧
    (∀ (db : Database) (d : Dialect) (o : BackupOptions) (p : Path) (place : Surroundings)
      (world world' : World) (details : Backup.Details), place.database = some db →
      ((Strategy.script d).write o p).result place world = (.ok details, world') →
      o.includeData = true → 0 < o.batchSize → ∃ all w script,
        (Act.on db (Introspection.schema d o.tables)).result place world = (.ok all, w) ∧
        Backup.Emits db (Strategy.script d).name d o p place w all script ∧
        world'.files.read? p = some (Backup.stored o script) ∧
        MovesAll db d w.log (all.without o.excludeTables).createOrder
          (Moves d o.batchSize (all.without o.excludeTables)) world'.log
          (script.statements.filter isInsertion) details.rows) :=
  ⟨fun _ _ _ h hr hdata hn => Migration.of_perform_eq_ok h hr hdata hn,
    fun _ _ _ _ _ _ _ _ hdb h hdata hn => Backup.of_write_eq_ok hdb hdata hn h⟩

def narrow : Table where
  name := "t"
  columns := [{ name := "a", typeName := "text" }]

def narrowRows : List Row :=
  [[.text "x"], [.null], [.text "x"]]

def narrowDatabase : Database where
  dialect := .sqlite
  refuses := fun _ _ => none
  rows := fun _ sql => if sql = Dialect.sqlite.rowsQuery narrow then narrowRows else []
  catalog := { tables := [{ name := "t", columns := [{ name := "a", type := some "TEXT" }] }] }

theorem narrow_moved_once :
    (∃ r run groups, (Migration.Job.mk narrowDatabase (.refusing .mysql fun _ _ => none)
        { batchSize := 2 }).perform = (.ok r, run) ∧ r.success = true ∧
      IsCut 2 narrowRows groups ∧ r.rows = 3 ∧
      run.targetLog.filterMap Request.insertion? = groups.map (Dialect.mysql.insert "t" ["a"])) ∧
    ∃ details world' script groups, ((Strategy.script .sqlite).write { batchSize := 2 }
        { parts := ["b.sql"] }).result (Backup.around narrowDatabase) {} = (.ok details, world') ∧
      world'.files.read? { parts := ["b.sql"] } =
        some (Backup.stored { batchSize := 2 } script) ∧
      IsCut 2 narrowRows groups ∧ details.rows = 3 ∧
      script.statements.filter isInsertion = groups.map (Dialect.sqlite.insert "t" ["a"]) := by
  let s : Schema := { dialect := some .sqlite, tables := [narrow] }
  have horder : (s.without []).createOrder = [narrow] := by decide +kernel
  obtain ⟨hmigration, hbackup⟩ := rows_moved_once
  constructor
  · let job : Migration.Job :=
      ⟨narrowDatabase, .refusing .mysql fun _ _ => none, { batchSize := 2 }⟩
    have hreturn : job.perform.1.toOption.map (·.success) = some true := by decide +kernel
    have hschema : ((Introspection.schema .sqlite none).result narrowDatabase []).1.toOption =
        some s := by
      decide +kernel
    obtain ⟨r, run, hperform, hr⟩ := exists_ok_of_map_eq_some hreturn
    obtain ⟨all, log, target, warnings, hall, -, hmoved⟩ :=
      hmigration job r run hperform hr rfl (by decide)
    have hs := congrArg (·.1.toOption) hall
    cases Option.some.inj (hs.symm.trans hschema)
    rw [show job.options.excludeTables = [] from rfl, horder] at hmoved
    obtain ⟨groups, hcut, hstatements, hcount⟩ := hmoved.of_one
    exact ⟨r, run, groups, hperform, hr, hcut, hcount, hstatements⟩
  · let o : BackupOptions := { batchSize := 2 }
    have hreturn : (((Strategy.script .sqlite).write o { parts := ["b.sql"] }).result
        (Backup.around narrowDatabase) {}).1.toOption.map (·.rows) = some 3 := by
      decide +kernel
    have hschema : ((Act.on narrowDatabase (Introspection.schema .sqlite none)).result
        (Backup.around narrowDatabase) {}).1.toOption = some s := by
      decide +kernel
    obtain ⟨details, world', hwrite, -⟩ := exists_ok_of_map_eq_some hreturn
    obtain ⟨all, w, script, hall, -, hfile, hmoved⟩ :=
      hbackup narrowDatabase .sqlite o _ _ _ world' details rfl hwrite rfl (by decide)
    have hs := congrArg (·.1.toOption) hall
    cases Option.some.inj (hs.symm.trans hschema)
    rw [show o.excludeTables = [] from rfl, horder] at hmoved
    obtain ⟨groups, hcut, hstatements, hcount⟩ := hmoved.of_one
    exact ⟨details, world', script, groups, hwrite, hfile, hcut, hcount, hstatements⟩

end SqlFerry
