import SqlFerry.Proofs.Backup.Script
import SqlFerry.Proofs.Migration

/-!
# Definitions in backups and migrations

A schema is written on its own, around the rows of a backup, or around the rows of a migration. All
three write the same definitions in the same order: first what makes the tables, with the rows
behind it, then indexes and the foreign keys that were left out. So each constraint is written once.
-/

namespace SqlFerry.Ddl

open Work

variable {d : Dialect} {s : Schema} {t : Table}

/-! ## Constraints -/

def inlineConstraints (d : Dialect) (t : Table) : List Constraint :=
  t.constraints.filter fun c => c.kind != .foreignKey || d == .sqlite

def addedConstraints (d : Dialect) (t : Table) : List Constraint :=
  if d == .sqlite then [] else t.foreignKeys

theorem inline_added_perm (d : Dialect) (t : Table) :
    (inlineConstraints d t ++ addedConstraints d t).Perm t.constraints := by
  by_cases hd : d = .sqlite
  · simp [inlineConstraints, addedConstraints, hd]
  · have hd' : (d == .sqlite) = false := by simpa using hd
    have hadded : addedConstraints d t =
        t.constraints.filter fun c => !(c.kind != .foreignKey || d == .sqlite) := by
      rw [addedConstraints, if_neg (by simp [hd']), Table.foreignKeys]
      congr 1
      funext c
      simp [hd', bne]
    rw [hadded]
    exact List.filter_append_perm _ _

def constraintsOf (choose : Table → List Constraint) (tables : List Table) :
    List (Table × Constraint) :=
  tables.flatMap fun t => (choose t).map (t, ·)

theorem constraintsOf_append_perm (f g : Table → List Constraint) (tables : List Table) :
    (constraintsOf f tables ++ constraintsOf g tables).Perm
      (constraintsOf (fun t => f t ++ g t) tables) := by
  unfold constraintsOf
  simp only [List.map_append]
  exact List.flatMap_append_perm tables _ _

/-- Each constraint of a schema is written once: with its table or later. -/
theorem placed_perm (d : Dialect) (h : s.names.Nodup) :
    (constraintsOf (inlineConstraints d) s.createOrder ++
      constraintsOf (addedConstraints d) s.createOrder).Perm
        (constraintsOf (·.constraints) s.tables) := by
  refine (constraintsOf_append_perm _ _ _).trans ?_
  refine ((Schema.createOrder_perm h).flatMap_right _).trans ?_
  exact List.Perm.flatMap_left _ fun t _ => (inline_added_perm d t).map _

/-! ## Definitions -/

def Makes (d : Dialect) (t : Table) (sql : String) : Prop :=
  ∃ columns, t.columns.mapM (column d · (some t)) = .ok columns ∧
    sql = "CREATE TABLE " ++ d.quote t.name ++ " (\n  " ++ ",\n  ".intercalate (columns ++
      (if t.primaryKey.isEmpty || keyIsInline d t then []
        else ["PRIMARY KEY (" ++ d.quoteAll t.primaryKey ++ ")"]) ++
      (inlineConstraints d t).map (constraint d)) ++ "\n)" ++
      if d == .mysql then mysqlOptions t.options else ""

theorem makes_of_createTable {sql : String} (h : createTable d t (d == .sqlite) = .ok sql) :
    Makes d t sql := by
  obtain ⟨columns, hcolumns, h⟩ := exists_of_bind_eq_ok h
  cases h
  exact ⟨columns, hcolumns, rfl⟩

def dropped (d : Dialect) (s : Schema) (drops : Bool) : List String :=
  if drops then s.createOrder.reverse.map fun t => dropTable d t.name else []

def later (d : Dialect) (s : Schema) : List String :=
  indexStatements d s.createOrder ++
    s.createOrder.flatMap fun t => (addedConstraints d t).map (addForeignKey d t.name)

theorem later_eq (d : Dialect) (s : Schema) : later d s = indexStatements d s.createOrder ++
    if d == .sqlite then [] else foreignKeyStatements d s.createOrder := by
  unfold later foreignKeyStatements addedConstraints
  cases d == .sqlite <;> simp

/-- A schema is written as the statements that drop and make its tables, and the later ones. -/
theorem write_eq (d : Dialect) (s : Schema) (drops : Bool) : write d s { drops } =
    (s.createOrder.mapM (createTable d · (d == .sqlite))).map fun made =>
      dropped d s drops ++ made ++ later d s := by
  unfold write
  dsimp only
  rw [Bool.and_true]
  cases s.createOrder.mapM (createTable d · (d == .sqlite)) with
  | error e => rfl
  | ok made =>
    change Except.ok _ = Except.ok _
    rw [later_eq, dropped]
    by_cases hd : d = .sqlite <;> simp [hd]

/-! ## Statements around the definitions -/

def Inserts (d : Dialect) (s : Schema) (sql : String) : Prop :=
  ∃ t ∈ s.tables, ∃ rows, d.renderInsert t.name t.columnNames rows = .ok sql

inductive SetsSequence (s : Schema) : Dialect → String → Prop where
  | postgresql {t : Table} {c : Column} (h : (t, c) ∈ Backup.numbered s) :
    SetsSequence s .postgresql (Backup.sequenceStatement t c)
  | reset {sql : String} (h : sql ∈ Convert.sequenceResets .postgresql s) :
    SetsSequence s .postgresql sql
  | mysql {t : Table} {c : Column} (h : (t, c) ∈ Backup.numbered s) (next : Int) :
    SetsSequence s .mysql
      ("ALTER TABLE " ++ Dialect.mysql.quote t.name ++ s!" AUTO_INCREMENT={next}")
  | sqlite (name : String) (n : Int) : SetsSequence s .sqlite
      (s!"UPDATE sqlite_sequence SET seq = {n} WHERE name = " ++ Dialect.sqlite.textLiteral name)

/-- The definitions of a schema among other statements: rows are inserted behind the tables and
before what comes later, and then the positions of sequences are set. -/
inductive Arranges (d : Dialect) (s : Schema) (drops : Bool) (definitions : List String) :
    List String → Prop where
  | intro {made rows positions : List String} (hmade : List.Forall₂ (Makes d) s.createOrder made)
      (hdefinitions : definitions = dropped d s drops ++ made ++ later d s)
      (hrows : ∀ sql ∈ rows, Inserts d s sql)
      (hpositions : ∀ sql ∈ positions, SetsSequence s d sql) :
    Arranges d s drops definitions (d.preamble ++ (dropped d s drops ++ made) ++ rows ++
      later d s ++ positions ++ d.epilogue)

/-- The tables alone: what is left out comes later. -/
theorem write_tables (d : Dialect) (s : Schema) (drops : Bool) :
    write d s { drops, indexes := false, foreignKeys := d == .sqlite } =
      (s.createOrder.mapM (createTable d · (d == .sqlite))).map (dropped d s drops ++ ·) := by
  unfold write
  dsimp only
  rw [Bool.and_self]
  cases s.createOrder.mapM (createTable d · (d == .sqlite)) with
  | error e => rfl
  | ok made =>
    change Except.ok _ = Except.ok _
    rw [dropped]
    by_cases hd : d = .sqlite <;> simp [hd]

end SqlFerry.Ddl

namespace SqlFerry.Backup

open Work Ddl

variable {d : Dialect} {s : Schema} {o : BackupOptions} {db : Database} {place : Surroundings}

/-! ## Backups -/

@[simp]
theorem Script.statements_part (note : String) (xs : List String) :
    (Script.part note xs).statements = xs :=
  statements_ofStatements xs

theorem schemaScript_eq (d : Dialect) (s : Schema) (drops : Bool) :
    schemaScript d s.createOrder drops =
      (s.createOrder.mapM (createTable d · (d == .sqlite))).map fun made =>
        .part "\n-- Schema\n" (dropped d s drops ++ made) := by
  unfold schemaScript
  cases s.createOrder.mapM (createTable d · (d == .sqlite)) <;> rfl

theorem statements_constraintsScript (d : Dialect) (s : Schema) :
    (constraintsScript d s.createOrder).statements = later d s := by
  rw [constraintsScript, Script.statements_part, later_eq]

/-- A note stands only above statements that are there. -/
theorem statements_noted (note : String) (xs : List String) :
    (if xs.isEmpty then ({} : Script) else .part note xs).statements = xs := by
  split
  · next hnone =>
    rw [List.isEmpty_iff.1 hnone]
    rfl
  · rw [Script.statements_part]

theorem rowsScript_inserts {order : List Table} (horder : ∀ t ∈ order, t ∈ s.tables)
    (batchSize total done rows : Nat) :
    Returns (fun script => ∀ sql ∈ script.statements, Inserts d s sql) place
      (rowsScript db d batchSize total done rows order) := by
  induction order generalizing done rows with
  | nil => exact .pure (by simp [Script.statements])
  | cons t order ih =>
    refine .seq fun found => .bind (.ofOutcome fun inserts hinserts => ?_)
      fun inserts (hinserts : ∀ sql ∈ inserts, Inserts d s sql) => .seq fun _ => ?_
    · exact forall_of_mapM_eq_ok hinserts fun group _ sql hsql =>
        ⟨t, horder t List.mem_cons_self, group, hsql⟩
    refine (ih (fun u hu => horder u (List.mem_cons_of_mem _ hu)) _ _).bind fun rest hrest =>
      .pure fun sql hsql => ?_
    rw [Script.statements_append, List.mem_append] at hsql
    refine hsql.elim (fun hown => ?_) (hrest sql)
    change sql ∈ (Script.part _ _).statements at hown
    rw [Script.statements_part] at hown
    exact hinserts sql hown

theorem mem_of_mem_filterMap_id {P : String → Prop} {found : List (Option String)}
    (h : ∀ x ∈ found, ∀ sql ∈ x, P sql) : ∀ sql ∈ found.filterMap id, P sql := by
  intro sql hsql
  obtain ⟨x, hx, hsql⟩ := List.mem_filterMap.1 hsql
  exact h x hx sql hsql

theorem sequences_setSequences (s : Schema) :
    Returns (∀ sql ∈ ·, SetsSequence s d sql) place (sequences db d s) := by
  cases d with
  | postgresql =>
    refine .pure fun sql hsql => ?_
    obtain ⟨⟨t, c⟩, htc, rfl⟩ := List.mem_map.1 hsql
    exact .postgresql htc
  | mysql =>
    have hone (tc : Table × Column) (htc : tc ∈ numbered s) :
        Returns (∀ sql ∈ ·, SetsSequence s .mysql sql) place (mysqlSequence db tc.1 tc.2) := by
      intro w x w' hx sql hsql
      obtain ⟨next, rfl⟩ := mysqlSequence_writes tc.1 tc.2 w x w' hx sql hsql
      exact .mysql htc next
    exact (Returns.mapM hone).bind fun found h => .pure (mem_of_mem_filterMap_id h)
  | sqlite =>
    refine .seq fun there => ?_
    split
    · exact .pure (by simp)
    · refine .seq fun rows => .bind (.ofOutcome fun found hfound => ?_) fun found h =>
        .pure (mem_of_mem_filterMap_id h)
      refine forall_of_mapM_eq_ok hfound fun row _ x hx sql hsql => ?_
      obtain ⟨name, n, rfl⟩ := sqliteSequence_writes hx sql hsql
      exact .sqlite name n

theorem contentScript_arranged (hschema : o.includeSchema = true) :
    Returns (fun script => ∃ rows positions, script.statements = rows ++ later d s ++ positions ∧
      (∀ sql ∈ rows, Inserts d s sql) ∧ ∀ sql ∈ positions, SetsSequence s d sql) place
      (contentScript db d o s) := by
  have hlater : (if o.includeSchema then constraintsScript d s.createOrder else {}).statements =
      later d s := by
    rw [if_pos hschema, statements_constraintsScript]
  refine .ite_bind (P := fun script => ∀ sql ∈ script.statements, Inserts d s sql)
    (fun _ => rowsScript_inserts (fun t => Schema.mem_tables_of_mem_createOrder) _ _ _ _)
    (fun _ => .pure (by simp [Script.statements])) fun rows hrows => ?_
  refine .ite_bind (fun _ => sequences_setSequences s) (fun _ => .pure (by simp))
    fun positions hpositions => .pure ⟨rows.statements, positions, ?_, hrows, hpositions⟩
  rw [Script.statements_append, Script.statements_append, hlater, statements_noted]

/-- A backup with its schema holds the definitions as the schema is written, or it is not made at
all. -/
theorem wholeScript_arranged {strategy : String} {target : Option Dialect} {w : World}
    (hschema : o.includeSchema = true) :
    match Ddl.write d s { drops := o.dropExisting } with
    | .ok definitions => ∀ script w',
      (wholeScript db strategy d o target s).result place w = (.ok script, w') →
        Arranges d s o.dropExisting definitions script.statements
    | .error e => (wholeScript db strategy d o target s).result place w = (.error e, w) := by
  have htables : (if o.includeSchema then schemaScript d s.createOrder o.dropExisting
      else .ok {}) = (s.createOrder.mapM (createTable d · (d == .sqlite))).map fun made =>
        .part "\n-- Schema\n" (dropped d s o.dropExisting ++ made) := by
    rw [if_pos hschema, schemaScript_eq]
  rw [write_eq]
  unfold wholeScript
  rw [htables, result_bind, result_read]
  dsimp only
  rw [result_bind, result_ofOutcome]
  cases hmade : s.createOrder.mapM (createTable d · (d == .sqlite)) with
  | error e => rfl
  | ok made =>
    intro script w' h
    obtain ⟨content, _, hcontent, h⟩ := exists_of_result_bind_eq_ok h
    cases h
    obtain ⟨rows, positions, hstatements, hrows, hpositions⟩ :=
      (contentScript_arranged hschema).connected _ _ _ hcontent
    have harranged := @Arranges.intro d s o.dropExisting _ _ _ _
      (forall₂_of_mapM_eq_ok (fun _ _ => makes_of_createTable) hmade) rfl hrows hpositions
    simpa [hstatements, List.append_assoc] using harranged

end SqlFerry.Backup

namespace SqlFerry.Migration

open Work Ddl

variable {job : Job} {α β : Type} {L M : List String → Prop}

/-! ## Migrations -/

/-- The work runs on the target a list of statements of the class `L`; if it fails, it runs the
first ones of such a list. -/
def Asks (L : List String → Prop) (job : Job) (work : Migrating α) : Prop :=
  ∀ run, ∃ statements asked, L statements ∧ asked <+: statements ∧
    (work.result job run).2.targetLog = run.targetLog ++ asked.map .exec ∧
    ∀ a, (work.result job run).1 = .ok a → asked = statements

namespace Asks

theorem quiet {work : Migrating α} (hL : L [])
    (h : ∀ run, (work.result job run).2.targetLog = run.targetLog) : Asks L job work :=
  fun run => ⟨[], [], hL, List.prefix_rfl, by simp [h run], fun _ _ => rfl⟩

theorem mono {work : Migrating α} (h : Asks L job work) (hLM : ∀ l, L l → M l) :
    Asks M job work := fun run =>
  have ⟨statements, asked, hL, hasked⟩ := h run
  ⟨statements, asked, hLM _ hL, hasked⟩

/-- One part of the work after the other; what the second would ask is not asked if the first
fails. -/
theorem bind {work : Migrating α} {f : α → Migrating β} (hwork : Asks L job work)
    (hf : ∀ a, Asks M job (f a)) (hM : ∃ l, M l) :
    Asks (fun l => ∃ a b, l = a ++ b ∧ L a ∧ M b) job (work >>= f) := by
  intro run
  obtain ⟨statements, asked, hL, hasked, hlog, hok⟩ := hwork run
  rw [result_bind]
  cases hr : work.result job run with
  | mk r run₁ =>
    rw [hr] at hlog hok
    cases r with
    | error e =>
      obtain ⟨rest, hrest⟩ := hM
      exact ⟨statements ++ rest, asked, ⟨_, _, rfl, hL, hrest⟩,
        hasked.trans (List.prefix_append _ _), hlog, by rintro a ⟨⟩⟩
    | ok a =>
      obtain ⟨statements', asked', hM', hasked', hlog', hok'⟩ := hf a run₁
      cases hok a rfl
      refine ⟨statements ++ statements', statements ++ asked', ⟨_, _, rfl, hL, hM'⟩,
        (List.prefix_append_right_inj statements).2 hasked', ?_, fun b hb => ?_⟩
      · dsimp only at hlog ⊢
        rw [hlog', hlog, List.map_append, List.append_assoc]
      · rw [hok' b hb]

theorem after {work : Migrating α} {f : α → Migrating β}
    (hwork : ∀ run, (work.result job run).2.targetLog = run.targetLog)
    (hf : ∀ a, Asks M job (f a)) (hM : ∃ l, M l) : Asks M job (work >>= f) :=
  ((quiet (L := (· = [])) rfl hwork).bind hf hM).mono fun _ ⟨_, _, hl, ha, hb⟩ => by
    rw [hl, ha]
    exact hb

theorem read_bind {f : Job → Migrating α} (h : Asks L job (f job)) :
    Asks L job (read >>= f) := by
  intro run
  rw [result_bind, result_read]
  exact h run

theorem ofOutcome_bind {f : β → Migrating α} {b : β} (h : Asks L job (f b)) :
    Asks L job (Work.ofOutcome (.ok b) >>= f) := by
  intro run
  rw [result_bind, result_ofOutcome]
  exact h run

theorem of_outcome {f : β → Migrating α} {x : Except Fault β}
    (hf : ∀ b, x = .ok b → Asks L job (f b)) (hL : ∃ l, L l) :
    Asks L job (Work.ofOutcome x >>= f) := by
  cases x with
  | ok b => exact ofOutcome_bind (hf b rfl)
  | error e =>
    obtain ⟨l, hl⟩ := hL
    exact fun run => ⟨l, [], hl, List.nil_prefix, (List.append_nil _).symm, by rintro _ ⟨⟩⟩

theorem forM {P : String → Prop} {l : List β} {f : β → Migrating PUnit}
    (hf : ∀ b ∈ l, Asks (∀ sql ∈ ·, P sql) job (f b)) :
    Asks (∀ sql ∈ ·, P sql) job (l.forM f) := by
  induction l with
  | nil => exact quiet (by simp) fun _ => rfl
  | cons b l ih =>
    refine ((hf b List.mem_cons_self).bind
      (fun _ => ih fun b hb => hf b (List.mem_cons_of_mem _ hb)) ⟨[], by simp⟩).mono ?_
    rintro _ ⟨_, _, rfl, hfirst, hrest⟩
    exact List.forall_mem_append.2 ⟨hfirst, hrest⟩

theorem send (sql : String) : Asks (· = [sql]) job (onTarget (Talk.send (.exec sql))) := by
  intro run
  refine ⟨_, [sql], rfl, List.prefix_rfl, ?_, fun _ _ => rfl⟩
  unfold onTarget
  rw [result_within, Talk.result_send]
  rfl

theorem write (statements : List String) : Asks (· = statements) job (write statements) := by
  induction statements with
  | nil => exact quiet rfl fun _ => rfl
  | cons sql rest ih =>
    refine ((send sql).bind (fun _ => ih) ⟨_, rfl⟩).mono ?_
    rintro _ ⟨_, _, rfl, rfl, rfl⟩
    rfl

theorem write_bind {work : Migrating α} (statements : List String) (h : Asks M job work)
    (hM : ∃ l, M l) : Asks (fun l => ∃ rest, l = statements ++ rest ∧ M rest) job
      (Migration.write statements >>= fun _ => work) := by
  refine ((write statements).bind (fun _ => h) hM).mono ?_
  rintro _ ⟨_, rest, rfl, rfl, hrest⟩
  exact ⟨rest, rfl, hrest⟩

theorem write_bind_eq {work : Migrating α} {rest : List String} (statements : List String)
    (h : Asks (· = rest) job work) :
    Asks (· = statements ++ rest) job (Migration.write statements >>= fun _ => work) := by
  refine (write_bind statements h ⟨_, rfl⟩).mono ?_
  rintro _ ⟨_, rfl, rfl⟩
  rfl

/-- Work inside a connection to the source asks the target for what the work asks. -/
theorem connected {work : Migrating α} (h : Asks L job work) (hL : ∃ l, L l) :
    Asks L job (Work.connected (onSource ∘ Talk.send) work) := by
  refine after (fun _ => rfl) (fun _ run => ?_) hL
  obtain ⟨statements, asked, hL, hasked, hlog, hok⟩ := h run
  refine ⟨statements, asked, hL, hasked, ?_⟩
  rw [result_bind, result_outcome]
  cases hr : work.result job run with
  | mk r run₁ =>
    rw [hr] at hlog hok
    dsimp only
    rw [result_bind, result_outcome]
    dsimp only
    have hclose : (((onSource ∘ Talk.send) .close).result job run₁).2.targetLog =
        run₁.targetLog := rfl
    generalize ((onSource ∘ Talk.send) .close).result job run₁ = closed at hclose
    obtain ⟨c, run₂⟩ := closed
    cases r with
    | error e => exact ⟨hclose.trans hlog, by rintro a ⟨⟩⟩
    | ok a =>
      cases c with
      | error e => exact ⟨hclose.trans hlog, by rintro a ⟨⟩⟩
      | ok _ => exact ⟨hclose.trans hlog, fun _ _ => hok a rfl⟩

end Asks

theorem copyTables_asks {target : Schema} (total done rows : Nat) (tables : List Table) :
    Asks (∀ sql ∈ ·, Inserts job.target.dialect target sql) job
      (copyTables target total done rows tables) := by
  induction tables generalizing done rows with
  | nil => exact .quiet (by simp) fun _ => rfl
  | cons t rest ih =>
    have hrest (more : Nat) : Asks (∀ sql ∈ ·, Inserts job.target.dialect target sql) job (do
        modify fun run => { run with reports := run.reports ++
          [.copying (Progress.share (done + 1) total) t.name (done + 1) (rows + more)] }
        copyTables target total (done + 1) (rows + more) rest) :=
      .after (fun _ => rfl) (fun _ => ih _ _) ⟨[], by simp⟩
    unfold copyTables
    cases hinto : target.table? t.name with
    | none => exact .after (fun _ => rfl) hrest ⟨[], by simp⟩
    | some into =>
      have hstream (sql : String) (run : Run) :
          ((onSource (Talk.stream job.options.batchSize sql)).result job run).2.targetLog =
            run.targetLog := rfl
      have hcopy : Asks (∀ sql ∈ ·, Inserts job.target.dialect target sql) job
          (copyRows t into) := by
        have hgroup (group : List Row) : Asks (∀ sql ∈ ·, Inserts job.target.dialect target sql)
            job (copyGroup into group) := by
          refine .read_bind <| .of_outcome (fun sql hsql => ?_) ⟨[], by simp⟩
          refine (Asks.write [sql]).mono ?_
          rintro _ rfl
          exact List.forall_mem_singleton.2 ⟨into, target.mem_of_table? hinto, group, hsql⟩
        refine .read_bind <| .after (hstream _) (fun groups => ?_) ⟨[], by simp⟩
        refine ((Asks.forM fun group _ => hgroup group).bind (M := (· = []))
          (fun _ => .quiet rfl fun _ => rfl) ⟨_, rfl⟩).mono ?_
        rintro _ ⟨_, _, rfl, hcopied, rfl⟩
        rwa [List.append_nil]
      refine (hcopy.bind hrest ⟨[], by simp⟩).mono ?_
      rintro _ ⟨_, _, rfl, ha, hb⟩ sql hsql
      exact (List.mem_append.1 hsql).elim (ha sql) (hb sql)

def positions (job : Job) (target : Schema) : List String :=
  if job.options.includeData && job.target.dialect == .postgresql then
    Convert.sequenceResets job.target.dialect target else []

theorem positions_setSequences {target : Schema} :
    ∀ sql ∈ positions job target, SetsSequence target job.target.dialect sql := by
  intro sql hsql
  unfold positions at hsql
  split at hsql
  · next hasked =>
    rw [Bool.and_eq_true, beq_iff_eq] at hasked
    rw [hasked.2] at hsql ⊢
    exact .reset hsql
  · cases hsql

theorem write_append (xs ys : List String) : write (xs ++ ys) = (do write xs; write ys) :=
  List.forM_append

theorem complete_eq (target : Schema) (rows : Nat) : complete job target rows = (do
    write (later job.target.dialect target ++ (positions job target ++ job.target.dialect.epilogue))
    return rows) := by
  have hnil : write [] = pure ⟨⟩ := rfl
  unfold complete positions bne
  rw [later_eq]
  simp only [write_append, bind_assoc]
  cases job.target.dialect == .sqlite <;>
    cases job.options.includeData && job.target.dialect == .postgresql <;>
      simp [hnil]

theorem complete_asks (target : Schema) (rows : Nat) :
    Asks (· = later job.target.dialect target ++ (positions job target ++
      job.target.dialect.epilogue)) job (complete job target rows) := by
  rw [complete_eq]
  have h := Asks.write_bind_eq (later job.target.dialect target ++ (positions job target ++
    job.target.dialect.epilogue)) (.quiet rfl fun _ => rfl : Asks (· = []) job (pure rows))
  rwa [List.append_nil] at h

/-- No migration succeeds whose tables cannot be written. -/
theorem fill_ne_ok {target : Schema} {order : List Table} {run : Run} {e : Fault}
    (hmade : target.createOrder.mapM
      (createTable job.target.dialect · (job.target.dialect == .sqlite)) = .error e) (n : Nat) :
    ((fill target order).result job run).1 ≠ .ok n := by
  intro hn
  obtain ⟨run', hrun'⟩ : ∃ run', (fill target order).result job run = (.ok n, run') :=
    ⟨_, Prod.ext hn rfl⟩
  rw [fill_eq] at hrun'
  obtain ⟨_, _, -, h⟩ := exists_of_result_bind_eq_ok (of_read_bind_eq_ok hrun')
  obtain ⟨tables, htables, -⟩ := exists_of_ofOutcome_bind_eq_ok h
  rw [write_tables, hmade] at htables
  cases htables

/-- A migration asks its target for the definitions as the schema is written, or it fails before
them. -/
theorem fill_arranged (target : Schema) (order : List Table) (run : Run) :
    match Ddl.write job.target.dialect target { drops := job.options.dropExisting } with
    | .ok definitions => ∃ statements asked,
      Arranges job.target.dialect target job.options.dropExisting definitions statements ∧
      asked <+: statements ∧
      ((fill target order).result job run).2.targetLog = run.targetLog ++ asked.map .exec ∧
      ∀ n, ((fill target order).result job run).1 = .ok n → asked = statements
    | .error _ => ∀ n, ((fill target order).result job run).1 ≠ .ok n := by
  rw [write_eq]
  cases hmade : target.createOrder.mapM
      (createTable job.target.dialect · (job.target.dialect == .sqlite)) with
  | error e => exact fill_ne_ok hmade
  | ok made =>
    let definitions := dropped job.target.dialect target job.options.dropExisting ++ made
    let last := later job.target.dialect target ++ (positions job target ++
      job.target.dialect.epilogue)
    let Filled (l : List String) : Prop :=
      ∃ rows, l = rows ++ last ∧ ∀ sql ∈ rows, Inserts job.target.dialect target sql
    have hfilled : ∃ l, Filled l := ⟨_, [], rfl, by simp⟩
    have hrest {work : Migrating Nat}
        (hwork : Asks (∀ sql ∈ ·, Inserts job.target.dialect target sql) job work) :=
      (hwork.bind (complete_asks target) ⟨_, rfl⟩).mono (M := Filled) <| by
        rintro _ ⟨rows, _, rfl, hrows, rfl⟩
        exact ⟨rows, rfl, hrows⟩
    have hfill : Asks (fun l => ∃ rest, l = job.target.dialect.preamble ++ rest ∧
        ∃ rest', rest = definitions ++ rest' ∧ Filled rest') job (fill target order) := by
      rw [fill_eq]
      refine .read_bind ?_
      dsimp only
      rw [write_tables, hmade]
      refine .write_bind _ (.ofOutcome_bind (.write_bind _ ?_ hfilled)) ?_
      · split
        · exact hrest ((copyTables_asks _ _ _ _).connected ⟨[], by simp⟩)
        · exact hrest (.quiet (by simp) fun _ => rfl)
      · obtain ⟨l, hl⟩ := hfilled
        exact ⟨_, l, rfl, hl⟩
    obtain ⟨_, asked, ⟨_, rfl, _, rfl, rows, rfl, hinserts⟩, hasked, hlog, hok⟩ := hfill run
    refine ⟨_, asked, ?_, hasked, hlog, hok⟩
    have harranged := @Arranges.intro job.target.dialect target job.options.dropExisting _ _ _ _
      (forall₂_of_mapM_eq_ok (fun _ _ => makes_of_createTable) hmade) rfl hinserts
      (@positions_setSequences job target)
    simpa [definitions, last, List.append_assoc] using harranged

end SqlFerry.Migration

/-! ## All three -/

namespace SqlFerry.Ddl

open Work

/-- A backup and a migration write the definitions of a schema as the schema is written on its own,
with the rows between the tables and what comes later, and in them each constraint of the schema is
written once. -/
theorem producers_agree (s : Schema) :
    (∀ (db : Database) (strategy : String) (d : Dialect) (o : BackupOptions)
      (target : Option Dialect) (place : Surroundings) (w : World), o.includeSchema = true →
      match Ddl.write d s { drops := o.dropExisting } with
      | .ok definitions => ∀ script w',
        (Backup.wholeScript db strategy d o target s).result place w = (.ok script, w') →
          Arranges d s o.dropExisting definitions script.statements
      | .error e => (Backup.wholeScript db strategy d o target s).result place w = (.error e, w)) ∧
    (∀ (job : Migration.Job) (order : List Table) (run : Migration.Run),
      match Ddl.write job.target.dialect s { drops := job.options.dropExisting } with
      | .ok definitions => ∃ statements asked,
        Arranges job.target.dialect s job.options.dropExisting definitions statements ∧
        asked <+: statements ∧
        ((Migration.fill s order).result job run).2.targetLog =
          run.targetLog ++ asked.map .exec ∧
        ∀ n, ((Migration.fill s order).result job run).1 = .ok n → asked = statements
      | .error _ => ∀ n, ((Migration.fill s order).result job run).1 ≠ .ok n) ∧
    (s.names.Nodup → ∀ d, (constraintsOf (inlineConstraints d) s.createOrder ++
      constraintsOf (addedConstraints d) s.createOrder).Perm
        (constraintsOf (·.constraints) s.tables)) :=
  ⟨fun _ _ _ _ _ _ _ hschema => Backup.wholeScript_arranged hschema,
    fun _ order run => Migration.fill_arranged s order run, fun h d => placed_perm d h⟩

def entwined : Schema where
  tables := [
    { name := "a", columns := [{ name := "b", typeName := "int" }]
      constraints := [{ kind := .check, expression := some "b > 0" },
        { kind := .foreignKey, columns := ["b"], referencedTable := some "b" }] },
    { name := "b", columns := [{ name := "a", typeName := "int" }]
      constraints := [{ kind := .foreignKey, columns := ["a"], referencedTable := some "a" }] }]

theorem entwined_agrees : ∃ definitions script w',
    Ddl.write .mysql entwined { drops := true } = .ok definitions ∧
    (Backup.wholeScript (.refusing .mysql fun _ _ => none) "" .mysql { dropExisting := true } none
      entwined).result (Backup.around (.refusing .mysql fun _ _ => none)) {} = (.ok script, w') ∧
    Arranges .mysql entwined true definitions script.statements ∧
    constraintsOf (addedConstraints .mysql) entwined.createOrder ≠ [] ∧
    (constraintsOf (inlineConstraints .mysql) entwined.createOrder ++
      constraintsOf (addedConstraints .mysql) entwined.createOrder).Perm
        (constraintsOf (·.constraints) entwined.tables) := by
  let db : Database := .refusing .mysql fun _ _ => none
  let o : BackupOptions := { dropExisting := true }
  have hwritten : (Ddl.write .mysql entwined { drops := true }).toOption.isSome = true := by
    decide +kernel
  have hreturn : ((Backup.wholeScript db "" .mysql o none entwined).result (Backup.around db)
      {}).1.toOption.map (·.rows) = some 0 := by
    decide +kernel
  obtain ⟨script, w', hscript, -⟩ := exists_ok_of_map_eq_some hreturn
  obtain ⟨hbackup, -, hconstraints⟩ := producers_agree entwined
  have harranged := hbackup db "" .mysql o none (Backup.around db) {} rfl
  cases hdefinitions : Ddl.write .mysql entwined { drops := true } with
  | error e =>
    rw [hdefinitions] at hwritten
    cases hwritten
  | ok definitions =>
    rw [hdefinitions] at harranged
    exact ⟨definitions, script, w', rfl, hscript, harranged script w' hscript, by decide,
      hconstraints (by decide) .mysql⟩

end SqlFerry.Ddl
