import SqlFerry.Migration
import SqlFerry.Proofs.Restore.Transaction

/-!
# What a failed migration leaves behind

All that is written into the target is written in one transaction, and the rows are counted after
it. So a migration that fails before the end of its transaction leaves nothing, and one that fails
when the connection is closed or when rows are counted leaves everything.
-/

namespace SqlFerry.Migration

open Work Restore

variable {job : Job} {α : Type}

/-! ## Requests to the target -/

def ask (r : Request) : Migrating Unit :=
  onTarget (Talk.send r)

def Run.asked (run : Run) (r : Request) : Run :=
  { run with targetLog := run.targetLog ++ [r] }

theorem result_ask (r : Request) (run : Run) :
    (ask r).result job run = ((match job.target.refuses run.targetLog r with
      | some t => .error t.fault
      | none => .ok ()), run.asked r) := by
  unfold ask onTarget
  rw [result_within, Talk.result_send]
  rfl

theorem result_ask_of_accepted {r : Request} {run : Run}
    (h : job.target.refuses run.targetLog r = none) :
    (ask r).result job run = (.ok (), run.asked r) := by
  rw [result_ask, h]

theorem result_ask_of_refused {r : Request} {run : Run}
    (h : job.target.refuses run.targetLog r ≠ none) :
    ∃ e, (ask r).result job run = (.error e, run.asked r) := by
  obtain ⟨t, ht⟩ := Option.ne_none_iff_exists'.1 h
  exact ⟨t.fault, by rw [result_ask, ht]⟩

/-- What some work in a transaction on the target comes to. -/
inductive Written (job : Job) (work : Migrating α) (run : Run) : Except Fault α → Run → Prop where
  | unconnected (e : Fault) : Written job work run (.error e) (run.asked .connect)
  | unbegun (e : Fault) : Written job work run (.error e) ((run.asked .connect).asked .start)
  | takenBack {run₁ : Run} {e : Fault}
      (hwork : work.result job ((run.asked .connect).asked .start) = (.error e, run₁)) :
    Written job work run (.error e) ((run₁.asked .rollback).asked .close)
  | uncommitted {run₁ : Run} {a : α} (e : Fault)
      (hwork : work.result job ((run.asked .connect).asked .start) = (.ok a, run₁))
      (hcommit : job.target.refuses run₁.targetLog .commit ≠ none) :
    Written job work run (.error e) (run₁.asked .commit)
  | unclosed {run₁ : Run} {a : α} (e : Fault)
      (hwork : work.result job ((run.asked .connect).asked .start) = (.ok a, run₁))
      (hcommit : job.target.refuses run₁.targetLog .commit = none)
      (hclose : job.target.refuses (run₁.asked .commit).targetLog .close ≠ none) :
    Written job work run (.error e) ((run₁.asked .commit).asked .close)
  | committed {run₁ : Run} {a : α}
      (hwork : work.result job ((run.asked .connect).asked .start) = (.ok a, run₁))
      (hcommit : job.target.refuses run₁.targetLog .commit = none) :
    Written job work run (.ok a) ((run₁.asked .commit).asked .close)

theorem transacted_written (work : Migrating α) (run : Run) :
    Written job work run ((transacted ask work).result job run).1
      ((transacted ask work).result job run).2 := by
  unfold transacted
  rw [result_bind]
  by_cases hconnect : job.target.refuses run.targetLog .connect = none
  case neg =>
    obtain ⟨e, he⟩ := result_ask_of_refused hconnect
    rw [he]
    exact .unconnected e
  rw [result_ask_of_accepted hconnect]
  dsimp only
  rw [result_bind]
  by_cases hstart : job.target.refuses (run.asked .connect).targetLog .start = none
  case neg =>
    obtain ⟨e, he⟩ := result_ask_of_refused hstart
    rw [he]
    exact .unbegun e
  rw [result_ask_of_accepted hstart]
  dsimp only
  rw [result_bind, result_outcome]
  cases hwork : work.result job ((run.asked .connect).asked .start) with
  | mk r run₁ =>
    cases r with
    | error e =>
      dsimp only
      rw [result_bind, result_outcome, result_ask]
      dsimp only
      rw [result_bind, result_outcome, result_ask]
      exact .takenBack hwork
    | ok a =>
      dsimp only
      rw [result_bind]
      by_cases hcommit : job.target.refuses run₁.targetLog .commit = none
      case neg =>
        obtain ⟨e, he⟩ := result_ask_of_refused hcommit
        rw [he]
        exact .uncommitted e hwork hcommit
      rw [result_ask_of_accepted hcommit]
      dsimp only
      rw [result_bind]
      by_cases hclose : job.target.refuses (run₁.asked .commit).targetLog .close = none
      case neg =>
        obtain ⟨e, he⟩ := result_ask_of_refused hclose
        rw [he]
        exact .unclosed e hwork hcommit hclose
      rw [result_ask_of_accepted hclose]
      exact .committed hwork hcommit

/-! ## What is written -/

def complete (job : Job) (target : Schema) (rows : Nat) : Migrating Nat := do
  let d := job.target.dialect
  let created := target.createOrder
  write (Ddl.indexStatements d created)
  if d != .sqlite then write (Ddl.foreignKeyStatements d created)
  if job.options.includeData && d == .postgresql then write (Convert.sequenceResets d target)
  write d.epilogue
  return rows

theorem fill_eq (target : Schema) (order : List Table) : fill target order = (do
    let job ← read
    let d := job.target.dialect
    write d.preamble
    let parts : Ddl.Parts :=
      { drops := job.options.dropExisting, indexes := false, foreignKeys := d == .sqlite }
    write (← Work.ofOutcome (Ddl.write d target parts))
    let rows ←
      if job.options.includeData then
        Work.connected (onSource ∘ Talk.send) (copyTables target order.length 0 0 order)
      else pure 0
    complete job target rows) :=
  rfl

/-! ## What is asked of the target -/

section Follows

variable {A : Request → Prop}

/-- What is asked of the source is not asked of the target. -/
theorem onSource_follows (t : Talk α) : Follows (Logs Run.targetLog A) job (onSource t) :=
  fun _ => .single (.inl rfl)

theorem onTarget_follows {t : Talk α} (h : Follows (Adds A) job.target t) :
    Follows (Logs Run.targetLog A) job (onTarget t) :=
  h.within (fun _ => rfl) fun _ _ _ hlog => .inr hlog

/-- Work that reads the job goes on with this job. -/
theorem follows_of_read {R : Run → Run → Prop} {f : Job → Migrating α}
    (h : Follows R job (f job)) : Follows R job (read >>= f) :=
  .bind_of .read fun _ _ hr => by cases hr; exact h

section Fill

variable {R : Run → Run → Prop} (hsource : ∀ {β : Type} (t : Talk β), Follows R job (onSource t))
  (hexec : ∀ sql, Follows R job (ask (.exec sql)))
  (hreport : ∀ p : Progress,
    Follows R job (modify fun run => { run with reports := run.reports ++ [p] }))

include hexec in
theorem write_follows (statements : List String) : Follows R job (write statements) :=
  .forM fun sql _ => hexec sql

include hexec in
theorem complete_follows (target : Schema) (rows : Nat) :
    Follows R job (complete job target rows) := by
  have write (statements : List String) : Follows R job (write statements) :=
    write_follows hexec statements
  have hlast : Follows R job (do
      Migration.write job.target.dialect.epilogue
      return rows) :=
    (write _).bind fun _ => .pure _
  unfold complete
  refine (write _).bind fun _ => ?_
  dsimp only
  split
  · refine (write _).bind fun _ => ?_
    split
    · exact (write _).bind fun _ => hlast
    · exact hlast
  · split
    · exact (write _).bind fun _ => hlast
    · exact hlast

include hexec in
theorem copyGroup_follows (into : Table) (group : List Row) :
    Follows R job (copyGroup into group) :=
  follows_of_read <| (Follows.ofOutcome _).bind fun _ => write_follows hexec _

include hsource hexec in
theorem copyRows_follows (t into : Table) : Follows R job (copyRows t into) :=
  follows_of_read <| (hsource _).bind fun _ =>
    (Follows.forM fun group _ => copyGroup_follows hexec into group).bind fun _ => .pure _

include hsource hexec hreport

theorem copyTables_follows (target : Schema) (total done rows : Nat) (tables : List Table) :
    Follows R job (copyTables target total done rows tables) := by
  induction tables generalizing done rows with
  | nil => exact .pure _
  | cons t rest ih =>
    have hrest (more : Nat) : Follows R job (do
        modify fun run => { run with reports := run.reports ++
          [.copying (Progress.share (done + 1) total) t.name (done + 1) (rows + more)] }
        copyTables target total (done + 1) (rows + more) rest) :=
      (hreport _).bind fun _ => ih _ _
    unfold copyTables
    cases target.table? t.name with
    | some into => exact (copyRows_follows hsource hexec t into).bind hrest
    | none => exact (Follows.pure 0).bind hrest

theorem fill_follows (target : Schema) (order : List Table) :
    Follows R job (fill target order) := by
  have write (statements : List String) : Follows R job (write statements) :=
    write_follows hexec statements
  have hcopy : Follows R job
      (connected (onSource ∘ Talk.send) (copyTables target order.length 0 0 order)) :=
    .connected (fun _ _ => hsource _) (copyTables_follows hsource hexec hreport _ _ _ _ _)
  rw [fill_eq]
  exact follows_of_read <| (write _).bind fun _ => (Follows.ofOutcome _).bind fun _ =>
    (write _).bind fun _ => .ite_bind hcopy (.pure 0) (complete_follows hexec target)

end Fill

/-- All that is asked of the target is to run statements. -/
theorem fill_logs (hexec : ∀ sql, A (.exec sql)) (target : Schema) (order : List Table) :
    Follows (Logs Run.targetLog A) job (fill target order) :=
  fill_follows onSource_follows (fun sql => onTarget_follows (Talk.send_follows (hexec sql)))
    (fun _ => .modify fun _ => .inl rfl) target order

theorem countRows_follows {db : Database} (hframe : A .connect ∧ A .close)
    (hquery : ∀ sql, A (.query sql)) (tables : List Table) :
    Follows (Adds A) db (countRows db.dialect tables) := by
  refine .connected ?_ (.mapM fun t _ => ?_)
  · intro r hr
    simp only [List.mem_cons, List.not_mem_nil, or_false] at hr
    rcases hr with rfl | rfl
    · exact Talk.send_follows hframe.1
    · exact Talk.send_follows hframe.2
  · refine (Talk.query_follows (hquery _)).bind fun rows => ?_
    exact Follows.of_still fun s => by cases Value.wholeOrZero (Talk.scalar? rows) <;> rfl

theorem countBoth_follows (hframe : A .connect ∧ A .close) (hquery : ∀ sql, A (.query sql))
    (tables : List Table) : Follows (Logs Run.targetLog A) job (countBoth tables) :=
  follows_of_read <| (onSource_follows _).bind fun _ =>
    (onTarget_follows (countRows_follows hframe hquery tables)).bind fun _ => .pure _

end Follows

/-! ## Commits -/

/-- The transaction on the target was committed after the requests `written`, and then the
connection was to be closed. -/
structure Committed (db : Database) (written log : Log) : Prop where
  log_eq : log = written ++ [.commit, .close]
  accepted : db.refuses written .commit = none

theorem Committed.exists_commit {db : Database} {written log : Log}
    (h : Committed db written log) (rest : Log) : ∃ i, Accepted db (log ++ rest) i .commit := by
  refine ⟨written.length, ?_, ?_⟩
  · simp [h.log_eq]
  · simp [h.log_eq, h.accepted]

/-- A migration that failed after its transaction had been committed: the connection to the target
was not closed, or the rows of the tables were not counted. -/
inductive FailsLate (job : Job) (run : Run) : Prop where
  | unclosed {written : Log} (h : Committed job.target written run.targetLog)
      (hclose : job.target.refuses (written ++ [.commit]) .close ≠ none)
  | uncounted {written : Log} {run₁ : Run} {order : List Table} {e : Fault}
      (h : Committed job.target written run₁.targetLog)
      (hcounts : (job.options.verify && job.options.includeData) = true)
      (hcount : (countBoth order).result job run₁ = (.error e, run))

theorem Written.committed_or {work : Migrating α} {run run' : Run} {r : Except Fault α}
    (h : Written job work run r run') (hrun : run.targetLog = [])
    (hwork : Follows (Logs Run.targetLog fun r => ∃ sql, r = .exec sql) job work) :
    (∃ e, r = .error e ∧ ∀ i, ¬Accepted job.target run'.targetLog i .commit) ∨
    ∃ written, Committed job.target written run'.targetLog ∧
      (r.toOption = none → job.target.refuses (written ++ [.commit]) .close ≠ none) := by
  have hworked {r : Except Fault α} {run₁ : Run}
      (hr : work.result job ((run.asked .connect).asked .start) = (r, run₁)) :
      Request.commit ∉ run₁.targetLog := by
    obtain ⟨new, hlog, hnew⟩ := hwork.log_eq ((run.asked .connect).asked .start)
    rw [hr] at hlog
    change run₁.targetLog = run.targetLog ++ [.connect] ++ [.start] ++ new at hlog
    rw [hlog, hrun]
    intro hmem
    simp only [List.nil_append, List.cons_append, List.mem_cons, reduceCtorEq, false_or] at hmem
    obtain ⟨sql, hsql⟩ := hnew _ hmem
    cases hsql
  have hnone {log : Log} (hlog : Request.commit ∉ log) (i : Nat) :
      ¬Accepted job.target log i .commit :=
    fun hi => hlog (List.mem_of_getElem? hi.1)
  cases h with
  | unconnected e => exact .inl ⟨e, rfl, hnone (by simp [Run.asked, hrun])⟩
  | unbegun e => exact .inl ⟨e, rfl, hnone (by simp [Run.asked, hrun])⟩
  | takenBack hr => exact .inl ⟨_, rfl, hnone (by simp [Run.asked, hworked hr])⟩
  | @uncommitted run₁ _ e hr hcommit =>
    refine .inl ⟨e, rfl, fun i hi => hcommit ?_⟩
    have hplace : i = run₁.targetLog.length :=
      eq_length_of_getElem? hi.1 (hworked hr) List.not_mem_nil
    have haccepted := hi.2
    rwa [hplace, Run.asked, List.take_left] at haccepted
  | unclosed e hr hcommit hclose =>
    exact .inr ⟨_, ⟨by simp [Run.asked], hcommit⟩, fun _ => hclose⟩
  | committed hr hcommit =>
    exact .inr ⟨_, ⟨by simp [Run.asked], hcommit⟩, fun h => absurd h (by simp [Except.toOption])⟩

/-! ## The whole migration -/

def finish (o : MigrationOptions) (target : Schema) (order : List Table) : Migrating Unit := do
  let rows ← transacted ask (fill target order)
  note fun r => { r with rows }
  if o.verify && o.includeData then
    let counts ← countBoth order
    note fun r => { r with counts }

theorem steps_eq : steps = (do
    let job ← read
    let source := job.source.dialect
    let all ← onSource (Introspection.schema source job.options.tables)
    let s := all.without job.options.excludeTables
    let (target, warnings) ← Work.ofOutcome
      (Convert.schema s job.target.dialect (some source) job.options.strict)
    let order := s.createOrder
    note fun r => { r with warnings := warnings.map (·.display), tables := order.map (·.name) }
    finish job.options target order) :=
  rfl

theorem finish_uncommitted_or {run run' : Run} {target : Schema} {order : List Table} {e : Fault}
    (hrun : run.targetLog = [])
    (h : (finish job.options target order).result job run = (.error e, run')) :
    (∀ i, ¬Accepted job.target run'.targetLog i .commit) ∨ FailsLate job run' := by
  have hcases := (@transacted_written job _ (fill target order) run).committed_or hrun
    (fill_logs (fun sql => ⟨sql, rfl⟩) _ _)
  unfold finish at h
  rw [result_bind] at h
  generalize (transacted ask (fill target order)).result job run = outcome at h hcases
  obtain ⟨r, run₁⟩ := outcome
  rcases hcases with ⟨e', hr, hnone⟩ | ⟨written, hcommitted, hclose⟩
  · dsimp only at hr hnone
    subst hr
    cases h
    exact .inl hnone
  cases r with
  | error e =>
    cases h
    exact .inr (.unclosed hcommitted (hclose rfl))
  | ok rows =>
    dsimp only at h
    rw [result_bind, note, result_modify] at h
    dsimp only at h
    split at h
    · next hcounts =>
      rw [result_bind] at h
      cases hcount : (countBoth order).result job { run₁ with result := _ } with
      | mk r run₂ =>
        rw [hcount] at h
        cases r with
        | ok counts => cases h
        | error e =>
          cases h
          have hnoted : Committed job.target written
            { run₁ with result := { run₁.result with rows } }.targetLog := hcommitted
          exact .inr (.uncounted hnoted hcounts hcount)
    · cases h

theorem steps_uncommitted_or {run run' : Run} {e : Fault} (hrun : run.targetLog = [])
    (h : steps.result job run = (.error e, run')) :
    (∀ i, ¬Accepted job.target run'.targetLog i .commit) ∨ FailsLate job run' := by
  have hnothing {run : Run} (hrun : run.targetLog = []) (i : Nat) :
      ¬Accepted job.target run.targetLog i .commit := by
    rintro ⟨hi, -⟩
    rw [hrun] at hi
    cases hi
  rw [steps_eq, result_bind, result_read] at h
  dsimp only at h
  rw [result_bind] at h
  cases hread : (onSource (Introspection.schema job.source.dialect job.options.tables)).result job
      run with
  | mk r run₁ =>
    have hrun₁ : run₁.targetLog = [] := by
      rw [← hrun]
      exact (congrArg (fun x => x.2.targetLog) hread).symm
    rw [hread] at h
    cases r with
    | error e =>
      cases h
      exact .inl (hnothing hrun₁)
    | ok read =>
      dsimp only at h
      rw [result_bind, result_ofOutcome] at h
      generalize Convert.schema _ _ _ _ = converted at h
      cases converted with
      | error e =>
        cases h
        exact .inl (hnothing hrun₁)
      | ok converted =>
        dsimp only at h
        rw [result_bind, note, result_modify] at h
        dsimp only at h
        refine finish_uncommitted_or ?_ h
        exact hrun₁

def Run.unbegun (job : Job) : Run :=
  { result := { source := job.source.dialect, target := job.target.dialect } }

/-- A migration that returns a failure ends as its steps failed. -/
theorem steps_error_of_failed {r : Result} {run : Run} (h : job.perform = (.ok r, run))
    (hr : r.success = false) : ∃ e, steps.result job (.unbegun job) = (.error e, run) := by
  change migrate.result job (.unbegun job) = (.ok r, run) at h
  obtain ⟨outcome, run₁, houtcome, h⟩ := exists_of_result_bind_eq_ok (of_read_bind_eq_ok h)
  rw [result_outcome] at houtcome
  obtain ⟨hsteps, rfl⟩ := Prod.mk.inj houtcome
  cases outcome with
  | ok _ =>
    obtain ⟨_, _, hget, h⟩ := exists_of_result_bind_eq_ok h
    cases hget
    obtain ⟨warnings, -, h⟩ := exists_of_ofOutcome_bind_eq_ok h
    cases h
    cases hr
  | error e =>
    obtain ⟨failure, -, h⟩ := exists_of_ofOutcome_bind_eq_ok h
    cases h
    exact ⟨e, Prod.ext (Except.ok.inj hsteps) rfl⟩

/-- Counting goes on with the log of the target. -/
theorem FailsLate.exists_commit {run : Run} (h : FailsLate job run) :
    ∃ i, Accepted job.target run.targetLog i .commit := by
  cases h with
  | unclosed h _ =>
    have hcommit := h.exists_commit []
    rwa [List.append_nil] at hcommit
  | @uncounted written run₁ order e h _ hcount =>
    have hfollows : Follows (Logs Run.targetLog fun _ => True) job (countBoth order) :=
      countBoth_follows ⟨trivial, trivial⟩ (fun _ => trivial) order
    obtain ⟨new, hlog, _⟩ := hfollows.log_eq run₁
    rw [hcount] at hlog
    rw [hlog]
    exact h.exists_commit new

/-- A migration that returns a failure has committed what it wrote exactly if it failed after its
transaction. -/
theorem committed_iff_failsLate {r : Result} {run : Run} (h : job.perform = (.ok r, run))
    (hr : r.success = false) :
    (∃ i, Accepted job.target run.targetLog i .commit) ↔ FailsLate job run := by
  constructor
  · rintro ⟨i, hi⟩
    obtain ⟨e, hsteps⟩ := steps_error_of_failed h hr
    rcases steps_uncommitted_or rfl hsteps with hnone | hlate
    · exact absurd hi (hnone i)
    · exact hlate
  · exact FailsLate.exists_commit

/-- A table is copied whose rows the target then refuses to count. -/
def Job.uncountable : Job where
  source := { Database.refusing .sqlite (fun _ _ => none) with
    catalog.tables := [{ name := "t", columns := [{ name := "id", type := some "INTEGER" }] }] }
  target := .refusing .mysql fun _ r =>
    if r = .query "SELECT COUNT(*) FROM \x60t\x60" then some (.engine "gone") else none
  options := {}

theorem uncountable_perform : ∃ r run, Job.uncountable.perform = (.ok r, run) ∧
    r.success = false ∧ Accepted Job.uncountable.target run.targetLog 6 .commit := by
  have hreturn : Job.uncountable.perform.1.toOption.map (·.success) = some false := by
    decide +kernel
  have hcommit : Job.uncountable.perform.2.targetLog[6]? = some .commit := by decide +kernel
  obtain ⟨r, run, hperform, hr⟩ := exists_ok_of_map_eq_some hreturn
  change Job.uncountable.perform = (.ok r, run) at hperform
  rw [hperform] at hcommit
  exact ⟨r, run, hperform, hr, hcommit, rfl⟩

theorem uncountable_failsLate : ∃ r run, Job.uncountable.perform = (.ok r, run) ∧
    r.success = false ∧ FailsLate Job.uncountable run := by
  obtain ⟨r, run, hperform, hr, hcommit⟩ := uncountable_perform
  exact ⟨r, run, hperform, hr, (committed_iff_failsLate hperform hr).1 ⟨6, hcommit⟩⟩

/-- A migration that returns a failure can have committed what it wrote. -/
theorem not_uncommitted_of_failed : ¬∀ (job : Job) (r : Result) (run : Run),
    job.perform = (.ok r, run) → r.success = false →
      ∀ i, ¬Accepted job.target run.targetLog i .commit := by
  intro h
  obtain ⟨r, run, hperform, hr, hcommit⟩ := uncountable_perform
  exact h _ r run hperform hr 6 hcommit

end SqlFerry.Migration
