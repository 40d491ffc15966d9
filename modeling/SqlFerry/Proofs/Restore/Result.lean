import SqlFerry.Proofs.Restore.Requests
import SqlFerry.Restore.File

/-!
# What a restore returns

How a restore ends, read backwards from its result: the transaction around the work, the connection
around the transaction, and the result around the connection. The result shows the tally, in which
a structural failure counts the statements that were not reached as skipped.
-/

namespace SqlFerry.Restore

open Work Restoring

variable {job : Job}

/-! ## Requests one by one -/

theorem result_read_bind {α : Type} (f : Job → Restoring α) (run : Run) :
    (read >>= f).result job run = (f job).result job run := by
  rw [result_bind, result_read]

theorem result_send (r : Request) (run : Run) :
    (send r).result job run = ((match job.database.refuses run.log r with
      | some t => .error t.fault
      | none => .ok ()), run.logged r) := by
  unfold send talk
  rw [result_within, Talk.result_send]
  rfl

theorem result_sendOrFail_of_accepted {r : Request} {run : Run} (reason : String → String)
    (h : job.database.refuses run.log r = none) :
    (sendOrFail r reason).result job run = (.ok (), run.logged r) := by
  unfold sendOrFail
  rw [result_bind, result_outcome, result_send, h]
  rfl

theorem result_sendOrFail_of_refused {r : Request} {run : Run} (reason : String → String)
    (h : job.database.refuses run.log r ≠ none) :
    ∃ e, (sendOrFail r reason).result job run = (.error e, run.logged r) := by
  obtain ⟨t, ht⟩ := Option.ne_none_iff_exists'.1 h
  unfold sendOrFail
  rw [result_bind, result_outcome, result_send, ht]
  cases t with
  | engine text => exact ⟨_, rfl⟩
  | system text => exact ⟨_, rfl⟩

theorem result_connect_of_accepted {run : Run} (h : job.database.refuses run.log .connect = none) :
    connect.result job run = (.ok (), run.logged .connect) := by
  unfold connect
  rw [result_bind, result_outcome, result_send, h]
  rfl

theorem result_connect_of_refused {run : Run} (h : job.database.refuses run.log .connect ≠ none) :
    ∃ f, connect.result job run = (.error (.failure f), run.logged .connect) := by
  obtain ⟨t, ht⟩ := Option.ne_none_iff_exists'.1 h
  unfold connect
  rw [result_bind, result_outcome, result_send, ht]
  exact ⟨_, rfl⟩

/-! ## The script -/

theorem result_perform (s : Statement) (run : Run) :
    (perform s).result job run = match (judge job s).result job.database run.log with
      | (.ok v, log) => (.ok v.isFailed, { run with log, tally := v.tally s run.tally })
      | (.error e, log) => (.error e, { run with log }) := by
  unfold perform talk count
  rw [result_read_bind, result_bind, result_within]
  cases (judge job s).result job.database run.log with
  | mk r log => cases r <;> rfl

theorem result_report (percent : Nat) (operation : String) (run : Run) :
    (report percent operation).result job run = (.ok (), run.reported percent operation) := rfl

def Run.passing (job : Job) (total done : Nat) (run : Run) : Run :=
  if done % job.options.progressInterval = 0 || done = total then
    run.reported (executionPercent done total) s!"Executing statements ({done}/{total})"
  else run

/-- The pass over a script judges its first statement and counts the verdict. Then it stops, or goes
on with the others. -/
theorem result_pass_cons (total done : Nat) (s : Statement) (rest : List Statement) (run : Run) :
    (pass total done (s :: rest)).result job run =
      match (judge job s).result job.database run.log with
      | (.error e, log) => (.error e, { run with log })
      | (.ok v, log) =>
        let t := v.tally s run.tally
        if (v.isFailed && job.options.stopOnError) = true then
          (.ok (some s),
            { run with log, tally := { t with skipped := t.skipped + rest.length } })
        else (pass total (done + 1) rest).result job
          { run with
            log
            tally := t
            reports := (Run.passing job total (done + 1) { run with tally := t }).reports } := by
  rw [pass, result_read_bind, result_bind, result_perform]
  cases (judge job s).result job.database run.log with
  | mk outcome log =>
    cases outcome with
    | error e => rfl
    | ok v =>
      dsimp only
      split
      · rfl
      · unfold Run.passing
        split <;> rfl

/-- The body prepares the session, passes over the script, and is finalized if that comes to its
end. -/
theorem result_body (statements : List Statement) (run : Run) :
    (body statements).result job run =
      let begun := run.reported 15 "Preparing database session"
      match (prepareSession job).result job.database run.log with
      | (.error e, log) => (.error e, { begun with log })
      | (.ok _, log) =>
        match (pass statements.length 0 statements).result job { begun with log } with
        | (.ok none, run₁) => (((finalize statements).result job run₁).1.map fun _ => none,
            ((finalize statements).result job run₁).2)
        | (r, run₁) => (r, run₁) := by
  unfold body talk
  rw [result_bind, result_report]
  dsimp only
  rw [result_read_bind, result_bind, result_within]
  dsimp only [Run.reported]
  cases (prepareSession job).result job.database run.log with
  | mk prepared log =>
    cases prepared with
    | error e => rfl
    | ok _ =>
      dsimp only
      rw [result_bind]
      generalize (pass statements.length 0 statements).result job _ = passed
      cases passed with
      | mk r run₁ =>
        cases r with
        | error e => rfl
        | ok stopped =>
          cases stopped with
          | some s => rfl
          | none =>
            dsimp only
            rw [result_bind]
            cases (finalize statements).result job run₁ with
            | mk final run₂ => cases final <;> rfl

/-! ## The transaction -/

section Transaction

variable {work : Restoring (Option Statement)} {run : Run}

/-- The run after a failure in a transaction, which is taken back if it still stands. -/
def Run.retracted (run : Run) (job : Job) : Run :=
  if job.database.isActive run.log then run.logged .rollback else run

theorem Run.exists_log_retracted (run : Run) (job : Job) : ∃ back : Log,
    (back = [] ∨ back = [.rollback]) ∧ (run.retracted job).log = run.log ++ back := by
  unfold Run.retracted
  split
  · exact ⟨[.rollback], .inr rfl, rfl⟩
  · exact ⟨[], .inl rfl, (List.append_nil _).symm⟩

@[simp]
theorem Run.tally_retracted (run : Run) (job : Job) : (run.retracted job).tally = run.tally := by
  unfold Run.retracted
  split <;> rfl

/-- What work in a transaction comes to. -/
inductive Bracketed (job : Job) (work : Restoring (Option Statement)) (run : Run) :
    Except Fault (Option Statement) → Run → Prop where
  | unbegun (e : Fault) (hstart : job.database.refuses run.log .start ≠ none) :
    Bracketed job work run (.error e) (run.logged .start)
  | committed {run₁ : Run} (hstart : job.database.refuses run.log .start = none)
      (hwork : work.result job (run.logged .start) = (.ok none, run₁))
      (hcommit : job.database.refuses run₁.log .commit = none) :
    Bracketed job work run (.ok none) (run₁.logged .commit)
  | uncommitted {run₁ run' : Run} (e : Fault) (hstart : job.database.refuses run.log .start = none)
      (hwork : work.result job (run.logged .start) = (.ok none, run₁))
      (hcommit : job.database.refuses run₁.log .commit ≠ none)
      (hend : run' = (run₁.logged .commit).retracted job) : Bracketed job work run (.error e) run'
  | stopped {run₁ : Run} {s : Statement} {r : Except Fault (Option Statement)}
      (hstart : job.database.refuses run.log .start = none)
      (hwork : work.result job (run.logged .start) = (.ok (some s), run₁))
      (hr : r = .ok (some s) ∨ ∃ e, r = .error e) :
    Bracketed job work run r (run₁.logged .rollback)
  | failed {run₁ run' : Run} {e e' : Fault} (hstart : job.database.refuses run.log .start = none)
      (hwork : work.result job (run.logged .start) = (.error e, run₁))
      (hend : run' = run₁.retracted job) : Bracketed job work run (.error e') run'

/-- What is said after a transaction was taken back is not said if that was refused. -/
theorem result_rollback_bind {next : Restoring (Option Statement)}
    {r : Except Fault (Option Statement)} (hnext : ∀ run, next.result job run = (r, run))
    (run : Run) : ∃ r', (send .rollback >>= fun _ => next).result job run =
      (r', run.logged .rollback) ∧ (r' = r ∨ ∃ e, r' = .error e) := by
  rw [result_bind, result_send]
  cases job.database.refuses run.log .rollback with
  | some t => exact ⟨_, rfl, .inr ⟨_, rfl⟩⟩
  | none => exact ⟨r, hnext _, .inl rfl⟩

theorem result_retract (e : Fault) (run : Run) :
    ∃ e', (retract e).result job run = (.error e', run.retracted job) := by
  unfold retract
  rw [result_read_bind, result_bind, result_get]
  dsimp only
  unfold Run.retracted
  split
  · have hnext (run : Run) :
        (throw e : Restoring (Option Statement)).result job run = (.error e, run) := rfl
    obtain ⟨r', h, rfl | ⟨e', rfl⟩⟩ := result_rollback_bind hnext run
    · exact ⟨e, h⟩
    · exact ⟨e', h⟩
  · exact ⟨e, rfl⟩

theorem inTransaction_bracketed (hjob : job.options.inTransaction = true) :
    Bracketed job work run ((inTransaction work).result job run).1
      ((inTransaction work).result job run).2 := by
  unfold inTransaction
  rw [result_read_bind, hjob]
  simp only [Bool.not_true, Bool.false_eq_true, if_false]
  rw [result_bind]
  by_cases hstart : job.database.refuses run.log .start = none
  · rw [result_sendOrFail_of_accepted _ hstart]
    dsimp only
    rw [result_bind, result_outcome, result_bind]
    cases hwork : work.result job (run.logged .start) with
    | mk r run₁ =>
      cases r with
      | error e =>
        obtain ⟨e', he'⟩ := @result_retract job e run₁
        dsimp only
        rw [he']
        exact .failed hstart hwork rfl
      | ok stopped =>
        cases stopped with
        | some s =>
          have hnext (run : Run) : (pure (some s) : Restoring (Option Statement)).result job run =
              (.ok (some s), run) := rfl
          obtain ⟨r', h, hr'⟩ := @result_rollback_bind job _ _ hnext run₁
          dsimp only [Option.isNone_some]
          exact h ▸ .stopped hstart hwork hr'
        | none =>
          simp only [Option.isNone_none, if_true]
          rw [result_bind]
          by_cases hcommit : job.database.refuses run₁.log .commit = none
          · rw [result_sendOrFail_of_accepted _ hcommit]
            exact .committed hstart hwork hcommit
          · obtain ⟨e, he⟩ := result_sendOrFail_of_refused
              (fun text => "commit failed: " ++ clipped text) hcommit
            obtain ⟨e', he'⟩ := @result_retract job e (run₁.logged .commit)
            rw [he]
            dsimp only
            rw [he']
            exact .uncommitted e' hstart hwork hcommit rfl
  · obtain ⟨e, he⟩ := result_sendOrFail_of_refused (fun _ => "could not begin transaction") hstart
    rw [he]
    exact .unbegun e hstart

theorem result_inTransaction_of_not (hjob : job.options.inTransaction = false) :
    (inTransaction work).result job run = work.result job run := by
  unfold inTransaction
  rw [result_read_bind, hjob]
  rfl

end Transaction

/-! ## The connection -/

inductive Executed (job : Job) (statements : List Statement) (run : Run) :
    Except Fault (Option Statement) → Run → Prop where
  | unconnected (f : Failure) (hconnect : job.database.refuses run.log .connect ≠ none) :
    Executed job statements run (.error (.failure f)) (run.logged .connect)
  | closed {r : Except Fault (Option Statement)} {run₁ : Run}
      (hconnect : job.database.refuses run.log .connect = none)
      (hwork : (inTransaction (body statements)).result job (run.logged .connect) = (r, run₁)) :
    Executed job statements run r (run₁.logged .close)
  | unclosed {r : Except Fault (Option Statement)} {run₁ : Run} (t : Trouble)
      (hconnect : job.database.refuses run.log .connect = none)
      (hwork : (inTransaction (body statements)).result job (run.logged .connect) = (r, run₁)) :
    Executed job statements run (.error t.fault) (run₁.logged .close)

theorem execute_executed (statements : List Statement) (run : Run) :
    Executed job statements run ((execute statements).result job run).1
      ((execute statements).result job run).2 := by
  unfold execute
  rw [result_bind]
  by_cases hconnect : job.database.refuses run.log .connect = none
  · rw [result_connect_of_accepted hconnect]
    dsimp only
    rw [result_andFinally, result_send]
    cases hwork : (inTransaction (body statements)).result job (run.logged .connect) with
    | mk r run₁ =>
      cases hclose : job.database.refuses run₁.log .close with
      | none =>
        dsimp only
        exact .closed hconnect hwork
      | some t =>
        dsimp only
        exact .unclosed t hconnect hwork
  · obtain ⟨f, hf⟩ := result_connect_of_refused hconnect
    rw [hf]
    exact .unconnected f hconnect

/-! ## The result -/

/-- A structural failure is not a refusal of the database. -/
theorem error_failure_ne_fault (f : Failure) (t : Trouble) :
    (.error (.failure f) : Except Fault (Option Statement)) ≠ .error t.fault := by
  cases t <;> simp [Trouble.fault]

def Run.expecting (run : Run) (job : Job) (statements : List Statement) : Run :=
  { run with tally := run.tally.expecting statements.length job.options.maxFailureRecords }

inductive Returns (job : Job) (statements : List Statement) (run : Run) :
    (success : Bool) → Tally → Log → Prop where
  | nothing (h : statements = []) :
    Returns job statements run true (run.expecting job statements).tally run.log
  | complete {run' : Run} (hne : statements ≠ [])
      (h : Executed job statements (run.expecting job statements) (.ok none) run') :
    Returns job statements run true run'.tally run'.log
  | stopped {run' : Run} {s : Statement} (hne : statements ≠ [])
      (h : Executed job statements (run.expecting job statements) (.ok (some s)) run') :
    Returns job statements run false run'.tally run'.log
  | failed {run' : Run} {f : Failure} (hne : statements ≠ [])
      (h : Executed job statements (run.expecting job statements) (.error (.failure f)) run') :
    Returns job statements run false run'.tally.settle run'.log

theorem log_runAll {statements : List Statement} (hne : statements ≠ []) (run : Run) :
    ((runAll statements).result job run).2.log =
      ((execute statements).result job (run.expecting job statements)).2.log := by
  unfold runAll
  rw [result_read_bind, result_bind, count, result_modify]
  dsimp only
  change (result _ job (run.expecting job statements)).2.log = _
  rw [if_neg (by simpa using hne), result_bind, result_outcome]
  cases (execute statements).result job (run.expecting job statements) with
  | mk outcome run₁ =>
    cases outcome with
    | ok stopped => cases stopped <;> rfl
    | error e => cases e <;> rfl

theorem log_runStatements {statements : List Statement} (hne : statements ≠ []) (run : Run) :
    ((runStatements statements).result job run).2.log =
      ((execute statements).result job (run.expecting job statements)).2.log := by
  rw [← log_runAll hne, runStatements, result_bind]
  cases (runAll statements).result job run with
  | mk outcome run₁ => cases outcome <;> rfl

theorem runAll_returns {statements : List Statement} {run run' : Run} {r : Result}
    (h : (runAll statements).result job run = (.ok r, run')) :
    Returns job statements run r.success r.tally run'.log := by
  unfold runAll at h
  rw [result_read_bind, result_bind, count, result_modify] at h
  dsimp only at h
  change result _ job (run.expecting job statements) = _ at h
  cases statements with
  | nil =>
    cases h
    exact .nothing rfl
  | cons s rest =>
    simp only [List.isEmpty_cons, Bool.false_eq_true, if_false] at h
    rw [result_bind, result_outcome] at h
    have hexec := @execute_executed job (s :: rest) (run.expecting job (s :: rest))
    cases hr : (execute (s :: rest)).result job (run.expecting job (s :: rest)) with
    | mk outcome run₁ =>
      rw [hr] at h hexec
      cases outcome with
      | ok stopped =>
        cases stopped with
        | none =>
          cases h
          exact .complete (by simp) hexec
        | some s =>
          cases h
          exact .stopped (by simp) hexec
      | error e =>
        cases e
        case failure f =>
          cases h
          exact .failed (by simp) hexec
        all_goals cases h

theorem runStatements_returns {statements : List Statement} {run run' : Run} {r : Result}
    (h : (runStatements statements).result job run = (.ok r, run')) :
    Returns job statements run r.success r.tally run'.log := by
  unfold runStatements at h
  rw [result_bind] at h
  cases hr : (runAll statements).result job run with
  | mk outcome run₁ =>
    rw [hr] at h
    cases outcome with
    | ok r₁ =>
      have hreturns := runAll_returns hr
      cases h
      exact hreturns
    | error e => cases h

end SqlFerry.Restore
