import SqlFerry.Proofs.Restore.Escape

/-!
# Putting the session back

A restore puts the settings of its session back when it has come to the end of its script. If it
stops at a failed statement, or if a fault escapes on the way, the settings stay as the restore has
set them. So all of them are put back exactly if the restore comes to that end and the database
refuses none of them but the last.
-/

namespace SqlFerry.Restore

open Work Restoring

variable {job : Job} {statements : List Statement}

/-! ## The script apart from the session -/

def replayIfAsked (statements : List Statement) : Restoring Unit := do
  let job ← read
  report 95 "Finalizing restore"
  if job.options.resetSequences then replaySequences statements

def restoreScript (statements : List Statement) : Restoring (Option Statement) := do
  report 15 "Preparing database session"
  talk (prepareSession (← read))
  match ← pass statements.length 0 statements with
  | some s => return some s
  | none =>
    replayIfAsked statements
    return none

def restoreSettings (settings : List String) : Restoring Unit :=
  settings.forM restoreSetting

theorem result_restoreSettings_cons (sql : String) (settings : List String) (run : Run) :
    (restoreSettings (sql :: settings)).result job run =
      match (restoreSetting sql).result job run with
      | (.ok _, run₁) => (restoreSettings settings).result job run₁
      | (.error e, run₁) => (.error e, run₁) := by
  change (restoreSetting sql >>= fun _ => restoreSettings settings).result job run = _
  rw [result_bind]
  cases (restoreSetting sql).result job run with
  | mk r run₁ => cases r <;> rfl

theorem result_finalize (statements : List Statement) (run : Run) :
    (finalize statements).result job run =
      match (replayIfAsked statements).result job run with
      | (.ok _, run₁) => (restoreSettings job.session.teardown).result job run₁
      | (.error e, run₁) => (.error e, run₁) := by
  unfold finalize replayIfAsked report
  rw [result_read_bind, result_bind, result_modify, result_read_bind, result_bind, result_modify]
  dsimp only
  cases job.options.resetSequences with
  | false => rfl
  | true =>
    rw [if_pos rfl, if_pos rfl, result_bind]
    cases (replaySequences statements).result job _ with
    | mk replayed run₁ => cases replayed <;> rfl

/-- The session is put back after the script, unless that stops or fails. -/
theorem result_body_eq (statements : List Statement) (run : Run) :
    (body statements).result job run =
      match (restoreScript statements).result job run with
      | (.ok none, run₁) => (((restoreSettings job.session.teardown).result job run₁).1.map
          fun _ => none, ((restoreSettings job.session.teardown).result job run₁).2)
      | (r, run₁) => (r, run₁) := by
  unfold body restoreScript report talk
  rw [result_bind, result_bind, result_modify]
  dsimp only
  rw [result_read_bind, result_read_bind, result_bind, result_bind, result_within]
  cases (prepareSession job).result job.database run.log with
  | mk prepared log =>
    cases prepared with
    | error e => rfl
    | ok _ =>
      dsimp only
      rw [result_bind, result_bind]
      generalize (pass statements.length 0 statements).result job _ = passed
      obtain ⟨r, run₁⟩ := passed
      cases r with
      | error e => rfl
      | ok stopped =>
        cases stopped with
        | some s => rfl
        | none =>
          dsimp only
          rw [result_bind, result_bind, result_finalize]
          cases (replayIfAsked statements).result job run₁ with
          | mk replayed run₂ =>
            cases replayed with
            | error e => rfl
            | ok _ =>
              dsimp only [result_pure]
              cases (restoreSettings job.session.teardown).result job run₂ with
              | mk settled run₃ => cases settled <;> rfl

/-! ## What is asked for the settings -/

section Talk

variable {db : Database} {inTransaction : Bool}

/-- Without a savepoint the statement itself is what is asked first. -/
theorem exec_prefix_request (hplain : inTransaction = true → db.dialect ≠ .postgresql)
    (sql : String) (log : Log) :
    log ++ [.exec sql] <+: ((request inTransaction sql).result db log).2 := by
  have hsend : ((Talk.send (.exec sql)).result db log).2 = log ++ [.exec sql] := by
    rw [Talk.result_send]
  cases inTransaction with
  | false =>
    rw [request, if_neg (by simp), result_bind, Talk.result_send]
    cases db.refuses log (.exec sql) with
    | some t => exact List.prefix_refl _
    | none => exact Talk.log_prefix (A := fun _ => True) (Talk.send_follows trivial) _
  | true =>
    rw [request, if_pos rfl, result_bind, result_read]
    dsimp only
    rw [if_neg (by simpa using hplain rfl)]
    exact hsend ▸ List.prefix_refl _

theorem exec_prefix_refusal? (hplain : inTransaction = true → db.dialect ≠ .postgresql)
    (sql : String) (log : Log) :
    log ++ [.exec sql] <+: ((refusal? inTransaction sql).result db log).2 := by
  have hattempt : log ++ [.exec sql] <+: ((attempt inTransaction sql).result db log).2 := by
    have hrequest := exec_prefix_request hplain sql log
    rw [attempt, result_bind, result_outcome]
    dsimp only
    generalize (request inTransaction sql).result db log = answer at hrequest ⊢
    obtain ⟨r, log₁⟩ := answer
    refine hrequest.trans (Talk.log_prefix (A := fun _ => True) ?_ log₁)
    cases r with
    | ok _ => exact .pure _
    | error e =>
      cases e
      case engine text =>
        cases inTransaction with
        | false => exact (Talk.send_follows trivial).bind fun _ => .pure _
        | true => exact .pure _
      all_goals exact .throw _
  rw [refusal?, result_bind]
  cases hr : (attempt inTransaction sql).result db log with
  | mk r log₁ =>
    rw [hr] at hattempt
    cases r <;> exact hattempt

end Talk

section Settings

variable (hplain : job.options.inTransaction = true → job.database.dialect ≠ .postgresql)
include hplain

/-- A statement that puts a setting back is run, whether it is refused or not, and no other one. -/
theorem restoreSetting_asks (sql : String) (run : Run) : ∃ new,
    ((restoreSetting sql).result job run).2.log = run.log ++ new ∧ .exec sql ∈ new ∧
      ∀ sql', .exec sql' ∈ new → sql' = sql := by
  let A (r : Request) : Prop := ∀ sql', r = .exec sql' → sql' = sql
  have hframe : ∀ r ∈ framing job.options.inTransaction, A r := by
    rintro r hr sql' rfl
    cases htx : job.options.inTransaction <;> simp [htx, framing] at hr
  have hown : A (.exec sql) := by
    rintro sql' ⟨⟩
    rfl
  have hfollows : Follows (Step A fun _ _ => True) job (restoreSetting sql) :=
    restoreSetting_follows hframe hown
  obtain ⟨new, hlog, hnew⟩ := (hfollows.mono fun _ _ => Step.logs).log_eq run
  refine ⟨new, hlog, ?_, fun sql' h => hnew _ h sql' rfl⟩
  have hfirst : run.log ++ [.exec sql] <+: ((restoreSetting sql).result job run).2.log := by
    have h := exec_prefix_refusal? hplain sql run.log
    rw [restoreSetting, result_read_bind, result_bind, talk, result_within]
    cases hr : (refusal? job.options.inTransaction sql).result job.database run.log with
    | mk r log =>
      rw [hr] at h
      cases r with
      | error e => exact h
      | ok refusal => cases refusal <;> exact h
  rw [hlog, List.prefix_append_right_inj] at hfirst
  exact hfirst.subset List.mem_cons_self

/-- All settings are asked for exactly if the last one is reached. -/
theorem restoreSettings_asks {settings : List String} (hnodup : settings.Nodup) (run : Run) :
    ∃ new, ((restoreSettings settings).result job run).2.log = run.log ++ new ∧
      ((∀ sql ∈ settings, .exec sql ∈ new) ↔
        ∃ run₁, (restoreSettings settings.dropLast).result job run = (.ok (), run₁)) := by
  induction settings generalizing run with
  | nil => exact ⟨[], (List.append_nil _).symm, by simp [restoreSettings]⟩
  | cons sql rest ih =>
    obtain ⟨hfresh, hrest⟩ := List.nodup_cons.1 hnodup
    have hlast : (sql :: rest).dropLast = if rest = [] then [] else sql :: rest.dropLast := by
      cases rest <;> rfl
    obtain ⟨new, hlog, hown, honly⟩ := restoreSetting_asks hplain sql run
    have hother {sql' : String} (h : sql' ∈ rest) : .exec sql' ∉ new :=
      fun hnew => hfresh (honly sql' hnew ▸ h)
    cases hr : (restoreSetting sql).result job run with
    | mk r run₁ =>
      rw [hr] at hlog
      cases r with
      | error e =>
        refine ⟨new, by rw [result_restoreSettings_cons, hr]; exact hlog, ?_⟩
        rw [hlast, List.forall_mem_cons]
        by_cases hnil : rest = []
        · subst hnil
          exact iff_of_true ⟨hown, List.forall_mem_nil _⟩ ⟨run, rfl⟩
        -- A setting behind the refused one is not asked for any more.
        · obtain ⟨sql', hsql'⟩ := List.exists_mem_of_ne_nil rest hnil
          rw [if_neg hnil, result_restoreSettings_cons, hr]
          refine iff_of_false (fun h => hother hsql' (h.2 sql' hsql')) ?_
          rintro ⟨run₂, h⟩
          cases h
      | ok _ =>
        obtain ⟨more, hmore, hiff⟩ := ih hrest run₁
        refine ⟨new ++ more, ?_, ?_⟩
        · rw [result_restoreSettings_cons, hr]
          dsimp only
          rw [hmore, hlog, List.append_assoc]
        · have hreach : (∀ sql' ∈ sql :: rest, .exec sql' ∈ new ++ more) ↔
              ∀ sql' ∈ rest, .exec sql' ∈ more := by
            rw [List.forall_mem_cons]
            constructor
            · rintro ⟨-, h⟩ sql' hsql'
              exact (List.mem_append.1 (h sql' hsql')).resolve_left (hother hsql')
            · exact fun h => ⟨List.mem_append_left _ hown,
                fun sql' hsql' => List.mem_append_right _ (h sql' hsql')⟩
          rw [hreach, hiff, hlast]
          by_cases hnil : rest = []
          · subst hnil
            exact iff_of_true ⟨run₁, rfl⟩ ⟨run, rfl⟩
          · rw [if_neg hnil, result_restoreSettings_cons, hr]

end Settings

/-! ## The end of the script -/

section Throws

variable {db : Database}

theorem request_throws (inTransaction : Bool) (sql : String) :
    Throws Fault.IsTrouble db (request inTransaction sql) := by
  have send (r : Request) : Throws Fault.IsTrouble db (Talk.send r) :=
    Talk.send_throws (fun t => ⟨t, rfl⟩) r
  unfold request
  cases inTransaction with
  | false => exact (send _).bind fun _ => send _
  | true =>
    refine .read_bind ?_
    split
    · refine (send _).bind fun _ => (send _).outcome_bind (fun _ => ?_) fun e he => ?_
      · exact (send _).bind fun _ => .pure _
      · exact (send _).outcome_bind (fun _ => .throw he) fun _ _ => .throw he
    · exact send _

theorem attempt_throws (inTransaction : Bool) (sql : String) :
    Throws Fault.IsTrouble db (attempt inTransaction sql) := by
  refine (request_throws inTransaction sql).outcome_bind (fun _ => .pure _) fun e he => ?_
  cases e
  case engine text =>
    cases inTransaction with
    | false => exact (Talk.send_throws (fun t => ⟨t, rfl⟩) _).bind fun _ => .pure _
    | true => exact .pure _
  all_goals exact .throw he

theorem judge_throws (job : Job) (s : Statement) : Throws Fault.IsTrouble db (judge job s) := by
  unfold judge
  split
  · exact .pure _
  · cases job.denial? s with
    | some reason => exact .pure _
    | none =>
      refine (attempt_throws _ _).bind fun r => ?_
      cases r <;> exact .pure _

end Throws

/-- Only trouble with the database ends a restore before its session is put back. -/
theorem restoreScript_throws (statements : List Statement) :
    Throws Fault.IsTrouble job (restoreScript statements) := by
  have hpass (total done : Nat) (statements : List Statement) :
      Throws Fault.IsTrouble job (pass total done statements) := by
    induction statements generalizing done with
    | nil => exact .pure _
    | cons s rest ih =>
      have hperform : Throws Fault.IsTrouble job (perform s) :=
        .read_bind <| (Throws.within (judge_throws job s)).bind fun _ =>
          (Throws.modify _).bind fun _ => .pure _
      unfold pass
      refine .read_bind <| hperform.bind fun failed => ?_
      split
      · exact (Throws.modify _).bind fun _ => .pure _
      · dsimp only
        split
        · exact (Throws.modify _).bind fun _ => ih _
        · exact ih _
  have hreplay (s : Statement) : Throws Fault.IsTrouble job (replay s) := by
    refine .read_bind <| (Throws.within ((attempt_throws _ _).bind fun _ => .pure _)).bind
      fun r => ?_
    cases r <;> exact .modify _
  have hasked : Throws Fault.IsTrouble job (replayIfAsked statements) := by
    refine .read_bind <| (Throws.modify _).bind fun _ => ?_
    split
    · exact .read_bind <| .forM fun s _ => hreplay s
    · exact .pure _
  have hprepare : Throws Fault.IsTrouble job (talk (prepareSession job)) :=
    .within <| .forM fun _ _ => (attempt_throws _ _).bind fun _ => .pure _
  refine (Throws.modify _).bind fun _ => .read_bind <| hprepare.bind fun _ => ?_
  refine (hpass _ _ _).bind fun stopped => ?_
  cases stopped with
  | some s => exact .pure _
  | none => exact hasked.bind fun _ => .pure _

theorem restoreScript_exposed (statements : List Statement) :
    Exposed job (restoreScript statements) := by
  have hasked : Exposed job (replayIfAsked statements) := by
    refine .read_bind <| (report_exposed _ _).bind fun _ => ?_
    split
    · exact replaySequences_exposed statements
    · exact .pure _
  refine (report_exposed _ _).bind fun _ => .read_bind ?_
  refine (talk_exposed (prepareSession_exposes job)).bind fun _ => ?_
  refine (pass_exposed _ _ _).bind fun stopped => ?_
  cases stopped with
  | some s => exact .pure _
  | none => exact hasked.bind fun _ => .pure _

/-- A pass over the script that stops does so at a statement that failed. -/
theorem pass_stopped_iff {total done : Nat} {run run' : Run} {stopped : Option Statement}
    (h : (pass total done statements).result job run = (.ok stopped, run')) :
    stopped = none ↔ (job.options.stopOnError = true →
      ∀ v ∈ job.verdictsFrom statements run.log, v.isFailed = false) := by
  induction statements generalizing done run with
  | nil =>
    cases h
    simp [Job.verdictsFrom]
  | cons s rest ih =>
    rw [result_pass_cons] at h
    rw [Job.verdictsFrom]
    cases hj : (judge job s).result job.database run.log with
    | mk outcome log =>
      rw [hj] at h
      cases outcome with
      | error e => cases h
      | ok v =>
        dsimp only at h ⊢
        by_cases hstop : (v.isFailed && job.options.stopOnError) = true
        · rw [if_pos hstop] at h ⊢
          cases h
          rw [Bool.and_eq_true] at hstop
          simp [hstop.1, hstop.2]
        · rw [if_neg hstop] at h ⊢
          rw [ih h]
          have hv : job.options.stopOnError = true → v.isFailed = false := by
            intro hopt
            simpa [hopt] using hstop
          constructor
          · exact fun hall hopt => List.forall_mem_cons.2 ⟨hv hopt, hall hopt⟩
          · exact fun hall hopt => (List.forall_mem_cons.1 (hall hopt)).2

structure Job.Opens (job : Job) : Prop where
  connected : job.database.refuses [] .connect = none
  begun : job.options.inTransaction = true → job.database.refuses [.connect] .start = none

def Job.openingLog (job : Job) : Log :=
  if job.options.inTransaction then [.connect, .start] else [.connect]

def Job.scripted (job : Job) (statements : List Statement) :
    Except Fault (Option Statement) × Run :=
  (restoreScript statements).result job
    { ({} : Run).expecting job statements with log := job.openingLog }

/-- Whether a restore comes to the end of its script: no failed statement stops it, and no trouble
that is not caught ends it. -/
structure Finishes (job : Job) (statements : List Statement) : Prop where
  unstopped : job.options.stopOnError = true →
    ∀ v ∈ job.verdicts statements, v.isFailed = false
  unbreached : ¬Breached job.database (job.scripted statements).2.log

theorem Job.Opens.not_breached (h : job.Opens) : ¬Breached job.database job.openingLog := by
  have hconnect : ¬Breached job.database [.connect] := by
    rw [← List.nil_append [Request.connect], breached_snoc]
    rintro (hnil | ⟨t, ht, -⟩)
    · exact not_breached_nil _ hnil
    · rw [h.connected] at ht
      cases ht
  unfold Job.openingLog
  split
  · next hjob =>
    change ¬Breached job.database ([.connect] ++ [.start])
    rw [breached_snoc]
    rintro (h' | ⟨t, ht, -⟩)
    · exact hconnect h'
    · rw [h.begun hjob] at ht
      cases ht
  · exact hconnect

theorem Job.Opens.verdicts_eq (h : job.Opens) (statements : List Statement) :
    job.verdicts statements =
      job.verdictsAfter (prepareSession job) statements job.openingLog := by
  unfold Job.verdicts Job.opening Job.openingLog
  rw [verdictsAfter_send, if_pos h.connected]
  split
  · next hjob =>
    rw [verdictsAfter_send]
    exact if_pos (h.begun hjob)
  · rfl

/-- A script that does not fail is passed over. -/
theorem pass_of_restoreScript {run run' : Run} {stopped : Option Statement}
    (h : (restoreScript statements).result job run = (.ok stopped, run')) :
    ∃ log reports run₁, (prepareSession job).result job.database run.log = (.ok (), log) ∧
      (pass statements.length 0 statements).result job { run with log, reports } =
        (.ok stopped, run₁) := by
  unfold restoreScript report talk at h
  rw [result_bind, result_modify] at h
  dsimp only at h
  rw [result_read_bind, result_bind, result_within] at h
  cases hprepare : (prepareSession job).result job.database run.log with
  | mk prepared log =>
    rw [hprepare] at h
    cases prepared with
    | error e => cases h
    | ok _ =>
      dsimp only at h
      rw [result_bind] at h
      let reports := run.reports ++
        [.restoring 15 "Preparing database session" run.tally.executed run.tally.failed]
      cases hpass : (pass statements.length 0 statements).result job { run with log, reports } with
      | mk r run₁ =>
        rw [hpass] at h
        refine ⟨log, reports, run₁, rfl, hpass.trans ?_⟩
        cases r with
        | error e => cases h
        | ok stopped' =>
          cases stopped' with
          | some s =>
            cases h
            rfl
          | none =>
            obtain ⟨_, _, _, h⟩ := exists_of_result_bind_eq_ok h
            cases h
            rfl

theorem finishes_iff (h : job.Opens) :
    Finishes job statements ↔ (job.scripted statements).1 = .ok none := by
  have hexposed := @restoreScript_exposed job statements
    { ({} : Run).expecting job statements with log := job.openingLog }
  have hthrows := @restoreScript_throws job statements
    { ({} : Run).expecting job statements with log := job.openingLog }
  have hstopped {stopped : Option Statement} (hr : (job.scripted statements).1 = .ok stopped) :
      stopped = none ↔ (job.options.stopOnError = true →
        ∀ v ∈ job.verdicts statements, v.isFailed = false) := by
    obtain ⟨log, reports, run₁, hprepare, hpass⟩ :=
      pass_of_restoreScript (Prod.ext hr rfl : job.scripted statements = (.ok stopped, _))
    rw [pass_stopped_iff hpass, h.verdicts_eq, Job.verdictsAfter]
    dsimp only at hprepare
    rw [hprepare]
  constructor
  · rintro ⟨hunstopped, hunbreached⟩
    cases hr : (job.scripted statements).1 with
    | error e => exact absurd (hexposed.2 (.inr ⟨e, hr, (hthrows e hr).escapes⟩)) hunbreached
    | ok stopped => rw [(hstopped hr).2 hunstopped]
  · intro hr
    refine ⟨(hstopped hr).1 rfl, fun hbreached => ?_⟩
    rcases hexposed.1 hbreached with hopening | ⟨e, he, -⟩
    · exact h.not_breached hopening
    · rw [← Job.scripted, hr] at he
      cases he

/-! ## The whole restore -/

/-- Behind the requests `before` and before the connection is closed, every setting of the session
is put back. -/
def PutBack (job : Job) (before log : Log) : Prop :=
  ∃ back, log = before ++ back ++ [.close] ∧ ∀ sql ∈ job.session.teardown, .exec sql ∈ back

open Session in
theorem Session.nodup_teardown (d : Dialect) (o : RestoreOptions) :
    (Session.plan d o).teardown.Nodup := by
  cases d with
  | mysql =>
    have h : ∀ a b, (((only a mysqlForeignKeys).join (only b mysqlUniqueChecks)).join
        mysqlModes).teardown.Nodup := by decide
    exact h _ _
  | postgresql =>
    have h : ∀ a, (only a postgresqlTriggers).teardown.Nodup := by decide
    exact h _
  | sqlite =>
    have h : ∀ a b, (only a (if b = true then sqliteDeferral else
        sqliteForeignKeys)).teardown.Nodup := by decide
    exact h _ _

theorem log_inTransaction_of_opens (h : job.Opens) {run run₁ : Run} (hrun : run.log = [])
    {r : Except Fault (Option Statement)}
    (hwork : (inTransaction (body statements)).result job (run.logged .connect) = (r, run₁)) :
    ∃ tail, (run₁.logged .close).log =
        ((body statements).result job { run with log := job.openingLog }).2.log ++ tail ++
          [.close] ∧
      ∀ sql, .exec sql ∉ tail := by
  have hconnect : run.logged .connect = { run with log := [.connect] } := by
    rw [Run.logged, hrun]
    rfl
  rw [hconnect] at hwork
  unfold Job.openingLog
  cases hjob : job.options.inTransaction with
  | false =>
    rw [result_inTransaction_of_not hjob] at hwork
    rw [if_neg (by simp), hwork]
    exact ⟨[], by simp [Run.logged], by simp⟩
  | true =>
    rw [if_pos rfl]
    have hb := @inTransaction_bracketed job (body statements) { run with log := [.connect] } hjob
    rw [hwork] at hb
    dsimp only at hb
    have hstart : ({ run with log := [.connect] } : Run).logged .start =
        { run with log := [.connect, .start] } := rfl
    cases hb with
    | unbegun e hstart => exact absurd (h.begun hjob) hstart
    | committed _ hbody _ =>
      rw [hstart] at hbody
      exact ⟨[.commit], by simp [Run.logged, hbody], by simp⟩
    | @uncommitted run₁ _ e _ hbody _ hend =>
      rw [hstart] at hbody
      obtain ⟨back, hback, hlog⟩ := (run₁.logged .commit).exists_log_retracted job
      refine ⟨.commit :: back, ?_, by rcases hback with rfl | rfl <;> simp⟩
      rw [Run.logged, hend, hlog, hbody]
      simp [Run.logged]
    | stopped _ hbody _ =>
      rw [hstart] at hbody
      exact ⟨[.rollback], by simp [Run.logged, hbody], by simp⟩
    | @failed run₁ _ _ _ _ hbody hend =>
      rw [hstart] at hbody
      obtain ⟨back, hback, hlog⟩ := run₁.exists_log_retracted job
      refine ⟨back, ?_, by rcases hback with rfl | rfl <;> simp⟩
      rw [Run.logged, hend, hlog, hbody]

/-- What is asked behind the work on an open connection ends the transaction and closes the
connection. -/
theorem log_execute_of_opens (h : job.Opens) {run : Run} (hrun : run.log = []) :
    ∃ tail, ((execute statements).result job run).2.log =
        ((body statements).result job { run with log := job.openingLog }).2.log ++ tail ++
          [.close] ∧
      ∀ sql, .exec sql ∉ tail := by
  have he := @execute_executed job statements run
  generalize (execute statements).result job run = ended at he
  obtain ⟨r, run'⟩ := ended
  cases he with
  | unconnected f hrefused =>
    rw [hrun] at hrefused
    exact absurd h.connected hrefused
  | closed _ hwork => exact log_inTransaction_of_opens h hrun hwork
  | unclosed t _ hwork => exact log_inTransaction_of_opens h hrun hwork

/-- A restore puts its session back exactly if it comes to the end of its script and no setting but
the last is refused, unless there is nothing to put back. -/
theorem putBack_iff (hne : statements ≠ []) (hopens : job.Opens)
    (hplain : job.options.inTransaction = true → job.database.dialect ≠ .postgresql) :
    PutBack job (job.scripted statements).2.log ((runStatements statements).result job {}).2.log ↔
      job.session.teardown = [] ∨ (Finishes job statements ∧
        ∃ run, (restoreSettings job.session.teardown.dropLast).result job
          (job.scripted statements).2 = (.ok (), run)) := by
  have hnodup : job.session.teardown.Nodup := Session.nodup_teardown _ _
  have hbody : (body statements).result job
      { ({} : Run).expecting job statements with log := job.openingLog } =
        match job.scripted statements with
        | (.ok none, run₁) => (((restoreSettings job.session.teardown).result job run₁).1.map
            fun _ => none, ((restoreSettings job.session.teardown).result job run₁).2)
        | (r, run₁) => (r, run₁) :=
    result_body_eq statements _
  obtain ⟨tail, hlog, htail⟩ :=
    @log_execute_of_opens job statements hopens (({} : Run).expecting job statements) rfl
  rw [finishes_iff hopens, log_runStatements hne, hlog, hbody]
  -- Where the script does not come to its end, nothing is run after it.
  have hunsettled {before : Log} : PutBack job before (before ++ tail ++ [.close]) ↔
      job.session.teardown = [] := by
    constructor
    · rintro ⟨back, hback, hall⟩
      rw [List.append_cancel_right_eq, List.append_cancel_left_eq] at hback
      subst hback
      exact List.eq_nil_iff_forall_not_mem.2 fun sql hsql => htail sql (hall sql hsql)
    · exact fun hnil => ⟨tail, rfl, by simp [hnil]⟩
  generalize job.scripted statements = scripted
  obtain ⟨r, run₁⟩ := scripted
  cases r with
  | error e => simpa using hunsettled
  | ok stopped =>
    cases stopped with
    | some s => simpa using hunsettled
    | none =>
      obtain ⟨new, hnew, hiff⟩ := restoreSettings_asks hplain hnodup run₁
      have hall : PutBack job run₁.log (((restoreSettings job.session.teardown).result job
          run₁).2.log ++ tail ++ [.close]) ↔ ∀ sql ∈ job.session.teardown, .exec sql ∈ new := by
        rw [hnew]
        constructor
        · rintro ⟨back, hback, hall⟩ sql hsql
          rw [List.append_cancel_right_eq, List.append_assoc, List.append_cancel_left_eq] at hback
          exact (List.mem_append.1 (hback ▸ hall sql hsql)).resolve_right (htail sql)
        · exact fun hall => ⟨new ++ tail, by simp, fun sql hsql =>
            List.mem_append_left _ (hall sql hsql)⟩
      dsimp only
      rw [hall, hiff]
      simp only [true_and]
      refine (or_iff_right_of_imp fun hnil => ?_).symm
      rw [hnil]
      exact ⟨run₁, rfl⟩

def Job.refused (stopOnError : Bool) : Job where
  database := .refusing .sqlite fun _ r =>
    if r = .exec "INSERT INTO t VALUES (1)" then some (.engine "no such table: t") else none
  options := { inTransaction := false, stopOnError }

/-- The session is put back although a statement failed, if that does not stop the restore. -/
theorem refused_putBack :
    let job := Job.refused false
    let statements := [Statement.plain 0 "INSERT INTO t VALUES (1)"]
    job.Opens ∧ job.session.teardown = ["PRAGMA foreign_keys = ON"] ∧
      PutBack job (job.scripted statements).2.log
        ((runStatements statements).result job {}).2.log := by
  intro job statements
  have hopens : job.Opens := ⟨rfl, fun h => absurd h (by decide)⟩
  have hfinishes : Finishes job statements := by
    refine ⟨fun h => absurd h (by decide), ?_⟩
    rintro ⟨i, r, t, -, hrefuses, hescapes⟩
    change (if r = .exec "INSERT INTO t VALUES (1)" then some (Trouble.engine "no such table: t")
      else none) = some t at hrefuses
    split at hrefuses
    · next hr =>
      cases hrefuses
      rw [hr] at hescapes
      cases hescapes
    · cases hrefuses
  refine ⟨hopens, rfl, (putBack_iff (List.cons_ne_nil _ _) hopens (fun _ => by decide)).2 ?_⟩
  exact .inr ⟨hfinishes, _, rfl⟩

/-- A session whose settings outlive the transaction is not always put back, even where only
statements of the script are refused. -/
theorem not_putBack : ¬∀ (job : Job) (statements : List Statement), statements ≠ [] →
    (job.database.dialect = .mysql ∨
      job.database.dialect = .sqlite ∧ job.options.inTransaction = false) →
    (∀ log r t, job.database.refuses log r = some t →
      ∃ s ∈ statements, r = .exec s.text ∧ s.text ∉ job.session.teardown ∧
        ∃ text, t = .engine text) →
    PutBack job (job.scripted statements).2.log
      ((runStatements statements).result job {}).2.log := by
  intro h
  have hrefuses : ∀ log r t, (Job.refused true).database.refuses log r = some t →
      ∃ s ∈ [Statement.plain 0 "INSERT INTO t VALUES (1)"], r = .exec s.text ∧
        s.text ∉ (Job.refused true).session.teardown ∧ ∃ text, t = .engine text := by
    intro log r t ht
    change (if r = .exec "INSERT INTO t VALUES (1)" then some (Trouble.engine "no such table: t")
      else none) = some t at ht
    split at ht
    · next hr =>
      cases ht
      exact ⟨_, List.mem_singleton_self _, hr, by decide, _, rfl⟩
    · cases ht
  obtain ⟨back, hlog, hback⟩ := h (.refused true) [.plain 0 "INSERT INTO t VALUES (1)"]
    (List.cons_ne_nil _ _) (.inr ⟨rfl, rfl⟩) hrefuses
  have hwhole : ((runStatements [.plain 0 "INSERT INTO t VALUES (1)"]).result
      (.refused true) {}).2.log = ((Job.refused true).scripted
        [.plain 0 "INSERT INTO t VALUES (1)"]).2.log ++ [.close] := by
    decide +kernel
  rw [hwhole, List.append_cancel_right_eq] at hlog
  cases List.self_eq_append_right.1 hlog
  exact absurd (hback "PRAGMA foreign_keys = ON" (by decide)) List.not_mem_nil

end SqlFerry.Restore
