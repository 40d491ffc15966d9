import SqlFerry.Proofs.Restore.Result

/-!
# Restores account for every statement

The statements of a script are judged one by one, up to the one at which the restore stops or
fails. The tally of a restore reflects the verdicts, and counts the statements without a verdict as
skipped.
-/

namespace SqlFerry.Restore

open Work Restoring

variable {job : Job}

/-! ## Verdicts -/

def Verdict.failure? (v : Verdict) (s : Statement) : Option FailedStatement :=
  match v with
  | failed message => some { index := s.index, preview := s.preview, message }
  | unwanted | done => none

namespace Job

variable (job : Job)

/-- The verdicts on statements in their order, up to the one at which the restore stops. -/
def verdictsFrom : List Statement → Log → List Verdict
  | [], _ => []
  | s :: rest, log =>
    match (judge job s).result job.database log with
    | (.ok v, log) =>
      if v.isFailed && job.options.stopOnError then [v] else v :: verdictsFrom rest log
    | (.error _, _) => []

def verdictsAfter (t : Talk Unit) (statements : List Statement) (log : Log) : List Verdict :=
  match t.result job.database log with
  | (.ok _, log) => job.verdictsFrom statements log
  | (.error _, _) => []

def opening : Talk Unit := do
  if job.options.inTransaction then Talk.send .start
  prepareSession job

def verdicts (statements : List Statement) : List Verdict :=
  job.verdictsAfter (Talk.send .connect >>= fun _ => job.opening) statements []

end Job

def failuresAmong (judged : List (Statement × Verdict)) : List FailedStatement :=
  judged.filterMap fun j => j.2.failure? j.1

theorem failuresAmong_append (judged judged' : List (Statement × Verdict)) :
    failuresAmong (judged ++ judged') = failuresAmong judged ++ failuresAmong judged' :=
  List.filterMap_append

@[simp]
theorem failuresAmong_singleton (s : Statement) (v : Verdict) :
    failuresAmong [(s, v)] = (v.failure? s).toList := by
  cases v <;> rfl

theorem verdictsAfter_send (r : Request) (t : Talk Unit) (statements : List Statement) (log : Log) :
    job.verdictsAfter (Talk.send r >>= fun _ => t) statements log =
      if job.database.refuses log r = none then job.verdictsAfter t statements (log ++ [r])
      else [] := by
  unfold Job.verdictsAfter
  rw [result_bind, Talk.result_send]
  cases job.database.refuses log r with
  | none => rfl
  | some t => rfl

/-! ## What the tally reflects -/

/-- The tally of a restore of `n` statements, with room for `room` failures, counts and records the
judged statements, and counts `passed` others as skipped. -/
structure Reflects (n room : Nat) (judged : List (Statement × Verdict)) (passed : Nat)
    (t : Tally) : Prop where
  total : t.total = n
  limit : t.limit = room
  executed : t.executed = judged.countP (·.2 = .done)
  skipped : t.skipped = judged.countP (·.2 = .unwanted) + passed
  failed : t.failed = (failuresAmong judged).length
  recorded : t.failures = (failuresAmong judged).take room
  unrecorded : t.unrecorded = ((failuresAmong judged).length - room : Nat)

namespace Reflects

variable {n room passed : Nat} {judged : List (Statement × Verdict)} {t : Tally}

theorem expecting (ht : t = { limit := t.limit }) : Reflects n room [] 0 (t.expecting n room) := by
  rw [ht]
  constructor <;> simp [Tally.expecting, failuresAmong]

/-- Each judged statement is counted once. -/
theorem counted (judged : List (Statement × Verdict)) :
    judged.countP (·.2 = .done) + judged.countP (·.2 = .unwanted) +
      (failuresAmong judged).length = judged.length := by
  induction judged with
  | nil => rfl
  | cons j judged ih =>
    obtain ⟨s, v⟩ := j
    rw [← List.singleton_append, failuresAmong_append, failuresAmong_singleton, List.countP_append,
      List.countP_append, List.length_append, List.length_append, ← ih]
    cases v <;> simp [Verdict.failure?] <;> omega

theorem accounted (h : Reflects n room judged passed t) :
    t.accounted = judged.length + passed := by
  have hcounted := counted judged
  rw [Tally.accounted, h.executed, h.failed, h.skipped]
  omega

theorem aside {t' : Tally} (h : Reflects n room judged passed t) (ht : t.Aside t') :
    Reflects n room judged passed t' := by
  obtain ⟨reset, failed, rfl⟩ := ht
  exact ⟨h.total, h.limit, h.executed, h.skipped, h.failed, h.recorded, h.unrecorded⟩

theorem skip (h : Reflects n room judged passed t) (more : Nat) :
    Reflects n room judged (passed + more) { t with skipped := t.skipped + more } := by
  refine ⟨h.total, h.limit, h.executed, ?_, h.failed, h.recorded, h.unrecorded⟩
  have hskipped := h.skipped
  dsimp only
  omega

theorem settle (h : Reflects n room judged passed t) (hle : judged.length + passed ≤ n) :
    Reflects n room judged (n - judged.length) t.settle := by
  have hsettle := h.skip (t.total - t.accounted).toNat
  have hpassed : passed + (t.total - t.accounted).toNat = n - judged.length := by
    rw [h.total, h.accounted]
    omega
  rwa [hpassed] at hsettle

theorem recordFailure (h : Reflects n room judged 0 t) (s : Statement) (message : String) :
    Reflects n room (judged ++ [(s, .failed message)]) 0
      ((Verdict.failed message).tally s t) := by
  have hlength : t.failures.length = min room (failuresAmong judged).length := by
    rw [h.recorded, List.length_take]
  have hlimit := h.limit
  have hfailed := h.failed
  have hunrecorded := h.unrecorded
  have happend : failuresAmong (judged ++ [(s, .failed message)]) =
      failuresAmong judged ++ [{ index := s.index, preview := s.preview, message }] := by
    simp [failuresAmong, Verdict.failure?]
  unfold Verdict.tally Tally.recordFailure
  dsimp only
  split
  · refine ⟨h.total, h.limit, by simp [h.executed], by simp [h.skipped], ?_, ?_, ?_⟩
    · rw [happend, List.length_append]
      simp [hfailed]
    · have hle : (failuresAmong judged).length + 1 ≤ room := by omega
      rw [happend, List.take_of_length_le (by simpa using hle), h.recorded,
        List.take_of_length_le (by omega)]
    · rw [happend, List.length_append]
      simp only [List.length_singleton]
      omega
  · refine ⟨h.total, h.limit, by simp [h.executed], by simp [h.skipped], ?_, ?_, ?_⟩
    · rw [happend, List.length_append]
      simp [hfailed]
    · rw [happend, List.take_append_of_le_length (by omega)]
      exact h.recorded
    · rw [happend, List.length_append]
      simp only [List.length_singleton]
      omega

/-- Counting one more verdict. -/
theorem tally (h : Reflects n room judged 0 t) (s : Statement) (v : Verdict) :
    Reflects n room (judged ++ [(s, v)]) 0 (v.tally s t) := by
  cases v with
  | failed message => exact h.recordFailure s message
  | unwanted | done =>
    refine ⟨h.total, h.limit, ?_, ?_, ?_, ?_, ?_⟩
    · simp [Verdict.tally, h.executed]
    · simp [Verdict.tally, h.skipped]
    · simp [Verdict.tally, failuresAmong, Verdict.failure?, h.failed]
    · simp [Verdict.tally, failuresAmong, Verdict.failure?, h.recorded]
    · simp [Verdict.tally, failuresAmong, Verdict.failure?, h.unrecorded]

end Reflects

/-! ## The tally of a run -/

/-- The tally reflects what was judged before and the verdicts on `statements`. It accounts for all
of them unless the work on them, which came to `r`, failed. -/
def Shows (n room : Nat) (judged : List (Statement × Verdict)) (statements : List Statement)
    (verdicts : List Verdict) (r : Except Fault (Option Statement)) (t : Tally) : Prop :=
  ∃ passed, Reflects n room (judged ++ statements.zip verdicts) passed t ∧
    (statements.zip verdicts).length + passed ≤ statements.length ∧
    ∀ stopped, r = .ok stopped → (statements.zip verdicts).length + passed = statements.length

namespace Shows

variable {n room : Nat} {judged : List (Statement × Verdict)} {statements : List Statement}
  {verdicts : List Verdict} {r : Except Fault (Option Statement)} {t : Tally}

theorem error (h : Reflects n room judged 0 t) (statements : List Statement) (e : Fault) :
    Shows n room judged statements [] (.error e) t :=
  ⟨0, by simpa using h, by simp, by simp⟩

theorem cons {s : Statement} {v : Verdict}
    (h : Shows n room (judged ++ [(s, v)]) statements verdicts r t) :
    Shows n room judged (s :: statements) (v :: verdicts) r t := by
  obtain ⟨passed, hreflects, hle, heq⟩ := h
  refine ⟨passed, by simpa using hreflects, ?_, fun stopped hr => ?_⟩
  · rw [List.zip_cons_cons, List.length_cons, List.length_cons]
    omega
  · have := heq stopped hr
    rw [List.zip_cons_cons, List.length_cons, List.length_cons]
    omega

/-- Steps that count no statement change nothing, and neither does a failure after the work. -/
theorem aside {t' : Tally} {r' : Except Fault (Option Statement)}
    (h : Shows n room judged statements verdicts r t) (ht : t.Aside t')
    (hr : r' = r ∨ ∃ e, r' = .error e) : Shows n room judged statements verdicts r' t' := by
  obtain ⟨passed, hreflects, hle, heq⟩ := h
  refine ⟨passed, hreflects.aside ht, hle, fun stopped hr' => ?_⟩
  rcases hr with rfl | ⟨e, rfl⟩
  · exact heq stopped hr'
  · cases hr'

end Shows

/-- The pass over the script counts one verdict after the other, and when it stops, it counts the
statements that are left as skipped. -/
theorem pass_shows {n room : Nat} (total : Nat) (statements : List Statement) (done : Nat)
    {judged : List (Statement × Verdict)} {run run' : Run} {r : Except Fault (Option Statement)}
    (h : (pass total done statements).result job run = (r, run'))
    (hrun : Reflects n room judged 0 run.tally) :
    Shows n room judged statements (job.verdictsFrom statements run.log) r run'.tally := by
  induction statements generalizing done judged run with
  | nil =>
    cases h
    exact ⟨0, by simpa using hrun, by simp, by simp⟩
  | cons s rest ih =>
    rw [result_pass_cons] at h
    rw [Job.verdictsFrom]
    cases hj : (judge job s).result job.database run.log with
    | mk outcome log =>
      rw [hj] at h
      cases outcome with
      | error e =>
        cases h
        exact .error hrun _ e
      | ok v =>
        dsimp only at h ⊢
        have hv := hrun.tally s v
        by_cases hstop : (v.isFailed && job.options.stopOnError) = true
        · rw [if_pos hstop] at h ⊢
          cases h
          have hskip := hv.skip rest.length
          rw [Nat.zero_add] at hskip
          exact .cons ⟨rest.length, by simpa using hskip, by simp, by simp⟩
        · rw [if_neg hstop] at h ⊢
          exact (ih (done + 1) h hv).cons

theorem finalize_aside (statements : List Statement) (run : Run) :
    run.tally.Aside ((finalize statements).result job run).2.tally := by
  have hsteps : Follows (Step (fun _ => True) Tally.Aside) job (finalize statements) :=
    finalize_follows (fun _ _ => trivial) (fun _ _ => trivial) fun _ _ _ => trivial
  refine @Follows.keeps _ _ _ _ _ _ (fun run' => run.tally.Aside run'.tally) hsteps ?_ _ (.refl _)
  intro run₁ run₂ hstep hrun
  cases hstep with
  | request _ => exact hrun
  | report _ => exact hrun
  | count h => exact hrun.trans h

section Execution

variable {n room : Nat} {statements : List Statement} {run run' : Run}
  {r : Except Fault (Option Statement)}

theorem body_shows (h : (body statements).result job run = (r, run'))
    (hrun : Reflects n room [] 0 run.tally) :
    Shows n room [] statements (job.verdictsAfter (prepareSession job) statements run.log) r
      run'.tally := by
  rw [result_body] at h
  dsimp only at h
  unfold Job.verdictsAfter
  cases hprepare : (prepareSession job).result job.database run.log with
  | mk prepared log =>
    rw [hprepare] at h
    cases prepared with
    | error e =>
      cases h
      exact .error hrun _ e
    | ok _ =>
      dsimp only at h ⊢
      cases hpass : (pass statements.length 0 statements).result job
          { run.reported 15 "Preparing database session" with log } with
      | mk r₁ run₁ =>
        have hshows := pass_shows _ _ _ hpass hrun
        rw [hpass] at h
        cases r₁ with
        | error e =>
          cases h
          exact hshows
        | ok stopped =>
          cases stopped with
          | some s =>
            cases h
            exact hshows
          | none =>
            have haside := @finalize_aside job statements run₁
            cases h
            refine hshows.aside haside ?_
            cases ((finalize statements).result job run₁).1 with
            | error e => exact .inr ⟨e, rfl⟩
            | ok _ => exact .inl rfl

theorem inTransaction_shows (h : (inTransaction (body statements)).result job run = (r, run'))
    (hrun : Reflects n room [] 0 run.tally) :
    Shows n room [] statements (job.verdictsAfter job.opening statements run.log) r
      run'.tally := by
  unfold Job.opening
  cases hjob : job.options.inTransaction with
  | false =>
    rw [result_inTransaction_of_not hjob] at h
    exact body_shows h hrun
  | true =>
    simp only [if_true]
    rw [verdictsAfter_send]
    have hb := @inTransaction_bracketed job (body statements) run hjob
    rw [h] at hb
    dsimp only at hb
    cases hb with
    | unbegun e hstart =>
      rw [if_neg hstart]
      exact .error hrun _ e
    | committed hstart hwork hcommit =>
      rw [if_pos hstart]
      exact body_shows hwork hrun
    | uncommitted e hstart hwork hcommit hend =>
      rw [if_pos hstart, hend, Run.tally_retracted]
      exact (body_shows hwork hrun).aside (.refl _) (.inr ⟨e, rfl⟩)
    | stopped hstart hwork hr =>
      rw [if_pos hstart]
      exact (body_shows hwork hrun).aside (.refl _) hr
    | failed hstart hwork hend =>
      rw [if_pos hstart, hend, Run.tally_retracted]
      exact (body_shows hwork hrun).aside (.refl _) (.inr ⟨_, rfl⟩)

theorem Executed.shows_from (h : Executed job statements run r run')
    (hrun : Reflects n room [] 0 run.tally) (hr : ∀ t : Trouble, r ≠ .error t.fault) :
    Shows n room [] statements
      (job.verdictsAfter (Talk.send .connect >>= fun _ => job.opening) statements run.log) r
      run'.tally := by
  rw [verdictsAfter_send]
  cases h with
  | unconnected f hconnect =>
    rw [if_neg hconnect]
    exact .error hrun _ _
  | closed hconnect hwork =>
    rw [if_pos hconnect]
    exact inTransaction_shows hwork hrun
  | unclosed t _ _ => exact absurd rfl (hr t)

theorem Executed.shows (h : Executed job statements run r run') (hlog : run.log = [])
    (hrun : Reflects n room [] 0 run.tally) (hr : ∀ t : Trouble, r ≠ .error t.fault) :
    Shows n room [] statements (job.verdicts statements) r run'.tally := by
  have hshows := h.shows_from hrun hr
  rwa [hlog] at hshows

end Execution

/-! ## The tally of a result -/

/-- The tally of a restore accounts for all statements, and records the first statements that
failed, in the order of the script. -/
structure Accounted (job : Job) (statements : List Statement) (t : Tally) : Prop where
  total : t.total = statements.length
  accounted : t.executed + t.failed + t.skipped = t.total
  executed : t.executed = (job.verdicts statements).count .done
  failed : t.failed = (failuresAmong (statements.zip (job.verdicts statements))).length
  recorded : t.failures.length = min t.failed job.options.maxFailureRecords
  unrecorded : t.unrecorded = t.failed - t.failures.length
  first : t.failures = (failuresAmong (statements.zip (job.verdicts statements))).take
    t.failures.length

theorem verdictsFrom_length_le (statements : List Statement) (log : Log) :
    (job.verdictsFrom statements log).length ≤ statements.length := by
  induction statements generalizing log with
  | nil => simp [Job.verdictsFrom]
  | cons s rest ih =>
    rw [Job.verdictsFrom]
    split
    · next log' _ =>
      split
      · simp
      · simpa using ih log'
    · simp

theorem verdicts_length_le (statements : List Statement) :
    (job.verdicts statements).length ≤ statements.length := by
  unfold Job.verdicts Job.verdictsAfter
  split
  · exact verdictsFrom_length_le statements _
  · simp

theorem count_done (statements : List Statement) :
    (job.verdicts statements).count .done =
      (statements.zip (job.verdicts statements)).countP (·.2 = .done) := by
  have hsnd := List.map_snd_zip (@verdicts_length_le job statements)
  have hcount := congrArg (List.count Verdict.done) hsnd
  rw [List.count_eq_countP, List.countP_map] at hcount
  exact hcount.symm

theorem Reflects.accounts {statements : List Statement} {passed : Nat} {t : Tally}
    (h : Reflects statements.length job.options.maxFailureRecords
      (statements.zip (job.verdicts statements)) passed t)
    (hpassed : (statements.zip (job.verdicts statements)).length + passed = statements.length) :
    Accounted job statements t := by
  have hrecorded : t.failures.length = min job.options.maxFailureRecords
      (failuresAmong (statements.zip (job.verdicts statements))).length := by
    rw [h.recorded, List.length_take]
  have hfailed := h.failed
  have hunrecorded := h.unrecorded
  refine ⟨h.total, ?_, ?_, hfailed, ?_, ?_, ?_⟩
  · have haccounted := h.accounted
    rw [Tally.accounted] at haccounted
    rw [haccounted, h.total]
    omega
  · rw [h.executed, count_done]
  · omega
  · omega
  · rw [hrecorded, h.recorded]
    exact List.take_eq_take_min

theorem Returns.accounts {statements : List Statement} {run : Run} {success : Bool} {t : Tally}
    {log : Log} (h : Returns job statements run success t log) (hlog : run.log = [])
    (hrun : run.tally = { limit := run.tally.limit }) : Accounted job statements t := by
  have hbegin : Reflects statements.length job.options.maxFailureRecords [] 0
      (run.expecting job statements).tally := .expecting hrun
  cases h with
  | nothing h =>
    subst h
    exact hbegin.accounts rfl
  | complete _ h =>
    obtain ⟨passed, hreflects, _, heq⟩ := h.shows hlog hbegin (by simp)
    exact hreflects.accounts (heq _ rfl)
  | stopped _ h =>
    obtain ⟨passed, hreflects, _, heq⟩ := h.shows hlog hbegin (by simp)
    exact hreflects.accounts (heq _ rfl)
  | failed _ h =>
    obtain ⟨passed, hreflects, hle, _⟩ := h.shows hlog hbegin (error_failure_ne_fault _)
    exact (hreflects.settle hle).accounts (by rw [List.nil_append]; omega)

theorem Returns.total {statements : List Statement} {run : Run} {success : Bool} {t : Tally}
    {log : Log} (h : Returns job statements run success t log)
    (hrun : run.tally = { limit := run.tally.limit }) : t.total = statements.length := by
  have hbegin : Reflects statements.length job.options.maxFailureRecords [] 0
      (run.expecting job statements).tally := .expecting hrun
  cases h with
  | nothing _ => exact hbegin.total
  | complete _ h =>
    obtain ⟨_, hreflects, _⟩ := h.shows_from hbegin (by simp)
    exact hreflects.total
  | stopped _ h =>
    obtain ⟨_, hreflects, _⟩ := h.shows_from hbegin (by simp)
    exact hreflects.total
  | failed _ h =>
    obtain ⟨_, hreflects, _⟩ := h.shows_from hbegin (error_failure_ne_fault _)
    exact hreflects.total

/-! ## Scripts from files -/

def Job.script (job : Job) (files : Files) (p : Path) : List Statement :=
  match (Backup.text files p).bind job.parse with
  | .ok script => script.statements
  | .error _ => []

theorem result_prepare (files : Files) (p : Path) (run : Run) :
    ∃ reports, (prepare files p).result job run =
      ((Backup.text files p).bind job.parse, { run with reports }) := by
  unfold prepare report
  rw [result_read_bind, result_bind, result_modify]
  dsimp only
  rw [result_bind, result_ofOutcome]
  cases Backup.text files p with
  | error e => exact ⟨_, rfl⟩
  | ok text =>
    dsimp only
    rw [result_bind, result_modify]
    dsimp only
    rw [result_ofOutcome]
    exact ⟨_, rfl⟩

theorem run_accounts {files : Files} {p : Path} {r : Result} {last : Run}
    (h : (run files p).result job {} = (.ok r, last)) :
    Accounted job (job.script files p) r.tally := by
  unfold run count at h
  rw [result_read_bind, result_bind, result_modify] at h
  dsimp only at h
  rw [result_bind, result_outcome] at h
  let first : Run := { tally := { limit := job.options.maxFailureRecords } }
  obtain ⟨reports, hprepare⟩ := @result_prepare job files p first
  rw [hprepare] at h
  unfold Job.script
  cases hscript : (Backup.text files p).bind job.parse with
  | error e =>
    rw [hscript] at h
    cases e
    case failure f =>
      cases h
      have hbegin := @Reflects.expecting 0 job.options.maxFailureRecords {} rfl
      exact @Reflects.accounts job [] 0 _ hbegin rfl
    all_goals cases h
  | ok script =>
    rw [hscript] at h
    dsimp only at h ⊢
    rw [result_bind] at h
    cases hall : (runAll script.statements).result job { first with reports } with
    | mk outcome run₁ =>
      rw [hall] at h
      cases outcome with
      | error e => cases h
      | ok r₁ =>
        have haccounts := (runAll_returns hall).accounts rfl rfl
        cases h
        exact haccounts

/-- Whenever a restore returns a result, of statements or of a file, its tally accounts for all
statements that were to be run. -/
theorem results_accounted (job : Job) :
    (∀ (statements : List Statement) (r : Result) (last : Run),
      (runStatements statements).result job {} = (.ok r, last) →
        Accounted job statements r.tally) ∧
    (∀ (files : Files) (p : Path) (r : Result) (last : Run),
      (run files p).result job {} = (.ok r, last) →
        Accounted job (job.script files p) r.tally) :=
  ⟨fun _ _ _ h => (runStatements_returns h).accounts rfl rfl, fun _ _ _ _ h => run_accounts h⟩

theorem two_refusals_accounted :
    let refuses (_ : Log) (r : Request) : Option Trouble :=
      if r = .exec "a" then none else r.sql?.map fun _ => .engine "no"
    let job : Job :=
      { database := .refusing .sqlite refuses, options := { maxFailureRecords := 1 } }
    let files : Files := { contents := [({ parts := ["abc.sql"] }, Bytes.encode "a; b; c;")] }
    let statements : List Statement := [.plain 0 "a", .plain 1 "b", .plain 2 "c"]
    (∃ r last, (runStatements statements).result job {} = (.ok r, last) ∧
      (r.tally.failed, r.tally.unrecorded) = (2, 1) ∧ Accounted job statements r.tally) ∧
    (∃ r last, (run files { parts := ["abc.sql"] }).result job {} = (.ok r, last) ∧
      (r.tally.failed, r.tally.unrecorded) = (2, 1) ∧
      Accounted job (job.script files { parts := ["abc.sql"] }) r.tally) := by
  intro refuses job files statements
  constructor
  · have h : ((runStatements statements).result job {}).1.toOption.map
        (fun r => (r.tally.failed, r.tally.unrecorded)) = some (2, 1) := by
      decide +kernel
    obtain ⟨r, last, hr, htally⟩ := exists_ok_of_map_eq_some h
    exact ⟨r, last, hr, htally, (results_accounted job).1 _ _ _ hr⟩
  · have h : ((run files { parts := ["abc.sql"] }).result job {}).1.toOption.map
        (fun r => (r.tally.failed, r.tally.unrecorded)) = some (2, 1) := by
      decide +kernel
    obtain ⟨r, last, hr, htally⟩ := exists_ok_of_map_eq_some h
    exact ⟨r, last, hr, htally, (results_accounted job).2 _ _ _ _ hr⟩

end SqlFerry.Restore
