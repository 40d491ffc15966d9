import SqlFerry.Proofs.Restore.Result

/-!
# Denied statements

The pass over a script screens each statement before it is run, but the statements that set
sequences are run once more without a screen. So a denied statement reaches the database exactly if
it sets a sequence and the restore comes to set sequences.
-/

namespace SqlFerry.Restore

open Work Restoring

variable {job : Job} {statements : List Statement} {sql : String}

/-! ## What is run -/

def texts (log : Log) : List String :=
  log.filterMap fun
    | .exec sql => some sql
    | _ => none

theorem texts_append (log log' : Log) : texts (log ++ log') = texts log ++ texts log' :=
  List.filterMap_append

theorem mem_texts {log : Log} : sql ∈ texts log ↔ .exec sql ∈ log := by
  simp only [texts, List.mem_filterMap]
  constructor
  · rintro ⟨r, hr, h⟩
    cases r <;> simp at h
    exact h ▸ hr
  · intro h
    exact ⟨_, h, rfl⟩

theorem texts_logged {r : Request} (hr : ∀ sql, r ≠ .exec sql) (run : Run) :
    texts (run.logged r).log = texts run.log := by
  rw [Run.logged, texts_append]
  cases r with
  | exec sql => exact absurd rfl (hr sql)
  | _ => simp [texts]

theorem texts_retracted (run : Run) : texts (run.retracted job).log = texts run.log := by
  unfold Run.retracted
  split
  · exact texts_logged (by simp) run
  · rfl

/-- Work in a transaction runs what the work runs, unless the transaction is refused. -/
theorem texts_inTransaction (work : Restoring (Option Statement)) (run : Run) :
    (job.database.refuses run.log .start ≠ none ∧
      texts ((inTransaction work).result job run).2.log = texts run.log) ∨
    ∃ run₀, texts run₀.log = texts run.log ∧
      texts ((inTransaction work).result job run).2.log = texts (work.result job run₀).2.log := by
  cases hjob : job.options.inTransaction with
  | false => exact .inr ⟨run, rfl, by rw [result_inTransaction_of_not hjob]⟩
  | true =>
    have hstart : texts (run.logged .start).log = texts run.log := texts_logged (by simp) run
    have hb := @inTransaction_bracketed job work run hjob
    generalize (inTransaction work).result job run = final at hb
    obtain ⟨r, run'⟩ := final
    cases hb with
    | unbegun e h => exact .inl ⟨h, hstart⟩
    | @committed run₁ _ hwork _ =>
      refine .inr ⟨_, hstart, ?_⟩
      rw [hwork]
      exact texts_logged (by simp) run₁
    | @uncommitted run₁ _ e _ hwork _ hend =>
      refine .inr ⟨_, hstart, ?_⟩
      rw [hwork, hend]
      exact (texts_retracted (run₁.logged .commit)).trans (texts_logged (by simp) run₁)
    | @stopped run₁ _ _ _ hwork _ =>
      refine .inr ⟨_, hstart, ?_⟩
      rw [hwork]
      exact texts_logged (by simp) run₁
    | @failed run₁ _ _ _ _ hwork hend =>
      refine .inr ⟨_, hstart, ?_⟩
      rw [hwork, hend]
      exact texts_retracted run₁

theorem texts_execute (run : Run) :
    (∃ log r, job.database.refuses log r ≠ none ∧
      texts ((execute statements).result job run).2.log = texts run.log) ∨
    ∃ run₀, texts run₀.log = texts run.log ∧
      texts ((execute statements).result job run).2.log =
        texts ((body statements).result job run₀).2.log := by
  have hconnect : texts (run.logged .connect).log = texts run.log := texts_logged (by simp) run
  have worked {r : Except Fault (Option Statement)} {run₁ : Run}
      (hwork : (inTransaction (body statements)).result job (run.logged .connect) = (r, run₁)) :
      (∃ log r, job.database.refuses log r ≠ none ∧
        texts (run₁.logged .close).log = texts run.log) ∨
      ∃ run₀, texts run₀.log = texts run.log ∧ texts (run₁.logged .close).log =
        texts ((body statements).result job run₀).2.log := by
    have ht := @texts_inTransaction job (body statements) (run.logged .connect)
    rw [hwork, hconnect] at ht
    rw [texts_logged (by simp)]
    rcases ht with ⟨hr, htexts⟩ | hbody
    · exact .inl ⟨_, _, hr, htexts⟩
    · exact .inr hbody
  have he := @execute_executed job statements run
  generalize (execute statements).result job run = final at he
  obtain ⟨r, run'⟩ := final
  cases he with
  | unconnected f h => exact .inl ⟨_, _, h, hconnect⟩
  | closed _ hwork => exact worked hwork
  | unclosed t _ hwork => exact worked hwork

/-- A restore runs what its body runs, unless there is nothing to run or the database refuses
something before. -/
theorem texts_runStatements (statements : List Statement) :
    ((statements = [] ∨ ∃ log r, job.database.refuses log r ≠ none) ∧
      texts ((runStatements statements).result job {}).2.log = []) ∨
    ∃ run₀, texts run₀.log = [] ∧ texts ((runStatements statements).result job {}).2.log =
      texts ((body statements).result job run₀).2.log := by
  by_cases hne : statements = []
  · subst hne
    exact .inl ⟨.inl rfl, rfl⟩
  · rw [log_runStatements hne]
    rcases @texts_execute job statements (({} : Run).expecting job statements) with
      ⟨log, r, hr, htexts⟩ | hbody
    · exact .inl ⟨.inr ⟨log, r, hr⟩, htexts⟩
    · exact .inr hbody

/-! ## What can be run -/

namespace Session

def texts (s : Session) : List String :=
  s.setup ++ s.teardown

theorem append_subset_append {a a' b b' : List String} (h : a ⊆ b) (h' : a' ⊆ b') :
    a ++ a' ⊆ b ++ b' :=
  List.append_subset.2 ⟨List.subset_append_of_subset_left _ h,
    List.subset_append_of_subset_right _ h'⟩

structure Within (s t : Session) : Prop where
  setup : s.setup ⊆ t.setup
  teardown : s.teardown ⊆ t.teardown

namespace Within

variable {s s' t t' : Session}

theorem refl (s : Session) : s.Within s :=
  ⟨List.Subset.refl _, List.Subset.refl _⟩

theorem join (h : s.Within t) (h' : s'.Within t') : (s.join s').Within (t.join t') :=
  ⟨append_subset_append h.setup h'.setup, append_subset_append h.teardown h'.teardown⟩

theorem only (b : Bool) (h : s.Within t) : (only b s).Within t := by
  cases b with
  | false => exact ⟨List.nil_subset _, List.nil_subset _⟩
  | true => exact h

theorem texts (h : s.Within t) : s.texts ⊆ t.texts :=
  append_subset_append h.setup h.teardown

end Within

def widest : Dialect → Session
  | .mysql => (mysqlForeignKeys.join mysqlUniqueChecks).join mysqlModes
  | .postgresql => postgresqlTriggers
  | .sqlite => sqliteDeferral.join sqliteForeignKeys

theorem plan_within (d : Dialect) (o : RestoreOptions) : (plan d o).Within (widest d) := by
  cases d with
  | mysql => exact (((Within.refl _).only _).join ((Within.refl _).only _)).join (.refl _)
  | postgresql => exact (Within.refl _).only _
  | sqlite =>
    refine Within.only _ ?_
    cases o.inTransaction with
    | false => exact ⟨List.subset_append_right _ _, List.subset_append_right _ _⟩
    | true => exact ⟨List.subset_append_left _ _, List.subset_append_left _ _⟩

theorem widest_allowed (d : Dialect) : ∀ sql ∈ (widest d).texts, denied? sql = none := by
  cases d <;> decide +kernel

/-- No statement of a session is denied. -/
theorem plan_allowed (d : Dialect) (o : RestoreOptions) :
    ∀ sql ∈ (plan d o).texts, denied? sql = none :=
  fun sql h => widest_allowed d sql ((plan_within d o).texts h)

end Session

/-- Whether a restore of the statements comes to set sequences with this text: it does not stop at
a denied statement before. -/
structure Evades (job : Job) (statements : List Statement) (sql : String) : Prop where
  resets : job.options.resetSequences = true
  goesOn : job.options.stopOnError = true →
    ∀ s ∈ statements, job.concerns s = true → denied? s.text = none
  replayed : ∃ s ∈ job.replayed statements, s.text = sql

theorem denial?_eq (hscreen : job.options.screen = true) (s : Statement) :
    job.denial? s = denied? s.text := by
  unfold Job.denial?
  rw [if_pos hscreen]

theorem result_judge_of_denial {s : Statement} {reason : String} (hconcerns : job.concerns s = true)
    (h : job.denial? s = some reason) (log : Log) :
    (judge job s).result job.database log = (.ok (.failed reason), log) := by
  unfold judge
  rw [hconcerns, h]
  rfl

/-- A pass that stops at failures comes to its end only if nothing was denied. -/
theorem denial?_of_pass (hstop : job.options.stopOnError = true) {total done : Nat} {run : Run}
    (h : ((pass total done statements).result job run).1 = .ok none) :
    ∀ s ∈ statements, job.concerns s = true → job.denial? s = none := by
  induction statements generalizing done run with
  | nil => simp
  | cons s rest ih =>
    rw [result_pass_cons] at h
    cases hj : (judge job s).result job.database run.log with
    | mk outcome log =>
      rw [hj] at h
      cases outcome with
      | error e => cases h
      | ok v =>
        dsimp only at h
        by_cases hfailed : v.isFailed = true
        · rw [if_pos (by rw [hfailed, hstop]; rfl)] at h
          cases h
        · rw [if_neg (by simp [hfailed])] at h
          intro s' hs' hconcerns
          rcases List.mem_cons.1 hs' with rfl | hs'
          · cases hdenial : job.denial? s' with
            | none => rfl
            | some reason =>
              rw [result_judge_of_denial hconcerns hdenial] at hj
              cases hj
              exact absurd rfl hfailed
          · exact ih h s' hs' hconcerns

/-- Whether a restore that stops at failures meets no denied statement in its pass. -/
def Job.GoesOn (job : Job) (statements : List Statement) : Prop :=
  job.options.stopOnError = true →
    ∀ s ∈ statements, job.concerns s = true → job.denial? s = none

theorem goesOn_iff (hscreen : job.options.screen = true) : job.GoesOn statements ↔
    (job.options.stopOnError = true →
      ∀ s ∈ statements, job.concerns s = true → denied? s.text = none) := by
  simp only [Job.GoesOn, denial?_eq hscreen]

/-- The texts that a restore can run, and why. -/
inductive Runs (job : Job) (statements : List Statement) : String → Prop where
  | session {sql : String} (h : sql ∈ job.session.texts) : Runs job statements sql
  | passed {s : Statement} (hs : s ∈ statements) (hconcerns : job.concerns s = true)
      (hallowed : job.denial? s = none) : Runs job statements s.text
  | replayed {s : Statement} (hs : s ∈ job.replayed statements)
      (hresets : job.options.resetSequences = true) (hgoesOn : job.GoesOn statements) :
    Runs job statements s.text

/-- Whatever the database refuses, nothing else is run. -/
theorem runs_of_mem_log (h : .exec sql ∈ ((runStatements statements).result job {}).2.log) :
    Runs job statements sql := by
  rw [← mem_texts] at h
  rcases @texts_runStatements job statements with ⟨_, hnil⟩ | ⟨run₀, hrun₀, hbody⟩
  · rw [hnil] at h
    exact absurd h List.not_mem_nil
  · let A (r : Request) : Prop := ∀ sql, r = .exec sql → Runs job statements sql
    have frame : ∀ r ∈ framing job.options.inTransaction, A r := by
      intro r hr sql hsql
      subst hsql
      cases htx : job.options.inTransaction <;> simp [htx, framing] at hr
    have exec {text : String} (htext : Runs job statements text) : A (.exec text) := by
      intro sql hsql
      cases hsql
      exact htext
    have hfollows : Follows (Step A fun _ _ => True) job (body statements) := by
      refine body_follows frame ?session ?script ?replay
      case session => exact fun sql hs => exec (.session hs)
      case script => exact fun s hs hconcerns hallowed => exec (.passed hs hconcerns hallowed)
      case replay =>
        intro hresets hpass s hs
        obtain ⟨run, hrun⟩ := hpass
        exact exec (.replayed hs hresets fun hstop => denial?_of_pass hstop hrun)
    obtain ⟨new, hlog, hnew⟩ := (hfollows.mono fun _ _ => Step.logs).log_eq run₀
    rw [hbody, hlog, texts_append, hrun₀, List.nil_append, mem_texts] at h
    exact hnew _ h sql rfl

/-- Whatever the database refuses, a denied statement is run only if it evades the screen. -/
theorem evades_of_mem_log (hscreen : job.options.screen = true) (hdenied : denied? sql ≠ none)
    (h : .exec sql ∈ ((runStatements statements).result job {}).2.log) :
    Evades job statements sql := by
  cases runs_of_mem_log h with
  | session hs => exact absurd (Session.plan_allowed _ _ sql hs) hdenied
  | passed _ _ hallowed => exact absurd ((denial?_eq hscreen _).symm.trans hallowed) hdenied
  | replayed hs hresets hgoesOn => exact ⟨hresets, (goesOn_iff hscreen).1 hgoesOn, _, hs, rfl⟩

/-! ## A database that refuses nothing -/

section Accepting

variable {db : Database} (hdb : ∀ log r, db.refuses log r = none)
include hdb

theorem result_send_of_accepting (r : Request) (log : Log) :
    (Talk.send r).result db log = (.ok (), log ++ [r]) := by
  rw [Talk.result_send, hdb]

theorem result_request_of_accepting (inTransaction : Bool) (sql : String) (log : Log) :
    ∃ log', (request inTransaction sql).result db log = (.ok (), log') ∧
      texts log' = texts log ++ [sql] := by
  have send := result_send_of_accepting hdb
  cases inTransaction with
  | false =>
    refine ⟨log ++ [.exec sql] ++ [.commit], ?_, by simp [texts]⟩
    rw [request, if_neg (by simp), result_bind, send]
    exact send _ _
  | true =>
    rw [request, if_pos rfl, result_bind, result_read]
    dsimp only
    split
    · refine ⟨log ++ [.savepoint] ++ [.exec sql] ++ [.release], ?_, by simp [texts]⟩
      rw [inSavepoint, result_bind, send]
      dsimp only
      rw [result_bind, result_outcome, send]
      dsimp only
      rw [result_bind, send]
      rfl
    · exact ⟨_, send _ _, by simp [texts]⟩

theorem result_attempt_of_accepting (inTransaction : Bool) (sql : String) (log : Log) :
    ∃ log', (attempt inTransaction sql).result db log = (.ok none, log') ∧
      texts log' = texts log ++ [sql] := by
  obtain ⟨log', hlog, htexts⟩ := result_request_of_accepting hdb inTransaction sql log
  refine ⟨log', ?_, htexts⟩
  rw [attempt, result_bind, result_outcome, hlog]
  rfl

theorem result_refusal?_of_accepting (inTransaction : Bool) (sql : String) (log : Log) :
    ∃ log', (refusal? inTransaction sql).result db log = (.ok none, log') ∧
      texts log' = texts log ++ [sql] := by
  obtain ⟨log', hlog, htexts⟩ := result_attempt_of_accepting hdb inTransaction sql log
  refine ⟨log', ?_, htexts⟩
  rw [refusal?, result_bind, hlog]
  rfl

theorem result_prepareSession_of_accepting (log : Log) :
    ∃ log', (prepareSession job).result db log = (.ok (), log') := by
  have step (sql : String) (log : Log) : ∃ log',
      (do let _ ← attempt job.options.inTransaction sql : Talk Unit).result db log =
        (.ok (), log') ∧ True ∧ ∀ _ : String, True → True := by
    obtain ⟨log', hlog, _⟩ := result_attempt_of_accepting hdb job.options.inTransaction sql log
    refine ⟨log', ?_, trivial, fun _ => id⟩
    rw [result_bind, hlog]
    rfl
  obtain ⟨log', hlog, _⟩ := @result_forM_of_ok _ _ _ db job.session.setup _ (fun _ _ => True)
    (fun sql _ log => step sql log) log
  exact ⟨log', hlog⟩

end Accepting

section Accepting

variable (hdb : ∀ log r, job.database.refuses log r = none)
include hdb

theorem result_judge_of_accepting (s : Statement) (log : Log) :
    ∃ v log', (judge job s).result job.database log = (.ok v, log') ∧
      (v.isFailed = true → job.concerns s = true ∧ job.denial? s ≠ none) := by
  cases hconcerns : job.concerns s with
  | false =>
    refine ⟨.unwanted, log, ?_, by simp [Verdict.isFailed]⟩
    rw [judge, hconcerns]
    rfl
  | true =>
    cases hdenial : job.denial? s with
    | some reason =>
      exact ⟨_, _, result_judge_of_denial hconcerns hdenial log, by simp⟩
    | none =>
      obtain ⟨log', hlog, _⟩ :=
        result_attempt_of_accepting hdb job.options.inTransaction s.text log
      refine ⟨.done, log', ?_, by simp [Verdict.isFailed]⟩
      rw [judge, hconcerns, hdenial]
      change (attempt _ _ >>= _ : Talk Verdict).result job.database log = _
      rw [result_bind, hlog]
      rfl

theorem result_pass_of_accepting (hgoesOn : job.GoesOn statements) (total done : Nat) (run : Run) :
    ∃ run', (pass total done statements).result job run = (.ok none, run') := by
  induction statements generalizing done run with
  | nil => exact ⟨run, rfl⟩
  | cons s rest ih =>
    obtain ⟨v, log, hj, hfailed⟩ := result_judge_of_accepting hdb s run.log
    have hstop : ¬(v.isFailed && job.options.stopOnError) = true := by
      intro h
      rw [Bool.and_eq_true] at h
      obtain ⟨hconcerns, hdenial⟩ := hfailed h.1
      exact hdenial (hgoesOn h.2 s (by simp) hconcerns)
    rw [result_pass_cons, hj]
    dsimp only
    rw [if_neg hstop]
    exact ih (fun h s' hs' => hgoesOn h s' (by simp [hs'])) _ _

theorem result_replay_of_accepting (s : Statement) (run : Run) :
    ∃ run', (replay s).result job run = (.ok (), run') ∧
      texts run'.log = texts run.log ++ [s.text] := by
  obtain ⟨log, hlog, htexts⟩ :=
    result_refusal?_of_accepting hdb job.options.inTransaction s.text run.log
  rw [replay, result_read_bind, result_bind, talk, result_within, hlog]
  exact ⟨_, rfl, htexts⟩

theorem result_replaySequences_of_accepting (statements : List Statement) (run : Run) :
    ∃ run', (replaySequences statements).result job run = (.ok (), run') ∧
      ∀ s ∈ job.replayed statements, s.text ∈ texts run'.log := by
  rw [replaySequences, result_read_bind]
  have step (s : Statement) (run : Run) : ∃ run', (replay s).result job run = (.ok (), run') ∧
      s.text ∈ texts run'.log ∧
      ∀ s' : Statement, s'.text ∈ texts run.log → s'.text ∈ texts run'.log := by
    obtain ⟨run', hrun', htexts⟩ := result_replay_of_accepting hdb s run
    exact ⟨run', hrun', by simp [htexts], fun s' hs' => by simp [htexts, hs']⟩
  obtain ⟨run', hrun', hall, _⟩ := @result_forM_of_ok _ _ _ job (job.replayed statements) replay
    (fun s run => s.text ∈ texts run.log) (fun s _ run => step s run) run
  exact ⟨run', hrun', hall⟩

theorem mem_texts_finalize (hresets : job.options.resetSequences = true) {s : Statement}
    (hs : s ∈ job.replayed statements) (run : Run) :
    s.text ∈ texts ((finalize statements).result job run).2.log := by
  rw [finalize, result_read_bind, result_bind, report, result_modify]
  dsimp only
  rw [if_pos hresets]
  generalize { run with reports := _ } = run₁
  obtain ⟨run₂, hrun₂, hall⟩ := result_replaySequences_of_accepting hdb statements run₁
  rw [result_bind, hrun₂]
  have hteardown : Follows (Step (fun _ => True) fun _ _ => True) job
      (job.session.teardown.forM restoreSetting) :=
    .forM fun _ _ => restoreSetting_follows (fun _ _ => trivial) trivial
  obtain ⟨new, hlog, _⟩ := (hteardown.mono fun _ _ => Step.logs).log_eq run₂
  dsimp only
  rw [hlog, texts_append]
  exact List.mem_append_left _ (hall s hs)

theorem mem_texts_body (hresets : job.options.resetSequences = true)
    (hgoesOn : job.GoesOn statements) {s : Statement} (hs : s ∈ job.replayed statements)
    (run : Run) : s.text ∈ texts ((body statements).result job run).2.log := by
  obtain ⟨log, hlog⟩ := @result_prepareSession_of_accepting job _ hdb run.log
  obtain ⟨run₁, hrun₁⟩ := result_pass_of_accepting hdb hgoesOn statements.length 0
    { run.reported 15 "Preparing database session" with log }
  rw [result_body, hlog]
  dsimp only
  rw [hrun₁]
  exact mem_texts_finalize hdb hresets hs run₁

/-- Where nothing is refused and the restore comes to set sequences, it sets all of them. -/
theorem mem_log_of_replayed (hresets : job.options.resetSequences = true)
    (hgoesOn : job.GoesOn statements) {s : Statement} (hs : s ∈ job.replayed statements) :
    .exec s.text ∈ ((runStatements statements).result job {}).2.log := by
  rw [← mem_texts]
  rcases @texts_runStatements job statements with ⟨hnone | ⟨log, r, hr⟩, _⟩ | ⟨run₀, _, hbody⟩
  · subst hnone
    exact absurd hs (by simp [Job.replayed, sequenceStatements])
  · exact absurd (hdb log r) hr
  · rw [hbody]
    exact mem_texts_body hdb hresets hgoesOn hs run₀

end Accepting

def Job.refusing (job : Job) (refuses : Log → Request → Option Trouble) : Job :=
  { job with database := { job.database with refuses } }

/-- A denied statement reaches the database, for some pattern of refusals, exactly if it evades the
screen. -/
theorem denied_run_iff_evades (hscreen : job.options.screen = true) (hdenied : denied? sql ≠ none) :
    (∃ refuses, .exec sql ∈
      ((runStatements statements).result (job.refusing refuses) {}).2.log) ↔
      Evades job statements sql := by
  constructor
  · rintro ⟨refuses, h⟩
    have h' := @evades_of_mem_log (job.refusing refuses) statements sql hscreen hdenied h
    exact ⟨h'.resets, h'.goesOn, h'.replayed⟩
  · intro h
    obtain ⟨s, hs, rfl⟩ := h.replayed
    exact ⟨_, @mem_log_of_replayed (job.refusing fun _ _ => none) statements (fun _ _ => rfl)
      h.resets ((goesOn_iff hscreen).2 h.goesOn) s hs⟩

theorem readfile_run :
    let sql := "UPDATE sqlite_sequence SET seq = readfile('x')"
    let job : Job := { database := .refusing .sqlite fun _ _ => none, options := {} }
    denied? sql ≠ none ∧ ∃ refuses, .exec sql ∈
      ((runStatements [.plain 0 sql]).result (job.refusing refuses) {}).2.log := by
  intro sql job
  have hdenied : denied? sql ≠ none := by decide +kernel
  have hreplayed : Statement.plain 0 sql ∈ job.replayed [.plain 0 sql] := by decide +kernel
  have hgoesOn : job.options.stopOnError = true →
      ∀ s ∈ [Statement.plain 0 sql], job.concerns s = true → denied? s.text = none :=
    fun h => absurd h (by decide)
  exact ⟨hdenied, (@denied_run_iff_evades job _ sql rfl hdenied).2
    ⟨rfl, hgoesOn, _, hreplayed, rfl⟩⟩

/-- The screen does not keep every denied statement from the database. -/
theorem not_denied_unrun : ¬∀ (job : Job) (statements : List Statement),
    job.options.screen = true → ∀ s ∈ statements, denied? s.text ≠ none →
      .exec s.text ∉ ((runStatements statements).result job {}).2.log := by
  intro h
  let sql := "UPDATE sqlite_sequence SET seq = readfile('x')"
  let job : Job := { database := .refusing .sqlite fun _ _ => none, options := {} }
  have hrun : .exec sql ∈ ((runStatements [.plain 0 sql]).result job {}).2.log := by
    decide +kernel
  have hdenied : denied? sql ≠ none := by decide +kernel
  exact h job [.plain 0 sql] rfl (.plain 0 sql) (by simp) hdenied hrun

end SqlFerry.Restore
