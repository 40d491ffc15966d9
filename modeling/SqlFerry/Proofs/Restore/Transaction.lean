import Mathlib.Logic.ExistsUnique
import SqlFerry.Proofs.Restore.Requests
import SqlFerry.Proofs.Restore.Result

/-!
# Restores in a transaction

A restore in a transaction is committed exactly if it succeeds. All that runs on the connection is
run before it is committed or taken back, and then the connection is closed.
-/

namespace SqlFerry.Restore

open Work Restoring

variable {job : Job}

/-- The requests before a transaction ends: none of them ends it or closes the connection. -/
def IsInner (r : Request) : Prop :=
  r ≠ .commit ∧ r ≠ .rollback ∧ r ≠ .close

/-- What ends a restore in a transaction after the requests `before`, and whether it was committed.
A transaction that failed is taken back unless the database has given it up. -/
inductive Ending (db : Database) : (before : Log) → (committed : Bool) → (after : Log) → Prop where
  | unconnected (h : db.refuses [] .connect ≠ none) : Ending db [.connect] false []
  | unbegun : Ending db [.connect, .start] false [.close]
  | committed (before : Log) (h : db.refuses before .commit = none) :
    Ending db before true [.commit, .close]
  | uncommitted (before : Log) (h : db.refuses before .commit ≠ none) {back : Log}
      (hback : back = [] ∨ back = [.rollback]) :
    Ending db before false (.commit :: back ++ [.close])
  | takenBack (before : Log) {back : Log} (hback : back = [] ∨ back = [.rollback]) :
    Ending db before false (back ++ [.close])

def Transacted (db : Database) (committed : Bool) (log : Log) : Prop :=
  ∃ before after, log = before ++ after ∧ (∀ r ∈ before, IsInner r) ∧
    Ending db before committed after

theorem body_inner (hjob : job.options.inTransaction = true) (statements : List Statement) :
    Follows (Logs Run.log IsInner) job (body statements) := by
  have exec (sql : String) : IsInner (.exec sql) := by simp [IsInner]
  have frame : ∀ r ∈ framing job.options.inTransaction, IsInner r := by
    rw [hjob]
    simp [framing, IsInner]
  exact (body_follows frame (fun _ _ => exec _) (fun _ _ _ _ => exec _) fun _ _ _ _ => exec _).mono
    fun _ _ => Step.logs

theorem inner_of_work {work : Log} (hw : ∀ r ∈ work, IsInner r) :
    ∀ r ∈ [Request.connect] ++ [.start] ++ work, IsInner r := by
  intro r hr
  simp only [List.cons_append, List.nil_append, List.mem_cons] at hr
  rcases hr with rfl | rfl | hr
  · simp [IsInner]
  · simp [IsInner]
  · exact hw r hr

/-- On a fresh connection a transaction is committed if the work in it comes to its end, and taken
back otherwise. -/
theorem Bracketed.transacted {work : Restoring (Option Statement)} {run run' : Run}
    {r : Except Fault (Option Statement)} (h : Bracketed job work run r run')
    (hrun : run.log = [.connect]) (hw : Follows (Logs Run.log IsInner) job work) :
    ∃ committed, (committed = true ↔ r = .ok none) ∧
      Transacted job.database committed (run'.log ++ [.close]) := by
  have worked {r : Except Fault (Option Statement)} {run₁ : Run}
      (hwork : work.result job (run.logged .start) = (r, run₁)) :
      ∀ r ∈ run₁.log, IsInner r := by
    obtain ⟨new, hlog, hnew⟩ := hw.log_eq (run.logged .start)
    rw [hwork] at hlog
    change run₁.log = run.log ++ [.start] ++ new at hlog
    rw [hlog, hrun]
    exact inner_of_work hnew
  cases h with
  | unbegun e hstart =>
    refine ⟨false, by simp, [.connect, .start], [.close], ?_, ?_, .unbegun⟩
    · simp [Run.logged, hrun]
    · simp [IsInner]
  | committed hstart hwork hcommit =>
    exact ⟨true, by simp, _, _, by simp [Run.logged], worked hwork, .committed _ hcommit⟩
  | @uncommitted run₁ _ e hstart hwork hcommit hend =>
    obtain ⟨back, hback, hlog⟩ := (run₁.logged .commit).exists_log_retracted job
    refine ⟨false, by simp, _, _, ?_, worked hwork, .uncommitted _ hcommit hback⟩
    rw [hend, hlog]
    simp [Run.logged]
  | stopped hstart hwork hr =>
    refine ⟨false, ?_, _, _, by simp [Run.logged], worked hwork, .takenBack _ (.inr rfl)⟩
    rcases hr with rfl | ⟨e, rfl⟩ <;> simp
  | @failed run₁ _ _ _ hstart hwork hend =>
    obtain ⟨back, hback, hlog⟩ := run₁.exists_log_retracted job
    refine ⟨false, by simp, _, _, ?_, worked hwork, .takenBack _ hback⟩
    rw [hend, hlog, List.append_assoc]

theorem Executed.transacted (hjob : job.options.inTransaction = true) {statements : List Statement}
    {run run' : Run} {r : Except Fault (Option Statement)} (hrun : run.log = [])
    (h : Executed job statements run r run') (hr : ∀ t : Trouble, r ≠ .error t.fault) :
    ∃ committed, (committed = true ↔ r = .ok none) ∧
      Transacted job.database committed run'.log := by
  cases h with
  | unconnected f hconnect =>
    rw [hrun] at hconnect
    refine ⟨false, by simp, [.connect], [], ?_, ?_, .unconnected hconnect⟩
    · simp [Run.logged, hrun]
    · simp [IsInner]
  | closed hconnect hwork =>
    have hb := @inTransaction_bracketed job (body statements) (run.logged .connect) hjob
    rw [hwork] at hb
    exact hb.transacted (by simp [Run.logged, hrun]) (body_inner hjob statements)
  | unclosed t _ _ => exact absurd rfl (hr t)

theorem runStatements_transacted (hjob : job.options.inTransaction = true)
    {statements : List Statement} (hne : statements ≠ []) {run' : Run} {r : Result}
    (h : (runStatements statements).result job {} = (.ok r, run')) :
    Transacted job.database r.success run'.log := by
  have hreturns := runStatements_returns h
  generalize r.success = success, r.tally = tally, run'.log = log at hreturns ⊢
  cases hreturns with
  | nothing h => exact absurd h hne
  | complete _ h =>
    obtain ⟨committed, hiff, ht⟩ := h.transacted hjob rfl (by simp)
    rwa [hiff.2 rfl] at ht
  | stopped _ h =>
    obtain ⟨committed, hiff, ht⟩ := h.transacted hjob rfl (by simp)
    have hfalse : committed = false := by simpa using hiff
    rwa [hfalse] at ht
  | failed _ h =>
    obtain ⟨committed, hiff, ht⟩ := h.transacted hjob rfl (error_failure_ne_fault _)
    have hfalse : committed = false := by simpa using hiff
    rwa [hfalse] at ht

/-! ## Commits in the log -/

def Accepted (db : Database) (log : Log) (i : Nat) (r : Request) : Prop :=
  log[i]? = some r ∧ db.refuses (log.take i) r = none

section Places

variable {before after : Log} {i : Nat} {r : Request}

theorem lt_length_of_getElem? (h : (before ++ after)[i]? = some r) (hr : r ∉ after) :
    i < before.length := by
  rcases Nat.lt_or_ge i before.length with hi | hi
  · exact hi
  · rw [List.getElem?_append_right hi] at h
    exact absurd (List.mem_of_getElem? h) hr

theorem length_le_of_getElem? (h : (before ++ after)[i]? = some r) (hr : r ∉ before) :
    before.length ≤ i := by
  rcases Nat.lt_or_ge i before.length with hi | hi
  · rw [List.getElem?_append_left hi] at h
    exact absurd (List.mem_of_getElem? h) hr
  · exact hi

theorem eq_length_of_getElem? (h : (before ++ r :: after)[i]? = some r) (hbefore : r ∉ before)
    (hafter : r ∉ after) : i = before.length := by
  have hle := length_le_of_getElem? h hbefore
  rw [← List.singleton_append, ← List.append_assoc] at h
  have hlt := lt_length_of_getElem? h hafter
  simp only [List.length_append, List.length_cons, List.length_nil] at hlt
  omega

end Places

namespace Transacted

variable {db : Database} {committed : Bool} {log : Log}

theorem existsUnique_commit (h : Transacted db true log) : ∃! i, Accepted db log i .commit := by
  obtain ⟨before, after, rfl, hbefore, hend⟩ := h
  cases hend with
  | committed _ h =>
    refine ⟨before.length, ⟨by simp, by simpa using h⟩, fun i hi => ?_⟩
    exact eq_length_of_getElem? hi.1 (fun hmem => (hbefore _ hmem).1 rfl) (by simp)

theorem not_commit (h : Transacted db false log) (i : Nat) : ¬Accepted db log i .commit := by
  obtain ⟨before, after, rfl, hbefore, hend⟩ := h
  have hcommit : Request.commit ∉ before := fun hmem => (hbefore _ hmem).1 rfl
  rintro ⟨hi, haccept⟩
  have hmem : Request.commit ∈ after := by
    rw [List.getElem?_append_right (length_le_of_getElem? hi hcommit)] at hi
    exact List.mem_of_getElem? hi
  cases hend with
  | @uncommitted _ h back hback =>
    have hlast : Request.commit ∉ back ++ [.close] := by rcases hback with rfl | rfl <;> simp
    rw [eq_length_of_getElem? hi hcommit hlast, List.take_left] at haccept
    exact h haccept
  | takenBack _ hback => rcases hback with rfl | rfl <;> simp at hmem
  | _ => simp at hmem

/-- Nothing is run after the transaction was committed or taken back. -/
theorem exec_lt (h : Transacted db committed log) {i j : Nat} {sql : String}
    (hi : log[i]? = some .commit ∨ log[i]? = some .rollback) (hj : log[j]? = some (.exec sql)) :
    j < i := by
  obtain ⟨before, after, rfl, hbefore, hend⟩ := h
  have hexec : Request.exec sql ∉ after := by
    cases hend with
    | uncommitted _ _ hback | takenBack _ hback => rcases hback with rfl | rfl <;> simp
    | _ => simp
  have hlt := lt_length_of_getElem? hj hexec
  have hle : before.length ≤ i := by
    rcases hi with hi | hi
    · exact length_le_of_getElem? hi fun hmem => (hbefore _ hmem).1 rfl
    · exact length_le_of_getElem? hi fun hmem => (hbefore _ hmem).2.1 rfl
  omega

theorem closed (h : Transacted db committed log) (hconnect : db.refuses [] .connect = none) :
    log.getLast? = some .close ∧ log.count .close = 1 := by
  obtain ⟨before, after, rfl, hbefore, hend⟩ := h
  have hcount : before.count .close = 0 :=
    List.count_eq_zero.2 fun hmem => (hbefore _ hmem).2.2 rfl
  rw [List.count_append, hcount]
  cases hend with
  | unconnected h => exact absurd hconnect h
  | uncommitted _ _ hback | takenBack _ hback =>
    rcases hback with rfl | rfl <;> exact ⟨by simp, by decide⟩
  | _ => exact ⟨by simp, by decide⟩

end Transacted

/-- A restore in a transaction that returns success has exactly one accepted commit, and one that
returns a failure has none. All that is run is run before the transaction is committed or taken
back, and a connection that was opened is closed once, at the end. -/
theorem commit_iff_success (hjob : job.options.inTransaction = true) {statements : List Statement}
    (hne : statements ≠ []) {r : Result} {run : Run}
    (h : (runStatements statements).result job {} = (.ok r, run)) :
    (r.success = true → ∃! i, Accepted job.database run.log i .commit) ∧
      (r.success = false → ∀ i, ¬Accepted job.database run.log i .commit) ∧
      (∀ (i j : Nat) (sql : String),
        run.log[i]? = some Request.commit ∨ run.log[i]? = some Request.rollback →
          run.log[j]? = some (Request.exec sql) → j < i) ∧
      (Accepted job.database run.log 0 .connect →
        run.log.getLast? = some .close ∧ run.log.count .close = 1) := by
  have ht := runStatements_transacted hjob hne h
  refine ⟨fun hs => ?_, fun hs => ?_, fun i j sql => ht.exec_lt, fun hc => ht.closed hc.2⟩
  · rw [hs] at ht
    exact ht.existsUnique_commit
  · rw [hs] at ht
    exact ht.not_commit

theorem commit_of_accepted_insertion : ∃ r run,
    (runStatements [Statement.plain 0 "INSERT INTO t VALUES (1)"]).result
      { database := .refusing .postgresql fun _ _ => none, options := {} } {} = (.ok r, run) ∧
    r.success = true ∧
    ∃! i, Accepted (.refusing .postgresql fun _ _ => none) run.log i .commit :=
  ⟨_, _, rfl, rfl, (@commit_iff_success
    { database := .refusing .postgresql fun _ _ => none, options := {} } rfl
    [.plain 0 "INSERT INTO t VALUES (1)"] (List.cons_ne_nil _ _) _ _ rfl).1 rfl⟩

end SqlFerry.Restore
