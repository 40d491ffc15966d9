import SqlFerry.Proofs.Restore.Accounting

/-!
# Faults that escape a restore

A restore records what the database refuses, or returns it as its failure, but it does not catch
everything: trouble on the way to the database is caught only when the connection is opened, and a
refusal to take a transaction back or to close the connection is never caught. So a fault escapes
exactly if the log shows such a refusal, or if the script was not made ready for a reason that is no
failure.
-/

namespace SqlFerry

def Trouble.escapes (t : Trouble) (r : Request) : Bool :=
  match r, t with
  | .connect, _ | .rollbackTo, _ => false
  | .rollback, _ | .close, _ => true
  | _, .system _ => true
  | _, .engine _ => false

/-- Some request of the log was refused for trouble that a restore does not catch. -/
def Breached (db : Database) (log : Log) : Prop :=
  ∃ i r t, log[i]? = some r ∧ db.refuses (log.take i) r = some t ∧ t.escapes r = true

theorem not_breached_nil (db : Database) : ¬Breached db [] := by
  rintro ⟨i, r, t, hi, -⟩
  cases hi

theorem breached_snoc {db : Database} {log : Log} {r : Request} :
    Breached db (log ++ [r]) ↔
      Breached db log ∨ ∃ t, db.refuses log r = some t ∧ t.escapes r = true := by
  constructor
  · rintro ⟨i, r', t, hi, hrefuses, hescapes⟩
    rcases Nat.lt_or_ge i log.length with hlt | hge
    · rw [List.getElem?_append_left hlt] at hi
      rw [List.take_append_of_le_length (by omega)] at hrefuses
      exact .inl ⟨i, r', t, hi, hrefuses, hescapes⟩
    · have hlast := List.getElem?_eq_some_iff.1 hi
      obtain ⟨hbound, -⟩ := hlast
      have hplace : i = log.length := by
        rw [List.length_append, List.length_singleton] at hbound
        omega
      subst hplace
      rw [List.getElem?_concat_length, Option.some.injEq] at hi
      subst hi
      rw [List.take_left] at hrefuses
      exact .inr ⟨t, hrefuses, hescapes⟩
  · rintro (⟨i, r', t, hi, hrefuses, hescapes⟩ | ⟨t, hrefuses, hescapes⟩)
    · have hlt : i < log.length := (List.getElem?_eq_some_iff.1 hi).1
      refine ⟨i, r', t, ?_, ?_, hescapes⟩
      · rw [List.getElem?_append_left hlt, hi]
      · rw [List.take_append_of_le_length (by omega), hrefuses]
    · refine ⟨log.length, r, t, by simp, ?_, hescapes⟩
      rw [List.take_left, hrefuses]

namespace Fault

def IsFailure (e : Fault) : Prop :=
  ∃ f, e = .failure f

def Escapes (e : Fault) : Prop :=
  ¬e.IsFailure

def IsTrouble (e : Fault) : Prop :=
  ∃ t : Trouble, e = t.fault

def EscapesStatement (e : Fault) : Prop :=
  e.Escapes ∧ ∀ text, e ≠ .engine text

end Fault

theorem Trouble.fault_escapes (t : Trouble) : t.fault.Escapes := by
  rintro ⟨f, hf⟩
  cases t <;> cases hf

theorem Fault.IsTrouble.escapes {e : Fault} (h : e.IsTrouble) : e.Escapes := by
  obtain ⟨t, rfl⟩ := h
  exact t.fault_escapes

/-! ## Work that exposes breaches -/

namespace Work

variable {ρ σ τ υ α β : Type} {db : Database} {log : σ → Log} {E : Fault → Prop} {p : ρ}

/-- Work fails with a fault of the class `E` exactly if it comes to a breach. -/
def Exposes (db : Database) (log : σ → Log) (E : Fault → Prop) (p : ρ) (w : Work ρ σ α) : Prop :=
  ∀ s, Breached db (log (w.result p s).2) ↔
    Breached db (log s) ∨ ∃ e, (w.result p s).1 = .error e ∧ E e

namespace Exposes

theorem of_quiet {w : Work ρ σ α} (hlog : ∀ s, log (w.result p s).2 = log s)
    (hw : ∀ s e, (w.result p s).1 = .error e → ¬E e) : Exposes db log E p w := by
  intro s
  rw [hlog]
  constructor
  · exact .inl
  · rintro (h | ⟨e, he, hE⟩)
    · exact h
    · exact absurd hE (hw s e he)

theorem pure (a : α) : Exposes db log E p (Pure.pure a : Work ρ σ α) :=
  of_quiet (fun _ => rfl) fun _ _ h => by cases h

theorem throw {e : Fault} (he : ¬E e) : Exposes db log E p (MonadExcept.throw e : Work ρ σ α) :=
  of_quiet (fun _ => rfl) fun _ _ h => by cases h; exact he

theorem modify {f : σ → σ} (hf : ∀ s, log (f s) = log s) :
    Exposes db log E p (modify f : Work ρ σ PUnit) :=
  of_quiet hf fun _ _ h => by cases h

theorem bind {w : Work ρ σ α} {f : α → Work ρ σ β} (hw : Exposes db log E p w)
    (hf : ∀ a, Exposes db log E p (f a)) : Exposes db log E p (w >>= f) := by
  intro s
  have h := hw s
  rw [result_bind]
  cases hr : w.result p s with
  | mk r s' =>
    rw [hr] at h
    cases r with
    | error e => simpa using h
    | ok a =>
      have hquiet : Breached db (log s') ↔ Breached db (log s) := by simpa using h
      dsimp only
      rw [hf a s', hquiet]

theorem read_bind {f : ρ → Work ρ σ α} (hf : Exposes db log E p (f p)) :
    Exposes db log E p (read >>= f) := by
  intro s
  rw [result_bind, result_read]
  exact hf s

theorem forM {l : List β} {f : β → Work ρ σ PUnit} (hf : ∀ b ∈ l, Exposes db log E p (f b)) :
    Exposes db log E p (l.forM f) := by
  induction l with
  | nil => exact pure _
  | cons b l ih =>
    exact (hf b (by simp)).bind fun _ => ih fun b' hb => hf b' (by simp [hb])

theorem within {place : ρ → τ} {part : σ → υ} {put : υ → σ → σ} {log : υ → Log} {w : Work τ υ α}
    (hw : Exposes db log E (place p) w) (hput : ∀ s u, part (put u s) = u) :
    Exposes db (log ∘ part) E p (Work.within place part put w) := by
  intro s
  rw [result_within]
  dsimp only [Function.comp]
  rw [hput]
  exact hw (part s)

/-- What goes on from an outcome can catch a fault. It has to make of a fault what its class asks
for. -/
theorem outcome_bind {E' : Fault → Prop} {w : Work ρ σ α} {f : Except Fault α → Work ρ σ β}
    (hw : Exposes db log E p w) (hok : ∀ a, Exposes db log E' p (f (.ok a)))
    (hcaught : ∀ e, ¬E e → Exposes db log E' p (f (.error e)))
    (hthrown : ∀ e, E e → ∀ s, (Breached db (log s) →
      Breached db (log ((f (.error e)).result p s).2)) ∧
      ∃ e', ((f (.error e)).result p s).1 = .error e' ∧ E' e') :
    Exposes db log E' p (w.outcome >>= f) := by
  intro s
  have h := hw s
  rw [result_bind, result_outcome]
  dsimp only
  cases hr : w.result p s with
  | mk r s' =>
    rw [hr] at h
    have hquiet (hr : ∀ e, r = .error e → ¬E e) : Breached db (log s') ↔ Breached db (log s) := by
      rw [h]
      constructor
      · rintro (h | ⟨e, he, hE⟩)
        · exact h
        · exact absurd hE (hr e he)
      · exact .inl
    cases r with
    | ok a =>
      dsimp only
      rw [hok a s', hquiet (by simp)]
    | error e =>
      by_cases hE : E e
      · obtain ⟨hkeep, hfails⟩ := hthrown e hE s'
        have hbreached : Breached db (log s') := h.2 (.inr ⟨e, rfl, hE⟩)
        exact ⟨fun _ => .inr hfails, fun _ => hkeep hbreached⟩
      · dsimp only
        rw [hcaught e hE s', hquiet (by rintro _ ⟨⟩; exact hE)]

end Exposes

end Work

/-! ## Talking to the database -/

theorem Trouble.escapesStatement_iff (t : Trouble) :
    t.fault.EscapesStatement ↔ ∃ text, t = .system text := by
  cases t with
  | engine text =>
    constructor
    · rintro ⟨-, h⟩
      exact absurd rfl (h text)
    · rintro ⟨text, h⟩
      cases h
  | system text =>
    exact ⟨fun _ => ⟨text, rfl⟩, fun _ => ⟨Trouble.fault_escapes _, by rintro _ ⟨⟩⟩⟩

namespace Restore

open Work Restoring

section Talk

variable {db : Database} {E : Fault → Prop} {inTransaction : Bool} {sql : String}

theorem send_exposes {r : Request} (hE : ∀ t : Trouble, E t.fault ↔ t.escapes r = true) :
    Exposes db id E db (Talk.send r) := by
  intro log
  rw [Talk.result_send, id, breached_snoc]
  cases hr : db.refuses log r with
  | none => simp
  | some t => simp [hE]

def IsPlain (r : Request) : Prop :=
  ∀ t : Trouble, t.escapes r = true ↔ ∃ text, t = .system text

theorem isPlain_of_mem {r : Request}
    (hr : r ∈ [.start, .commit, .savepoint, .release, .exec sql]) : IsPlain r := by
  intro t
  simp only [List.mem_cons, List.not_mem_nil, or_false] at hr
  rcases hr with rfl | rfl | rfl | rfl | rfl <;> cases t <;> simp [Trouble.escapes]

theorem plain_exposes {r : Request} (hr : IsPlain r) :
    Exposes db id Fault.EscapesStatement db (Talk.send r) :=
  send_exposes fun t => (t.escapesStatement_iff).trans (hr t).symm

/-- Nothing that is refused after the work is caught. -/
theorem final_exposes {r : Request} (hr : r = .rollback ∨ r = .close) :
    Exposes db id Fault.Escapes db (Talk.send r) := by
  refine send_exposes fun t => iff_of_true t.fault_escapes ?_
  rcases hr with rfl | rfl <;> rfl

/-- To go back to a savepoint is no breach, even if it is refused. -/
theorem breached_rollbackTo (log : Log) :
    Breached db (((Talk.send .rollbackTo).outcome).result db log).2 ↔ Breached db log := by
  rw [result_outcome, Talk.result_send]
  dsimp only
  rw [breached_snoc]
  simp [Trouble.escapes]

theorem request_exposes (inTransaction : Bool) (sql : String) :
    Exposes db id Fault.EscapesStatement db (request inTransaction sql) := by
  have hexec : Exposes db id Fault.EscapesStatement db (Talk.send (.exec sql)) :=
    plain_exposes (@isPlain_of_mem sql _ (by simp))
  have hplain {r : Request} (hr : r ∈ [.start, .commit, .savepoint, .release, .exec sql]) :
      Exposes db id Fault.EscapesStatement db (Talk.send r) :=
    plain_exposes (isPlain_of_mem hr)
  unfold request
  cases inTransaction with
  | false => exact hexec.bind fun _ => hplain (by simp)
  | true =>
    refine .read_bind ?_
    split
    · refine (hplain (by simp)).bind fun _ => hexec.outcome_bind ?_ ?_ ?_
      · exact fun _ => (hplain (by simp)).bind fun _ => .pure _
      · intro e he log
        rw [result_bind]
        have hlog := @breached_rollbackTo db log
        rw [result_outcome] at hlog ⊢
        simpa [he] using hlog
      · intro e he log
        rw [result_bind]
        have hlog := @breached_rollbackTo db log
        rw [result_outcome] at hlog ⊢
        exact ⟨hlog.2, e, rfl, he⟩
    · exact hexec

theorem attempt_exposes (inTransaction : Bool) (sql : String) :
    Exposes db id Fault.Escapes db (attempt inTransaction sql) := by
  refine (request_exposes inTransaction sql).outcome_bind (fun _ => .pure _) ?_ ?_
  · intro e he
    cases e
    case engine text =>
      cases inTransaction with
      | false => exact (final_exposes (.inl rfl)).bind fun _ => .pure _
      | true => exact .pure _
    case failure f => exact .throw fun h => h ⟨f, rfl⟩
    all_goals
      refine absurd ⟨?_, ?_⟩ he
      · rintro ⟨f, hf⟩
        cases hf
      · rintro _ ⟨⟩
  · intro e he log
    have hthrow : ∀ text, e ≠ .engine text := he.2
    cases e
    case engine text => exact absurd rfl (hthrow text)
    all_goals exact ⟨id, _, rfl, he.1⟩

theorem refusal?_exposes (inTransaction : Bool) (sql : String) :
    Exposes db id Fault.Escapes db (refusal? inTransaction sql) :=
  (attempt_exposes inTransaction sql).bind fun _ => .pure _

theorem judge_exposes (job : Job) (s : Statement) :
    Exposes db id Fault.Escapes db (judge job s) := by
  unfold judge
  split
  · exact .pure _
  · cases job.denial? s with
    | some reason => exact .pure _
    | none =>
      refine (attempt_exposes _ _).bind fun r => ?_
      cases r <;> exact .pure _

theorem prepareSession_exposes (job : Job) :
    Exposes db id Fault.Escapes db (prepareSession job) :=
  .forM fun _ _ => (attempt_exposes _ _).bind fun _ => .pure _

end Talk

/-! ## Parts of a restore -/

variable {job : Job} {α : Type}

abbrev Exposed (job : Job) (w : Restoring α) : Prop :=
  Exposes job.database Run.log Fault.Escapes job w

theorem talk_exposed {t : Talk α} (h : Exposes job.database id Fault.Escapes job.database t) :
    Exposed job (talk t) :=
  h.within fun _ _ => rfl

theorem report_exposed (percent : Nat) (operation : String) :
    Exposed job (report percent operation) :=
  .modify fun _ => rfl

theorem count_exposed {E : Fault → Prop} (f : Tally → Tally) :
    Exposes job.database Run.log E job (count f) :=
  .modify fun _ => rfl

theorem perform_exposed (s : Statement) : Exposed job (perform s) :=
  .read_bind <| (talk_exposed (judge_exposes job s)).bind fun _ =>
    (count_exposed _).bind fun _ => .pure _

theorem pass_exposed (total done : Nat) (statements : List Statement) :
    Exposed job (pass total done statements) := by
  induction statements generalizing done with
  | nil => exact .pure _
  | cons s rest ih =>
    unfold pass
    refine .read_bind <| (perform_exposed s).bind fun failed => ?_
    split
    · exact (count_exposed _).bind fun _ => .pure _
    · dsimp only
      split
      · exact (report_exposed _ _).bind fun _ => ih _
      · exact ih _

theorem replaySequences_exposed (statements : List Statement) :
    Exposed job (replaySequences statements) := by
  refine .read_bind <| .forM fun s _ => .read_bind ?_
  refine (talk_exposed (refusal?_exposes _ _)).bind fun r => ?_
  cases r <;> exact count_exposed _

theorem restoreSetting_exposed (sql : String) : Exposed job (restoreSetting sql) := by
  refine .read_bind <| (talk_exposed (refusal?_exposes _ _)).bind fun r => ?_
  cases r with
  | none => exact .pure _
  | some message => exact .throw fun h => h ⟨_, rfl⟩

theorem finalize_exposed (statements : List Statement) : Exposed job (finalize statements) := by
  have hlast : Exposed job (job.session.teardown.forM restoreSetting) :=
    .forM fun sql _ => restoreSetting_exposed sql
  refine .read_bind <| (report_exposed _ _).bind fun _ => ?_
  dsimp only
  split
  · exact (replaySequences_exposed statements).bind fun _ => hlast
  · exact hlast

theorem body_exposed (statements : List Statement) : Exposed job (body statements) := by
  refine (report_exposed _ _).bind fun _ => .read_bind ?_
  refine (talk_exposed (prepareSession_exposes job)).bind fun _ => ?_
  refine (pass_exposed _ _ _).bind fun stopped => ?_
  cases stopped with
  | some s => exact .pure _
  | none => exact (finalize_exposed statements).bind fun _ => .pure _

/-- The beginning and the end of a transaction are caught if the database refuses them. -/
theorem sendOrFail_exposed {r : Request} (hr : r = .start ∨ r = .commit)
    (reason : String → String) : Exposed job (sendOrFail r reason) := by
  have hplain : IsPlain r :=
    @isPlain_of_mem "" r (by rcases hr with rfl | rfl <;> simp)
  have hsend : Exposes job.database Run.log Fault.EscapesStatement job (send r) :=
    (plain_exposes hplain).within fun _ _ => rfl
  refine hsend.outcome_bind (fun _ => .pure _) ?_ ?_
  · intro e he
    cases e
    case engine text => exact .read_bind <| .throw fun h => h ⟨_, rfl⟩
    case failure f => exact .throw fun h => h ⟨f, rfl⟩
    all_goals
      refine absurd ⟨?_, ?_⟩ he
      · rintro ⟨f, hf⟩
        cases hf
      · rintro _ ⟨⟩
  · intro e he run
    have hthrow : ∀ text, e ≠ .engine text := he.2
    cases e
    case engine text => exact absurd rfl (hthrow text)
    all_goals exact ⟨id, _, rfl, he.1⟩

theorem send_exposed {r : Request} (hr : r = .rollback ∨ r = .close) : Exposed job (send r) :=
  talk_exposed (final_exposes hr)

/-- A fault that escapes is not caught by a request at the end. -/
theorem send_throw_breached {r : Request} (hr : r = .rollback ∨ r = .close) {e : Fault}
    (he : e.Escapes) (run : Run) :
    (Breached job.database run.log → Breached job.database
      ((send r >>= fun _ => (throw e : Restoring α)).result job run).2.log) ∧
    ∃ e', ((send r >>= fun _ => (throw e : Restoring α)).result job run).1 = .error e' ∧
      e'.Escapes := by
  have hlog := @send_exposed job r hr run
  rw [result_bind]
  rw [result_send] at hlog ⊢
  cases job.database.refuses run.log r with
  | none => exact ⟨fun h => hlog.2 (.inl h), e, rfl, he⟩
  | some t => exact ⟨fun h => hlog.2 (.inl h), _, rfl, t.fault_escapes⟩

theorem retract_exposed {e : Fault} (he : ¬e.Escapes) : Exposed job (retract e) := by
  have hget : Exposed job (get : Restoring Run) := .of_quiet (fun _ => rfl) fun _ _ h => by cases h
  refine .read_bind (hget.bind fun run => ?_)
  split
  · exact (send_exposed (.inl rfl)).bind fun _ => .throw he
  · exact .throw he

theorem retract_breached {e : Fault} (he : e.Escapes) (run : Run) :
    (Breached job.database run.log →
      Breached job.database ((retract e).result job run).2.log) ∧
    ∃ e', ((retract e).result job run).1 = .error e' ∧ e'.Escapes := by
  unfold retract
  rw [result_read_bind, result_bind, result_get]
  dsimp only
  split
  · exact send_throw_breached (.inl rfl) he run
  · exact ⟨id, e, rfl, he⟩

theorem inTransaction_exposed {work : Restoring (Option Statement)} (hwork : Exposed job work) :
    Exposed job (inTransaction work) := by
  refine .read_bind ?_
  split
  · exact hwork
  · refine (sendOrFail_exposed (.inl rfl) _).bind fun _ => ?_
    have hsteps : Exposed job (do
        let stopped ← work
        if stopped.isNone then sendOrFail .commit fun text => "commit failed: " ++ clipped text
        return stopped) := by
      refine hwork.bind fun stopped => ?_
      split
      · exact (sendOrFail_exposed (.inr rfl) _).bind fun _ => .pure _
      · exact .pure _
    refine hsteps.outcome_bind (fun stopped => ?_) (fun _ => retract_exposed)
      fun _ => retract_breached
    cases stopped with
    | none => exact .pure _
    | some s => exact (send_exposed (.inl rfl)).bind fun _ => .pure _

theorem connect_exposed : Exposed job connect := by
  intro run
  have hlog : Breached job.database (run.logged .connect).log ↔ Breached job.database run.log := by
    rw [Run.logged, breached_snoc]
    simp [Trouble.escapes]
  by_cases hconnect : job.database.refuses run.log .connect = none
  · rw [result_connect_of_accepted hconnect, hlog]
    simp
  · obtain ⟨f, hf⟩ := result_connect_of_refused hconnect
    rw [hf, hlog]
    simp [Fault.Escapes, Fault.IsFailure]

theorem execute_exposed (statements : List Statement) : Exposed job (execute statements) := by
  refine connect_exposed.bind fun _ => ?_
  have hclose : Exposed job (send .close) := send_exposed (.inr rfl)
  refine (inTransaction_exposed (body_exposed statements)).outcome_bind ?_ ?_ ?_
  · exact fun stopped => hclose.bind fun _ => .pure _
  · exact fun e he => hclose.bind fun _ => .throw he
  · exact fun e he run => send_throw_breached (.inr rfl) he run

/-- A restore fails only with a fault that escapes. -/
theorem runAll_exposed (statements : List Statement) :
    Exposes job.database Run.log (fun _ => True) job (runAll statements) := by
  have returned {w : Restoring Result} (hlog : ∀ run, (w.result job run).2.log = run.log)
      (hok : ∀ run, ∃ r, (w.result job run).1 = .ok r) :
      Exposes job.database Run.log (fun _ => True) job w := by
    refine .of_quiet hlog fun run e he => ?_
    obtain ⟨r, hr⟩ := hok run
    rw [hr] at he
    cases he
  refine .read_bind <| (count_exposed _).bind fun _ => ?_
  dsimp only
  split
  · exact returned (fun _ => rfl) fun _ => ⟨_, rfl⟩
  · refine (execute_exposed statements).outcome_bind ?_ ?_ ?_
    · intro stopped
      cases stopped <;> exact returned (fun _ => rfl) fun _ => ⟨_, rfl⟩
    · intro e he
      cases e
      case failure f => exact returned (fun _ => rfl) fun _ => ⟨_, rfl⟩
      all_goals exact absurd (by rintro ⟨f, ⟨⟩⟩) he
    · intro e he run
      cases e
      case failure f => exact absurd ⟨f, rfl⟩ he
      all_goals exact ⟨id, _, rfl, trivial⟩

/-! ## What a restore returns -/

theorem runAll_success {statements : List Statement} {run run' : Run} {r : Result}
    (h : (runAll statements).result job run = (.ok r, run')) :
    r.success = false ↔ r.failure ≠ none := by
  unfold runAll at h
  rw [result_read_bind, result_bind, count, result_modify] at h
  dsimp only at h
  change result _ job (run.expecting job statements) = _ at h
  split at h
  · cases h
    simp
  · rw [result_bind, result_outcome] at h
    cases hr : (execute statements).result job (run.expecting job statements) with
    | mk outcome run₁ =>
      rw [hr] at h
      cases outcome with
      | ok stopped => cases stopped <;> cases h <;> simp [Result.failed]
      | error e =>
        cases e
        case failure f =>
          cases h
          simp [Result.failed]
        all_goals cases h

/-! ## Making a script ready -/

/-- The conversion that a header asks for fails with a fault that is no failure. -/
def Job.Misconverts (job : Job) (text : Text.Chars) : Prop :=
  ∃ header source kind found e, Header.ofText? text = some header ∧
    header.dialect = some source ∧ header.needsConversion = true ∧ job.options.convert = true ∧
    Splitter.Kind.named job.options.parser = .ok kind ∧
    kind.statements (some source) text = .ok found ∧
    Convert.statements { source, target := job.database.dialect } found = .error e ∧ e.Escapes

theorem find_eq (files : Files) (p : Path) : files.find p =
    if p.hasNul then .ok none
    else match files.locate p with
      | .ok q => .ok (files.at? q)
      | .error .longName => .error (.system .longName
          s!"{SystemTrouble.longName.words}: {Text.shown p.toText}")
      | .error _ => .ok none :=
  rfl

theorem escapes_of_find {files : Files} {p : Path} {e : Fault} (h : files.find p = .error e) :
    e.Escapes := by
  rw [find_eq] at h
  rintro ⟨f, rfl⟩
  split at h
  · cases h
  · split at h <;> cases h

theorem bytes_error {files : Files} {p : Path} {e : Fault} (h : Backup.bytes files p = .error e) :
    files.find p = .error e ∨ e.IsFailure := by
  unfold Backup.bytes at h
  cases hcontents : Backup.contents files p with
  | error e' =>
    rw [hcontents] at h
    cases h
    unfold Backup.contents at hcontents
    split at hcontents
    · next hfind =>
      cases hcontents
      exact .inl hfind
    · cases hcontents
      exact .inr ⟨_, rfl⟩
    · cases hcontents
      exact .inr ⟨_, rfl⟩
    · cases hcontents
  | ok raw =>
    rw [hcontents] at h
    change (if !Bytes.Gzip.magic.isPrefixOf raw then _ else _) = _ at h
    split at h
    · cases h
    · split at h <;> cases h <;> exact .inr ⟨_, rfl⟩

theorem textOf_error {p : Path} {raw : Bytes.Octets} {e : Fault}
    (h : Backup.textOf p raw = .error e) : e.IsFailure := by
  unfold Backup.textOf at h
  split at h
  · cases h
    exact ⟨_, rfl⟩
  · split at h
    · cases h
      exact ⟨_, rfl⟩
    · split at h
      · cases h
        exact ⟨_, rfl⟩
      · cases h

/-- Whatever a file holds, reading it fails with a failure. -/
theorem text_escapes_iff {files : Files} {p : Path} :
    (∃ e, Backup.text files p = .error e ∧ e.Escapes) ↔ ∃ e, files.find p = .error e := by
  have htext : Backup.text files p = (Backup.bytes files p).bind (Backup.textOf p) := rfl
  rw [htext]
  constructor
  · rintro ⟨e, he, hescapes⟩
    cases hbytes : Backup.bytes files p with
    | error e' =>
      rcases bytes_error hbytes with hfind | hfailure
      · exact ⟨_, hfind⟩
      · rw [hbytes] at he
        cases he
        exact absurd hfailure hescapes
    | ok raw =>
      rw [hbytes] at he
      exact absurd (textOf_error he) hescapes
  · rintro ⟨e, he⟩
    refine ⟨e, ?_, escapes_of_find he⟩
    have hbytes : Backup.bytes files p = .error e := by
      unfold Backup.bytes Backup.contents
      rw [he]
      rfl
    rw [hbytes]
    rfl

theorem exists_named (hparser : job.options.parser = "scanner" ∨ job.options.parser = "line") :
    ∃ kind, Splitter.Kind.named job.options.parser = .ok kind := by
  rcases hparser with h | h <;> rw [h]
  · exact ⟨.scanner, rfl⟩
  · exact ⟨.lines, rfl⟩

theorem statements_error {kind : Splitter.Kind} {d : Option Dialect} {text : Text.Chars}
    {e : Fault} (h : kind.statements d text = .error e) : e.IsFailure := by
  cases kind with
  | scanner =>
    unfold Splitter.Kind.statements Ddl.ofSplitting at h
    dsimp only at h
    split at h
    · cases h
    · cases h
      exact ⟨_, rfl⟩
  | lines => cases h

theorem convert_error_iff {header : Option Header} {source : Dialect} {found : List Statement}
    {e : Fault} : job.convert header source found = .error e ↔
      (∃ h ∈ header, h.needsConversion = true) ∧ job.options.convert = true ∧
      Convert.statements { source, target := job.database.dialect } found = .error e := by
  unfold Job.convert
  cases hheader : header.filter fun h => h.needsConversion && job.options.convert with
  | none =>
    rw [Option.filter_eq_none_iff] at hheader
    constructor
    · rintro ⟨⟩
    · rintro ⟨⟨h, hmem, hneeds⟩, hconvert, -⟩
      exact absurd (by rw [hneeds, hconvert]; rfl) (hheader h hmem)
  | some h =>
    obtain ⟨rfl, hneeds⟩ := Option.filter_eq_some_iff.1 hheader
    rw [Bool.and_eq_true] at hneeds
    have hasked : ∃ h' ∈ some h, h'.needsConversion = true := ⟨h, rfl, hneeds.1⟩
    dsimp only
    cases hscript : Convert.statements { source, target := job.database.dialect } found with
    | error e' =>
      change (Except.error e' : Except Fault Prepared) = .error e ↔ _
      constructor
      · rintro ⟨⟩
        exact ⟨hasked, hneeds.2, rfl⟩
      · rintro ⟨-, -, ⟨⟩⟩
        rfl
    | ok script =>
      constructor
      · rintro ⟨⟩
      · rintro ⟨-, -, ⟨⟩⟩

theorem Header.dialect_of_needsConversion {header : Header} (h : header.needsConversion = true) :
    ∃ source, header.dialect = some source := by
  unfold Header.needsConversion at h
  split at h
  · next source _ hsource _ => exact ⟨source, hsource⟩
  · cases h

/-- A script is not made ready for a reason that is no failure exactly if its conversion goes
wrong. -/
theorem parse_escapes_iff {text : Text.Chars}
    (hparser : job.options.parser = "scanner" ∨ job.options.parser = "line") :
    (∃ e, job.parse text = .error e ∧ e.Escapes) ↔ job.Misconverts text := by
  obtain ⟨kind, hkind⟩ := exists_named hparser
  unfold Job.parse
  dsimp only
  rw [hkind]
  dsimp only [bind, Except.bind]
  constructor
  · rintro ⟨e, he, hescapes⟩
    split at he
    · next hfound =>
      cases he
      exact absurd (statements_error hfound) hescapes
    · next found hfound =>
      obtain ⟨⟨header, hheader, hneeds⟩, hconvert, hscript⟩ := convert_error_iff.1 he
      obtain ⟨source, hsource⟩ := header.dialect_of_needsConversion hneeds
      rw [Option.mem_def.1 hheader] at hfound hscript
      simp only [Option.bind_some, hsource, Option.getD_some] at hfound hscript
      exact ⟨header, source, kind, found, e, hheader, hsource, hneeds, hconvert, hkind, hfound,
        hscript, hescapes⟩
  · rintro ⟨header, source, kind', found, e, hheader, hsource, hneeds, hconvert, hkind', hfound,
      hscript, hescapes⟩
    rw [hkind] at hkind'
    cases hkind'
    refine ⟨e, ?_, hescapes⟩
    simp only [hheader, Option.bind_some, hsource, Option.getD_some, hfound]
    exact convert_error_iff.2 ⟨⟨header, rfl, hneeds⟩, hconvert, hscript⟩

/-! ## The whole restore -/

/-- Where a fault escapes a restore of a file. -/
inductive LetsThrough (job : Job) (files : Files) (p : Path) (log : Log) : Prop where
  /-- The name of the file is too long to be looked up. -/
  | unread {e : Fault} (h : files.find p = .error e)
  | misconverted {text : Text.Chars} (htext : Backup.text files p = .ok text)
      (h : job.Misconverts text)
  | breached (h : Breached job.database log)

theorem letsThrough_iff {files : Files} {p : Path} {log : Log}
    (hparser : job.options.parser = "scanner" ∨ job.options.parser = "line") :
    LetsThrough job files p log ↔
      (∃ e, (Backup.text files p).bind job.parse = .error e ∧ e.Escapes) ∨
        Breached job.database log := by
  constructor
  · rintro (⟨hfind⟩ | ⟨htext, hmisconverts⟩ | hbreached)
    · obtain ⟨e, he, hescapes⟩ := text_escapes_iff.2 ⟨_, hfind⟩
      exact .inl ⟨e, by rw [he]; rfl, hescapes⟩
    · obtain ⟨e, he, hescapes⟩ := (parse_escapes_iff hparser).2 hmisconverts
      exact .inl ⟨e, by rw [htext]; exact he, hescapes⟩
    · exact .inr hbreached
  · rintro (⟨e, he, hescapes⟩ | hbreached)
    · cases htext : Backup.text files p with
      | error e' =>
        rw [htext] at he
        cases he
        obtain ⟨e', hfind⟩ := text_escapes_iff.1 ⟨e, htext, hescapes⟩
        exact .unread hfind
      | ok text =>
        rw [htext] at he
        exact .misconverted htext ((parse_escapes_iff hparser).1 ⟨e, he, hescapes⟩)
    · exact .breached hbreached

/-- A restore of a file returns a result, in which a failure is named, unless a fault escapes. -/
theorem run_escapes_iff {files : Files} {p : Path}
    (hparser : job.options.parser = "scanner" ∨ job.options.parser = "line") :
    ((∃ e, ((run files p).result job {}).1 = .error e) ↔
      LetsThrough job files p ((run files p).result job {}).2.log) ∧
    ∀ r, ((run files p).result job {}).1 = .ok r → (r.success = false ↔ r.failure ≠ none) := by
  rw [letsThrough_iff hparser]
  generalize h : (run files p).result job {} = ended
  obtain ⟨outcome, last⟩ := ended
  dsimp only
  unfold run count at h
  rw [result_read_bind, result_bind, result_modify] at h
  dsimp only at h
  rw [result_bind, result_outcome] at h
  let first : Run := { tally := { limit := job.options.maxFailureRecords } }
  obtain ⟨reports, hprepare⟩ := @result_prepare job files p first
  rw [hprepare] at h
  have hnone : ¬Breached job.database first.log := not_breached_nil _
  cases hscript : (Backup.text files p).bind job.parse with
  | error e =>
    rw [hscript] at h
    cases e
    case failure f =>
      cases h
      refine ⟨⟨by rintro ⟨e, ⟨⟩⟩, ?_⟩, by rintro r ⟨⟩; simp [Result.failed]⟩
      rintro (⟨e, ⟨⟩, hescapes⟩ | hbreached)
      · exact absurd ⟨f, rfl⟩ hescapes
      · exact absurd hbreached hnone
    all_goals
      cases h
      refine ⟨iff_of_true ⟨_, rfl⟩ (.inl ⟨_, rfl, ?_⟩), by rintro r ⟨⟩⟩
      rintro ⟨f, ⟨⟩⟩
  | ok script =>
    rw [hscript] at h
    dsimp only at h
    rw [result_bind] at h
    have hexposed := @runAll_exposed job script.statements { first with reports }
    cases hall : (runAll script.statements).result job { first with reports } with
    | mk ended run₁ =>
      rw [hall] at h hexposed
      cases ended with
      | error e =>
        cases h
        exact ⟨iff_of_true ⟨e, rfl⟩ (.inr (hexposed.2 (.inr ⟨e, rfl, trivial⟩))), by rintro r ⟨⟩⟩
      | ok r =>
        have hsuccess := runAll_success hall
        cases h
        refine ⟨⟨by rintro ⟨e, ⟨⟩⟩, ?_⟩, by rintro r ⟨⟩; exact hsuccess⟩
        rintro (⟨e, ⟨⟩, -⟩ | hbreached)
        rcases hexposed.1 hbreached with hbreached | ⟨e, ⟨⟩, -⟩
        exact absurd hbreached hnone

def Job.unplugged : Job where
  database := .refusing .sqlite fun _ r =>
    if r = .exec "INSERT INTO t VALUES (1)" then some (.system "gone") else none
  options := {}

def insertionFile : Files :=
  { contents := [({ parts := ["a"] }, Bytes.encode "INSERT INTO t VALUES (1);")] }

theorem unplugged_escapes :
    ∃ e, ((run insertionFile { parts := ["a"] }).result Job.unplugged {}).1 = .error e := by
  have hnone : ((run insertionFile { parts := ["a"] }).result Job.unplugged {}).1.toOption.isSome =
      false := by
    decide +kernel
  cases h : ((run insertionFile { parts := ["a"] }).result Job.unplugged {}).1 with
  | error e => exact ⟨e, rfl⟩
  | ok r =>
    rw [h] at hnone
    cases hnone

theorem unplugged_letsThrough :
    (Job.unplugged.options.parser = "scanner" ∨ Job.unplugged.options.parser = "line") ∧
    LetsThrough Job.unplugged insertionFile { parts := ["a"] }
      ((run insertionFile { parts := ["a"] }).result Job.unplugged {}).2.log :=
  ⟨.inl rfl, (run_escapes_iff (.inl rfl)).1.1 unplugged_escapes⟩

/-- A restore of a file that is there does not always return a result. -/
theorem not_run_returns : ¬∀ (job : Job) (files : Files) (p : Path) (bs : Bytes.Octets),
    (job.options.parser = "scanner" ∨ job.options.parser = "line") →
      files.read? p = some bs →
        ∃ r last, (run files p).result job {} = (.ok r, last) := by
  intro h
  obtain ⟨e, he⟩ := unplugged_escapes
  have hfound : insertionFile.read? { parts := ["a"] } =
      some (Bytes.encode "INSERT INTO t VALUES (1);") := by decide +kernel
  obtain ⟨r, last, hr⟩ := h Job.unplugged insertionFile { parts := ["a"] } _ (.inl rfl) hfound
  rw [hr] at he
  cases he

end Restore

end SqlFerry
