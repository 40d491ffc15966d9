import SqlFerry.Proofs.Work
import SqlFerry.Restore.Run

/-!
# What a restore does step by step

A restore sends requests, reports and counts. Each part of it sends only certain requests: the
statements that it runs, and around each of them a savepoint, or a commit where there is no
transaction. What comes after the script counts none of its statements.
-/

namespace SqlFerry

def Database.refusing (d : Dialect) (refuses : Log → Request → Option Trouble) : Database :=
  { dialect := d, refuses, rows := fun _ _ => [], catalog := {} }

def Statement.plain (index : Nat) (text : String) : Statement :=
  { text, index, start := 0, stop := text.length, line := index + 1, terminator := some ";"
    inRoutine := false }

namespace Restore

open Work

variable {A : Request → Prop} {T : Tally → Tally → Prop} {job : Job}

def Run.logged (run : Run) (r : Request) : Run :=
  { run with log := run.log ++ [r] }

def Run.reported (run : Run) (percent : Nat) (operation : String) : Run :=
  { run with reports := run.reports ++
    [.restoring percent operation run.tally.executed run.tally.failed] }

/-- One step of a restore: a request of the class `A`, a report, or a change of the tally by `T`. -/
inductive Step (A : Request → Prop) (T : Tally → Tally → Prop) (run : Run) : Run → Prop where
  | request {r : Request} (h : A r) : Step A T run (run.logged r)
  | report (reports : List Progress) : Step A T run { run with reports }
  | count {tally : Tally} (h : T run.tally tally) : Step A T run { run with tally }

namespace Step

variable {run run' : Run}

theorem logs (h : Step A T run run') : Logs Run.log A run run' := by
  cases h with
  | request h => exact .inr ⟨_, h, rfl⟩
  | report reports => exact .inl rfl
  | count h => exact .inl rfl

theorem widen {T' : Tally → Tally → Prop} (hT : ∀ t t', T t t' → T' t t')
    (h : Step A T run run') : Step A T' run run' := by
  cases h with
  | request h => exact .request h
  | report reports => exact .report reports
  | count h => exact .count (hT _ _ h)

end Step

/-- Sequences are counted apart from the statements of the script. -/
def Tally.Aside (t t' : Tally) : Prop :=
  ∃ reset failed, t' = { t with sequencesReset := reset, sequenceFailures := failed }

namespace Tally.Aside

theorem refl (t : Tally) : t.Aside t :=
  ⟨_, _, rfl⟩

theorem trans {t t' t'' : Tally} (h : t.Aside t') (h' : t'.Aside t'') : t.Aside t'' := by
  obtain ⟨_, _, rfl⟩ := h
  obtain ⟨reset, failed, rfl⟩ := h'
  exact ⟨reset, failed, rfl⟩

end Tally.Aside

/-! ## Talking to the database -/

def framing (inTransaction : Bool) : List Request :=
  if inTransaction then [.savepoint, .release, .rollbackTo] else [.commit, .rollback]

section Talk

variable {db : Database} {inTransaction : Bool}

theorem request_follows (hf : ∀ r ∈ framing inTransaction, A r) {sql : String}
    (h : A (.exec sql)) : Follows (Adds A) db (request inTransaction sql) := by
  cases inTransaction with
  | false =>
    exact (Talk.send_follows h).bind fun _ => Talk.send_follows (hf .commit (by simp [framing]))
  | true =>
    refine .bind .read fun place => ?_
    split
    · exact .inSavepoint (fun r hr => Talk.send_follows (hf r hr)) (Talk.send_follows h)
    · exact Talk.send_follows h

theorem attempt_follows (hf : ∀ r ∈ framing inTransaction, A r) {sql : String}
    (h : A (.exec sql)) : Follows (Adds A) db (attempt inTransaction sql) := by
  refine (request_follows hf h).outcome.bind fun r => ?_
  cases r with
  | ok _ => exact .pure _
  | error e =>
    cases e
    case engine text =>
      cases inTransaction with
      | false =>
        exact (Talk.send_follows (hf .rollback (by simp [framing]))).bind fun _ => .pure _
      | true => exact .pure _
    all_goals exact .throw _

theorem refusal?_follows (hf : ∀ r ∈ framing inTransaction, A r) {sql : String}
    (h : A (.exec sql)) : Follows (Adds A) db (refusal? inTransaction sql) :=
  (attempt_follows hf h).bind fun _ => .pure _

theorem judge_follows (hf : ∀ r ∈ framing job.options.inTransaction, A r) {s : Statement}
    (h : job.concerns s = true → job.denial? s = none → A (.exec s.text)) :
    Follows (Adds A) db (judge job s) := by
  unfold judge
  split
  · exact .pure _
  · next hconcerns =>
    cases hd : job.denial? s with
    | some reason => exact .pure _
    | none =>
      refine (attempt_follows hf (h (by simpa using hconcerns) hd)).bind fun r => ?_
      cases r <;> exact .pure _

theorem prepareSession_follows (hf : ∀ r ∈ framing job.options.inTransaction, A r)
    (h : ∀ sql ∈ job.session.setup, A (.exec sql)) : Follows (Adds A) db (prepareSession job) :=
  .forM fun sql hs => (attempt_follows hf (h sql hs)).bind fun _ => .pure _

end Talk

/-! ## Parts of a restore -/

theorem talk_follows {α : Type} {t : Talk α} (h : Follows (Adds A) job.database t) :
    Follows (Step A T) job (Restoring.talk t) := by
  refine h.within (fun _ => rfl) fun run log log' hlog => ?_
  obtain ⟨r, hr, rfl⟩ := hlog
  exact .request hr

theorem report_follows (percent : Nat) (operation : String) :
    Follows (Step A T) job (Restoring.report percent operation) :=
  .modify fun _ => .report _

theorem count_follows {f : Tally → Tally} (h : ∀ t, T t (f t)) :
    Follows (Step A T) job (Restoring.count f) :=
  .modify fun run => .count (h run.tally)

/-- Work that reads the job goes on with this job. -/
theorem follows_of_read {R : Run → Run → Prop} {α : Type} {f : Job → Restoring α}
    (h : Follows R job (f job)) : Follows R job (read >>= f) :=
  .bind_of .read fun _ _ hr => by cases hr; exact h

section Parts

variable (hf : ∀ r ∈ framing job.options.inTransaction, A r)
include hf

theorem perform_follows {s : Statement}
    (h : job.concerns s = true → job.denial? s = none → A (.exec s.text)) :
    Follows (Step A fun _ _ => True) job (perform s) :=
  follows_of_read <| (talk_follows (judge_follows hf h)).bind fun _ =>
    (count_follows fun _ => trivial).bind fun _ => .pure _

theorem pass_follows (total done : Nat) {statements : List Statement}
    (h : ∀ s ∈ statements, job.concerns s = true → job.denial? s = none → A (.exec s.text)) :
    Follows (Step A fun _ _ => True) job (pass total done statements) := by
  induction statements generalizing done with
  | nil => exact .pure _
  | cons s rest ih =>
    have hrest (done : Nat) := ih done fun s hs => h s (by simp [hs])
    unfold pass
    refine follows_of_read <| (perform_follows hf (h s (by simp))).bind fun failed => ?_
    split
    · exact (count_follows fun _ => trivial).bind fun _ => .pure _
    · dsimp only
      split
      · exact (report_follows _ _).bind fun _ => hrest _
      · exact hrest _

theorem replay_follows {s : Statement} (h : A (.exec s.text)) :
    Follows (Step A Tally.Aside) job (replay s) := by
  refine follows_of_read <| (talk_follows (refusal?_follows hf h)).bind fun r => ?_
  cases r <;> exact count_follows fun _ => ⟨_, _, rfl⟩

theorem replaySequences_follows {statements : List Statement}
    (h : ∀ s ∈ job.replayed statements, A (.exec s.text)) :
    Follows (Step A Tally.Aside) job (replaySequences statements) :=
  follows_of_read <| .forM fun s hs => replay_follows hf (h s hs)

theorem restoreSetting_follows {sql : String} (h : A (.exec sql)) :
    Follows (Step A T) job (restoreSetting sql) := by
  refine follows_of_read <| (talk_follows (refusal?_follows hf h)).bind fun r => ?_
  cases r with
  | none => exact .pure _
  | some message => exact .throw _

theorem finalize_follows {statements : List Statement}
    (hteardown : ∀ sql ∈ job.session.teardown, A (.exec sql))
    (hreplay : job.options.resetSequences = true →
      ∀ s ∈ job.replayed statements, A (.exec s.text)) :
    Follows (Step A Tally.Aside) job (finalize statements) := by
  refine follows_of_read <| (report_follows _ _).bind fun _ => ?_
  have hlast : Follows (Step A Tally.Aside) job (job.session.teardown.forM restoreSetting) :=
    .forM fun sql hs => restoreSetting_follows hf (hteardown sql hs)
  dsimp only
  split
  · next hreset => exact (replaySequences_follows hf (hreplay hreset)).bind fun _ => hlast
  · exact hlast

/-- All that runs on the connection asks for the statements of the session, for the wanted
statements of the script that are not denied, and, where the pass over the script comes to its end,
for those that set sequences. -/
theorem body_follows {statements : List Statement}
    (hsession : ∀ sql ∈ job.session.setup ++ job.session.teardown, A (.exec sql))
    (hscript : ∀ s ∈ statements, job.concerns s = true → job.denial? s = none → A (.exec s.text))
    (hreplay : job.options.resetSequences = true →
      (∃ run, ((pass statements.length 0 statements).result job run).1 = .ok none) →
      ∀ s ∈ job.replayed statements, A (.exec s.text)) :
    Follows (Step A fun _ _ => True) job (body statements) := by
  refine (report_follows _ _).bind fun _ => follows_of_read ?_
  have hprepare : Follows (Adds A) job.database (prepareSession job) :=
    prepareSession_follows hf fun sql hs => hsession sql (by simp [hs])
  refine (talk_follows hprepare).bind fun _ => ?_
  refine (pass_follows hf _ _ hscript).bind_of fun stopped run hr => ?_
  cases stopped with
  | some s => exact .pure _
  | none =>
    have hlast := finalize_follows hf (fun sql hs => hsession sql (by simp [hs]))
      fun hreset => hreplay hreset ⟨run, hr⟩
    exact (hlast.mono fun _ _ => Step.widen fun _ _ _ => trivial).bind fun _ => .pure _

end Parts

end Restore

end SqlFerry
