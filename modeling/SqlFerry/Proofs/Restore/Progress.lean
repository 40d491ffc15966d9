import SqlFerry.Proofs.Restore.Result

/-!
# The progress of a restore

A restore reports how far it has come. What it reports climbs: neither the percentage nor the number
of statements that were run falls from one report to a later one. The reports from the pass over the
script lie between 20 and 90 percent, and only a restore that succeeds reports 100.

A run climbs to a percentage if its reports do and none is above it, so that it may go on to any
percentage from there on. Each part of a restore takes the run from one percentage to the next.
-/

namespace SqlFerry

def Progress.handled : Progress → Int
  | restoring _ _ executed failed => executed + failed
  | exporting .. | copying .. => 0

def Progress.isExecuting (p : Progress) : Bool :=
  Text.startsWith "Executing statements".toList p.operation.toList

namespace Restore

open Work Restoring

section Climbing

variable {job : Job} {statements : List Statement} {run run' : Run} {k k' percent : Nat}
  {operation : String}

/-! ## Reports that climb -/

def Run.handled (run : Run) : Int :=
  run.tally.executed + run.tally.failed

def Run.HasPassed (run : Run) : Prop :=
  (run.reports.filter Progress.isExecuting).getLast?.map Progress.percent = some 90

/-- The reports of a run climb, none above `k` percent. -/
structure Run.Climbs (run : Run) (k : Nat) : Prop where
  ordered : run.reports.Pairwise fun a b => a.percent ≤ b.percent ∧ a.handled ≤ b.handled
  percent_le : ∀ a ∈ run.reports, a.percent ≤ k
  handled_le : ∀ a ∈ run.reports, a.handled ≤ run.handled
  executing : ∀ a ∈ run.reports, a.isExecuting = true → 20 ≤ a.percent ∧ a.percent ≤ 90
  finalizing : ∀ a ∈ run.reports, a.operation = "Finalizing restore" →
    a.percent = 95 ∧ run.HasPassed

theorem Run.hasPassed_reported (h : run.HasPassed)
    (hop : Text.startsWith "Executing statements".toList operation.toList = false) :
    (run.reported percent operation).HasPassed := by
  have hlast : Progress.isExecuting
      (.restoring percent operation run.tally.executed run.tally.failed) = false := hop
  unfold HasPassed reported
  rwa [List.filter_append, List.filter_singleton, hlast, cond_false, List.append_nil]

namespace Run.Climbs

theorem empty : Climbs {} 0 :=
  ⟨by simp, by simp, by simp, by simp, by simp⟩

theorem mono (h : run.Climbs k) (hk : k ≤ k') : run.Climbs k' :=
  { h with percent_le := fun a ha => Nat.le_trans (h.percent_le a ha) hk }

/-- What reports nothing and takes back no count may go on. -/
theorem quiet (h : run.Climbs k) (hreports : run'.reports = run.reports)
    (hhandled : run.handled ≤ run'.handled) : run'.Climbs k := by
  obtain ⟨log', reports', tally'⟩ := run'
  obtain rfl : reports' = run.reports := hreports
  exact ⟨h.ordered, h.percent_le, fun a ha => Int.le_trans (h.handled_le a ha) hhandled,
    h.executing, h.finalizing⟩

theorem logged (h : run.Climbs k) (r : Request) : (run.logged r).Climbs k :=
  h.quiet rfl (Int.le_refl _)

theorem retracted (h : run.Climbs k) (job : Job) : (run.retracted job).Climbs k := by
  unfold Run.retracted
  split
  · exact h.logged _
  · exact h

/-- A report of any percentage that was not passed yet may follow, in its phase of the restore. -/
theorem report (h : run.Climbs k) (hk : k ≤ percent)
    (hexecuting : Text.startsWith "Executing statements".toList operation.toList = true →
      20 ≤ percent ∧ percent ≤ 90)
    (hfinalizing : operation = "Finalizing restore" → percent = 95 ∧ run.HasPassed) :
    (run.reported percent operation).Climbs percent := by
  have hreports : (run.reported percent operation).reports = run.reports ++
    [.restoring percent operation run.tally.executed run.tally.failed] := rfl
  refine ⟨?_, ?_, ?_, ?_, ?_⟩
  · rw [hreports, List.pairwise_append]
    refine ⟨h.ordered, List.pairwise_singleton _ _, fun a ha b hb => ?_⟩
    rw [List.mem_singleton.1 hb]
    exact ⟨Nat.le_trans (h.percent_le a ha) hk, h.handled_le a ha⟩
  all_goals
    rw [hreports]
    refine List.forall_mem_append.2 ⟨fun a ha => ?_, List.forall_mem_singleton.2 ?_⟩
  · exact Nat.le_trans (h.percent_le a ha) hk
  · exact Nat.le_refl _
  · exact h.handled_le a ha
  · exact Int.le_refl _
  · exact h.executing a ha
  · exact hexecuting
  · intro hop
    obtain ⟨ha95, hpassed⟩ := h.finalizing a ha hop
    refine ⟨ha95, hasPassed_reported hpassed ?_⟩
    -- Once the restore is finalized, 90 percent are behind it.
    have := h.percent_le a ha
    by_contra hexec
    have := hexecuting (by simpa using hexec)
    omega
  · intro (hop : operation = "Finalizing restore")
    obtain ⟨hpercent, hpassed⟩ := hfinalizing hop
    exact ⟨hpercent, hasPassed_reported hpassed (by rw [hop]; decide)⟩

/-- A report from outside the pass may follow, if it does not say that the restore is finalized. -/
theorem report_aside (h : run.Climbs k) (operation : String) (hk : k ≤ percent)
    (hexecuting : Text.startsWith "Executing statements".toList operation.toList = false)
    (hfinalizing : operation ≠ "Finalizing restore") :
    (run.reported percent operation).Climbs percent :=
  h.report hk (fun h => Bool.noConfusion (hexecuting.symm.trans h)) fun h => absurd h hfinalizing

end Run.Climbs

/-! ## The pass over the script -/

theorem executionPercent_mono {done done' : Nat} (h : done ≤ done') (total : Nat) :
    executionPercent done total ≤ executionPercent done' total :=
  Nat.add_le_add_left (Nat.div_le_div_right (Nat.mul_le_mul_left _ h)) _

theorem executionPercent_self {total : Nat} (h : 0 < total) :
    executionPercent total total = 90 := by
  rw [executionPercent, Nat.mul_div_cancel _ h]

theorem executionPercent_le {done total : Nat} (h : done ≤ total) :
    executionPercent done total ≤ 90 := by
  rcases Nat.eq_zero_or_pos total with rfl | htotal
  · simp [executionPercent]
  · exact executionPercent_self htotal ▸ executionPercent_mono h total

theorem isExecuting_passing (done total : Nat) : Text.startsWith "Executing statements".toList
    s!"Executing statements ({done}/{total})".toList = true := by
  have hstart : "Executing statements".toList <+: "Executing statements (".toList := by decide
  rw [Text.startsWith_iff]
  simp only [String.toList_append, List.append_assoc]
  exact hstart.trans (List.prefix_append _ _)

/-- No verdict takes back a count. -/
theorem Verdict.handled_le (v : Verdict) (s : Statement) (t : Tally) :
    t.executed + t.failed ≤ (v.tally s t).executed + (v.tally s t).failed := by
  cases v with
  | unwanted => exact Int.le_refl _
  | done => simp only [Verdict.tally]; omega
  | failed message =>
    simp only [Verdict.tally, Tally.recordFailure]
    split <;> simp only <;> omega

theorem Run.Climbs.passing (job : Job) {done total : Nat}
    (h : run.Climbs (executionPercent done total)) (hdone : done < total) :
    (run.passing job total (done + 1)).Climbs (executionPercent (done + 1) total) := by
  have hle := executionPercent_mono (Nat.le_succ done) total
  unfold Run.passing
  split
  · refine h.report hle (fun _ => ⟨Nat.le_add_right .., executionPercent_le hdone⟩) fun hop => ?_
    have hexecuting := isExecuting_passing (done + 1) total
    rw [hop] at hexecuting
    exact absurd hexecuting (by decide)
  · exact h.mono hle

theorem pass_climbs (job : Job) {total done : Nat} (htotal : done + statements.length = total)
    (hrun : run.Climbs (executionPercent done total)) :
    ((pass total done statements).result job run).2.Climbs 90 := by
  induction statements generalizing done run with
  | nil => exact hrun.mono (executionPercent_le (by omega))
  | cons s rest ih =>
    rw [List.length_cons] at htotal
    have hle := executionPercent_le (Nat.le_of_lt (show done < total by omega))
    rw [result_pass_cons]
    cases (judge job s).result job.database run.log with
    | mk outcome log =>
      cases outcome with
      | error e => exact (hrun.mono hle).quiet rfl (Int.le_refl _)
      | ok v =>
        have hcounted : Run.Climbs { run with tally := v.tally s run.tally } _ :=
          hrun.quiet rfl (v.handled_le s run.tally)
        dsimp only
        split
        · exact (hcounted.mono hle).quiet rfl (Int.le_refl _)
        · have hpassing := hcounted.passing job (show done < total by omega)
          refine ih (by omega) (hpassing.quiet rfl ?_)
          unfold Run.passing
          split <;> exact Int.le_refl _

/-- A pass that comes to its end says so last. -/
theorem pass_ends {total done : Nat} (htotal : done + statements.length = total)
    (hne : statements ≠ [])
    (h : (pass total done statements).result job run = (.ok none, run')) :
    ∃ a, run'.reports.getLast? = some a ∧ a.isExecuting = true ∧ a.percent = 90 := by
  induction statements generalizing done run with
  | nil => exact absurd rfl hne
  | cons s rest ih =>
    rw [List.length_cons] at htotal
    rw [result_pass_cons] at h
    cases hj : (judge job s).result job.database run.log with
    | mk outcome log =>
      rw [hj] at h
      cases outcome with
      | error e => cases h
      | ok v =>
        dsimp only at h
        split at h
        · cases h
        · cases rest with
          | nil =>
            obtain rfl : done + 1 = total := htotal
            rw [Run.passing, if_pos (by simp)] at h
            cases h
            exact ⟨_, List.getLast?_concat, isExecuting_passing _ _,
              executionPercent_self (Nat.succ_pos done)⟩
          | cons s' rest => exact ih (by omega) (by simp) h

theorem pass_hasPassed {total done : Nat} (htotal : done + statements.length = total)
    (hne : statements ≠ [])
    (h : (pass total done statements).result job run = (.ok none, run')) : run'.HasPassed := by
  obtain ⟨a, hlast, hexecuting, hpercent⟩ := pass_ends htotal hne h
  obtain ⟨init, hinit⟩ := List.getLast?_eq_some_iff.1 hlast
  unfold Run.HasPassed
  rw [hinit, List.filter_append, List.filter_singleton, hexecuting, cond_true,
    List.getLast?_concat, Option.map_some, hpercent]

/-! ## Around the pass -/

def Run.Quiet (run run' : Run) : Prop :=
  run'.reports = run.reports ∧ run'.handled = run.handled

theorem talk_quiet {α : Type} (t : Talk α) : Follows Run.Quiet job (talk t) :=
  fun _ => .single ⟨rfl, rfl⟩

theorem replay_quiet (s : Statement) : Follows Run.Quiet job (replay s) := by
  refine follows_of_read <| (talk_quiet _).bind fun r => ?_
  cases r <;> exact .modify fun _ => ⟨rfl, rfl⟩

theorem restoreSetting_quiet (sql : String) : Follows Run.Quiet job (restoreSetting sql) := by
  refine follows_of_read <| (talk_quiet _).bind fun r => ?_
  cases r with
  | none => exact .pure _
  | some message => exact .throw _

theorem finalize_climbs (hrun : run.Climbs k) (hk : k ≤ 95) (hpassed : run.HasPassed) :
    ((finalize statements).result job run).2.Climbs 95 := by
  have hreport : (run.reported 95 "Finalizing restore").Climbs 95 :=
    hrun.report hk (fun hexecuting => absurd hexecuting (by decide)) fun _ => ⟨rfl, hpassed⟩
  have hreplay : Follows Run.Quiet job (replaySequences statements) :=
    follows_of_read <| .forM fun s _ => replay_quiet s
  have hteardown : Follows Run.Quiet job (job.session.teardown.forM restoreSetting) :=
    .forM fun sql _ => restoreSetting_quiet sql
  have hkeep (run run' : Run) (hquiet : run.Quiet run') (h : run.Climbs 95) : run'.Climbs 95 :=
    h.quiet hquiet.1 (Int.le_of_eq hquiet.2.symm)
  unfold finalize
  rw [result_read_bind, result_bind, result_report]
  dsimp only
  split
  · exact (hreplay.bind fun _ => hteardown).keeps hkeep hreport
  · exact hteardown.keeps hkeep hreport

theorem body_climbs (hne : statements ≠ []) (hrun : run.Climbs 15) :
    ((body statements).result job run).2.Climbs 95 := by
  have hbegun : (run.reported 15 "Preparing database session").Climbs 15 :=
    hrun.report_aside _ (Nat.le_refl _) (by decide) (by decide)
  rw [result_body]
  dsimp only
  cases (prepareSession job).result job.database run.log with
  | mk prepared log =>
    cases prepared with
    | error e => exact (hbegun.mono (by omega)).quiet rfl (Int.le_refl _)
    | ok _ =>
      dsimp only
      have hstart : Run.Climbs { run.reported 15 "Preparing database session" with log }
          (executionPercent 0 statements.length) :=
        (hbegun.mono (by simp [executionPercent])).quiet rfl (Int.le_refl _)
      have hpass := pass_climbs job (Nat.zero_add _) hstart
      cases hr : (pass statements.length 0 statements).result job
          { run.reported 15 "Preparing database session" with log } with
      | mk r run₁ =>
        rw [hr] at hpass
        cases r with
        | error e => exact hpass.mono (by omega)
        | ok stopped =>
          cases stopped with
          | some s => exact hpass.mono (by omega)
          | none =>
            exact finalize_climbs hpass (by omega) (pass_hasPassed (Nat.zero_add _) hne hr)

theorem inTransaction_climbs (job : Job) {work : Restoring (Option Statement)} (hk : k ≤ k')
    (hwork : ∀ run : Run, run.Climbs k → (work.result job run).2.Climbs k') (hrun : run.Climbs k) :
    ((inTransaction work).result job run).2.Climbs k' := by
  cases hjob : job.options.inTransaction with
  | false =>
    rw [result_inTransaction_of_not hjob]
    exact hwork run hrun
  | true =>
    have hstarted := hwork _ (hrun.logged .start)
    have hbracketed := @inTransaction_bracketed job work run hjob
    generalize (inTransaction work).result job run = outcome at hbracketed ⊢
    obtain ⟨r, run'⟩ := outcome
    dsimp only at hbracketed ⊢
    cases hbracketed with
    | unbegun e _ => exact (hrun.logged _).mono hk
    | committed _ h _ =>
      rw [h] at hstarted
      exact hstarted.logged _
    | uncommitted e _ h _ hend =>
      rw [h] at hstarted
      rw [hend]
      exact (hstarted.logged _).retracted job
    | stopped _ h _ =>
      rw [h] at hstarted
      exact hstarted.logged _
    | failed _ h hend =>
      rw [h] at hstarted
      rw [hend]
      exact hstarted.retracted job

theorem Executed.climbs {r : Except Fault (Option Statement)}
    (h : Executed job statements run r run') (hne : statements ≠ []) (hrun : run.Climbs 15) :
    run'.Climbs 95 := by
  have hwork := inTransaction_climbs job (show 15 ≤ 95 by omega)
    (fun _ => body_climbs hne) (hrun.logged .connect)
  cases h with
  | unconnected f _ => exact (hrun.logged _).mono (by omega)
  | closed _ h =>
    rw [h] at hwork
    exact hwork.logged _
  | unclosed t _ h =>
    rw [h] at hwork
    exact hwork.logged _

end Climbing

/-! ## The whole restore -/

/-- What a restore comes to and what it has reported: it climbs, it has come to the end of a pass
over the script before it is finalized, and it reports 100 percent exactly if it succeeds. -/
structure Advances (outcome : Except Fault Result) (reports : List Progress) : Prop where
  ordered : reports.Pairwise fun a b => a.percent ≤ b.percent ∧ a.handled ≤ b.handled
  percent_le : ∀ a ∈ reports, a.percent ≤ 100
  executing : ∀ a ∈ reports, a.isExecuting = true → 20 ≤ a.percent ∧ a.percent ≤ 90
  finalizing : (∃ a ∈ reports, a.operation = "Finalizing restore") →
    (reports.filter Progress.isExecuting).getLast?.map Progress.percent = some 90
  complete : (∃ a ∈ reports, a.percent = 100) ↔ ∃ r, outcome = .ok r ∧ r.success = true

section Advances

variable {run : Run} {k : Nat}

theorem Run.Climbs.advances {outcome : Except Fault Result} (h : run.Climbs 95)
    (hfailed : ∀ r, outcome = .ok r → r.success = false) : Advances outcome run.reports := by
  refine ⟨h.ordered, (h.mono (by omega)).percent_le, h.executing,
    fun ⟨a, ha, hop⟩ => (h.finalizing a ha hop).2, iff_of_false ?_ ?_⟩
  · rintro ⟨a, ha, hpercent⟩
    have := h.percent_le a ha
    omega
  · rintro ⟨r, hr, hsuccess⟩
    exact Bool.false_ne_true ((hfailed r hr).symm.trans hsuccess)

theorem Run.Climbs.advances_reported {r : Result} (h : run.Climbs k) (operation : String)
    (hk : k ≤ 100)
    (hexecuting : Text.startsWith "Executing statements".toList operation.toList = false)
    (hfinalizing : operation ≠ "Finalizing restore") (hr : r.success = true) :
    Advances (.ok r) (run.reported 100 operation).reports := by
  have hreport : (run.reported 100 operation).Climbs 100 :=
    h.report_aside operation hk hexecuting hfinalizing
  refine ⟨hreport.ordered, hreport.percent_le, hreport.executing,
    fun ⟨a, ha, hop⟩ => (hreport.finalizing a ha hop).2, iff_of_true ?_ ⟨r, rfl, hr⟩⟩
  exact ⟨_, List.mem_append_right _ (List.mem_singleton_self _), rfl⟩

theorem runAll_advances (job : Job) (statements : List Statement) (hrun : run.Climbs 15) :
    Advances ((runAll statements).result job run).1
      ((runAll statements).result job run).2.reports := by
  have hexpecting : (run.expecting job statements).Climbs 15 := hrun.quiet rfl (Int.le_refl _)
  unfold runAll
  rw [result_read_bind, result_bind, count, result_modify]
  dsimp only
  change Advances (result _ job (run.expecting job statements)).1
    (result _ job (run.expecting job statements)).2.reports
  cases statements with
  | nil =>
    exact hexpecting.advances_reported "Restore completed (no statements)" (by omega) (by decide)
      (by decide) rfl
  | cons s rest =>
    rw [if_neg (by simp), result_bind, result_outcome]
    have hexecuted := (@execute_executed job (s :: rest) _).climbs (by simp) hexpecting
    cases hr : (execute (s :: rest)).result job (run.expecting job (s :: rest)) with
    | mk outcome run₁ =>
      rw [hr] at hexecuted
      cases outcome with
      | ok stopped =>
        cases stopped with
        | none =>
          exact hexecuted.advances_reported "Restore completed" (by omega) (by decide) (by decide)
            rfl
        | some s =>
          refine hexecuted.advances ?_
          rintro r ⟨⟩
          rfl
      | error e =>
        cases e
        case failure f =>
          have hsettled : Run.Climbs { run₁ with tally := run₁.tally.settle } 95 :=
            hexecuted.quiet rfl (Int.le_refl _)
          refine hsettled.advances ?_
          rintro r ⟨⟩
          rfl
        all_goals
          refine hexecuted.advances ?_
          rintro r ⟨⟩

theorem prepare_climbs (job : Job) (files : Files) (p : Path) (hrun : run.Climbs 0) :
    ((prepare files p).result job run).2.Climbs 15 := by
  have hread : (run.reported 5 "Reading backup file").Climbs 5 :=
    hrun.report_aside _ (by omega) (by decide) (by decide)
  have hparse := hread.report_aside "Parsing statements" (show 5 ≤ 10 by omega) (by decide)
    (by decide)
  unfold prepare
  rw [result_read_bind, result_bind, result_report]
  dsimp only
  rw [result_bind, result_ofOutcome]
  cases Backup.text files p with
  | error e => exact hread.mono (by omega)
  | ok text =>
    dsimp only
    rw [result_bind, result_report]
    dsimp only
    rw [result_ofOutcome]
    exact hparse.mono (by omega)

end Advances

/-- Whatever a restore of a file meets with, it only advances. A pass over a script that comes to
its end has reported 90 percent last. -/
theorem run_advances (job : Job) (files : Files) (p : Path) :
    Advances ((run files p).result job {}).1 ((run files p).result job {}).2.reports ∧
    ∀ (statements : List Statement) (before after : Run), statements ≠ [] →
      (pass statements.length 0 statements).result job before = (.ok none, after) →
      ∃ a, after.reports.getLast? = some a ∧ a.isExecuting = true ∧ a.percent = 90 := by
  refine ⟨?_, fun statements before after hne h => pass_ends (Nat.zero_add _) hne h⟩
  have hempty : Run.Climbs { tally := { limit := job.options.maxFailureRecords } } 0 :=
    Run.Climbs.empty.quiet rfl (Int.le_refl _)
  have hprepare := prepare_climbs job files p hempty
  unfold run count
  rw [result_read_bind, result_bind, result_modify]
  dsimp only
  rw [result_bind, result_outcome]
  cases hr : (prepare files p).result job
      { tally := { limit := job.options.maxFailureRecords } } with
  | mk prepared run₁ =>
    rw [hr] at hprepare
    cases prepared with
    | error e =>
      cases e
      case failure f =>
        refine (hprepare.mono (show 15 ≤ 95 by omega)).advances ?_
        rintro r ⟨⟩
        rfl
      all_goals
        refine (hprepare.mono (show 15 ≤ 95 by omega)).advances ?_
        rintro r ⟨⟩
    | ok script =>
      have hadvances := runAll_advances job script.statements hprepare
      dsimp only
      rw [result_bind]
      cases hr : (runAll script.statements).result job run₁ with
      | mk outcome run₂ =>
        rw [hr] at hadvances
        cases outcome with
        | error e => exact hadvances
        | ok r =>
          exact { hadvances with complete := hadvances.complete.trans (by simp) }

theorem three_statements_advance :
    let refuses (_ : Log) (r : Request) : Option Trouble :=
      if r = .exec "b" then some (.engine "no") else none
    let job : Job :=
      { database := .refusing .sqlite refuses, options := { progressInterval := 2 } }
    let p : Path := { parts := ["abc.sql"] }
    let files : Files := { contents := [(p, Bytes.encode "a; b; c;")] }
    let statements : List Statement := [.plain 0 "a", .plain 1 "b", .plain 2 "c"]
    ((run files p).result job {}).2.reports.map (fun a => (a.percent, a.handled)) =
      [(5, 0), (10, 0), (15, 0), (66, 2), (90, 3), (95, 3), (100, 3)] ∧
    Advances ((run files p).result job {}).1 ((run files p).result job {}).2.reports ∧
    ∃ after a, (pass 3 0 statements).result job {} = (.ok none, after) ∧
      after.reports.getLast? = some a ∧ a.isExecuting = true ∧ a.percent = 90 := by
  intro refuses job p files statements
  refine ⟨by decide +kernel, (run_advances job files p).1, ?_⟩
  have hpass : ((pass 3 0 statements).result job {}).1.toOption.map (·.isNone) = some true := by
    decide +kernel
  obtain ⟨stopped, after, hafter, hnone⟩ := exists_ok_of_map_eq_some hpass
  obtain rfl := Option.isNone_iff_eq_none.1 hnone
  obtain ⟨a, ha⟩ := (run_advances job files p).2 statements {} after (by simp [statements]) hafter
  exact ⟨after, a, hafter, ha⟩

end Restore

end SqlFerry
