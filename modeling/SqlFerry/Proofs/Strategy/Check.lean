import SqlFerry.Proofs.Backup.Script
import SqlFerry.Proofs.Restore.Teardown
import SqlFerry.Strategy.Check
import SqlFerry.Strategy.Restoring

/-!
# What the check of a script foretells

A check splits a script in the dialect of its format: the one of its header, else the one whose
marks it bears. A restore splits it in the dialect of its header, else in that of the database. So
the check foretells what the restore makes of the script exactly if both dialects split it into as
many statements, as long as no fault escapes the restore.
-/

namespace SqlFerry

open Work Backup

/-- A fault that can end the run of statements: trouble with the database, or a failure for another
reason than a script that cannot be split. -/
def Fault.IsOfRun (e : Fault) : Prop :=
  e.IsTrouble ∨ ∃ f : Failure, e = .failure f ∧ f.kind ≠ .parseError

theorem Fault.IsOfRun.of_cause {cause : Failure.Cause} {because : Option (String × String)}
    (h : cause.kind ≠ .parseError) : Fault.IsOfRun (.failure { cause, because }) :=
  .inr ⟨_, rfl, h⟩

namespace Restore

open Restoring

variable {job : Job} {statements : List Statement}

/-! ## What the run of statements fails with -/

theorem send_isOfRun (r : Request) : Throws Fault.IsOfRun job (send r) :=
  .within <| Talk.send_throws (fun t => .inl ⟨t, rfl⟩) r

theorem restoreSetting_isOfRun (sql : String) : Throws Fault.IsOfRun job (restoreSetting sql) := by
  have hasked : Throws Fault.IsTrouble job
      (talk (refusal? job.options.inTransaction sql)) :=
    .within <| (attempt_throws _ _).bind fun _ => .pure _
  refine .read_bind <| (hasked.mono fun _ => .inl).bind fun r => ?_
  cases r with
  | none => exact .pure _
  | some message => exact .throw (.of_cause (by simp [Failure.Cause.kind]))

theorem body_isOfRun (statements : List Statement) :
    Throws Fault.IsOfRun job (body statements) := by
  intro run e he
  have hscript := @restoreScript_throws job statements run
  rw [result_body_eq] at he
  generalize (restoreScript statements).result job run = scripted at hscript he
  obtain ⟨r, run₁⟩ := scripted
  cases r with
  | error e' =>
    cases he
    exact .inl (hscript e rfl)
  | ok stopped =>
    cases stopped with
    | some s => cases he
    | none =>
      have hsettings : Throws Fault.IsOfRun job (restoreSettings job.session.teardown) :=
        .forM fun sql _ => restoreSetting_isOfRun sql
      dsimp only at he
      cases hr : ((restoreSettings job.session.teardown).result job run₁).1 with
      | error e' =>
        rw [hr] at he
        cases he
        exact hsettings run₁ e hr
      | ok _ =>
        rw [hr] at he
        cases he

theorem sendOrFail_isOfRun (r : Request) (reason : String → String) :
    Throws Fault.IsOfRun job (sendOrFail r reason) := by
  refine (send_isOfRun r).outcome_bind (fun _ => .pure _) fun e he => ?_
  cases e
  case engine text => exact .read_bind <| .throw (.of_cause (by simp [Failure.Cause.kind]))
  all_goals exact .throw he

theorem retract_isOfRun {e : Fault} (he : e.IsOfRun) : Throws Fault.IsOfRun job (retract e) := by
  have hget : Throws Fault.IsOfRun job (get : Restoring Run) := by rintro run _ ⟨⟩
  refine .read_bind (hget.bind fun run => ?_)
  split
  · exact (send_isOfRun _).bind fun _ => .throw he
  · exact .throw he

theorem inTransaction_isOfRun {work : Restoring (Option Statement)}
    (hwork : Throws Fault.IsOfRun job work) : Throws Fault.IsOfRun job (inTransaction work) := by
  refine .read_bind ?_
  split
  · exact hwork
  · refine (sendOrFail_isOfRun _ _).bind fun _ => ?_
    have hsteps : Throws Fault.IsOfRun job (do
        let stopped ← work
        if stopped.isNone then sendOrFail .commit fun text => "commit failed: " ++ clipped text
        return stopped) := by
      refine hwork.bind fun stopped => ?_
      split
      · exact (sendOrFail_isOfRun _ _).bind fun _ => .pure _
      · exact .pure _
    refine hsteps.outcome_bind (fun stopped => ?_) fun e he => ?_
    · cases stopped with
      | none => exact .pure _
      | some s => exact (send_isOfRun _).bind fun _ => .pure _
    · exact retract_isOfRun he

theorem execute_isOfRun (statements : List Statement) :
    Throws Fault.IsOfRun job (execute statements) := by
  have hconnect : Throws Fault.IsOfRun job connect := by
    refine (send_isOfRun .connect).outcome_bind (fun _ => .pure _) fun e _ => ?_
    exact .read_bind <| .throw (.of_cause (by simp [Failure.Cause.kind]))
  refine hconnect.bind fun _ => ?_
  refine (inTransaction_isOfRun (body_isOfRun statements)).outcome_bind (fun a => ?_) fun e he => ?_
  · exact (send_isOfRun _).bind fun _ => .pure _
  · exact (send_isOfRun _).bind fun _ => .throw he

/-- A run of statements returns a result that is not about the text of a script, or it ends in
trouble with the database. -/
theorem runAll_isOfRun {run run' : Run} {r : Except Fault Result}
    (h : (runAll statements).result job run = (r, run')) :
    (∃ result, r = .ok result ∧ ∀ f ∈ result.failure, f.kind ≠ .parseError) ∨
      ∃ e, r = .error e ∧ e.IsTrouble := by
  unfold runAll at h
  rw [result_read_bind, result_bind, count, result_modify] at h
  dsimp only at h
  split at h
  · cases h
    exact .inl ⟨_, rfl, by simp⟩
  · rw [result_bind, result_outcome] at h
    have hthrows := @execute_isOfRun job statements
    dsimp only at h
    cases hr : (execute statements).result job _ with
    | mk outcome run₁ =>
      have he := fun e h => hthrows _ e ((congrArg Prod.fst hr).trans h)
      rw [hr] at h
      cases outcome with
      | ok stopped =>
        cases stopped with
        | none =>
          cases h
          exact .inl ⟨_, rfl, by simp⟩
        | some s =>
          cases h
          refine .inl ⟨_, rfl, ?_⟩
          simp [Result.failed, Restore.stopped, Failure.kind, Failure.Cause.kind]
      | error e =>
        have hofRun := he e rfl
        cases e
        case failure f =>
          cases h
          refine .inl ⟨_, rfl, ?_⟩
          obtain ⟨t, ht⟩ | ⟨f', ⟨⟩, hf⟩ := hofRun
          · cases t <;> cases ht
          · simpa [Result.failed] using hf
        all_goals
          cases h
          exact .inr ⟨_, rfl, hofRun.resolve_right (by rintro ⟨f, ⟨⟩, -⟩)⟩

/-! ## Splitting a script -/

/-- The dialect in which a restore into a database of the dialect `own` splits a script. -/
def splitDialect (own : Dialect) (text : Text.Chars) : Dialect :=
  ((Header.ofText? text).bind (·.dialect)).getD own

theorem scanner_error {d : Option Dialect} {text : Text.Chars} {e : Fault}
    (h : Splitter.Kind.scanner.statements d text = .error e) :
    ∃ f : Failure, e = .failure f ∧ f.kind = .parseError := by
  unfold Splitter.Kind.statements Ddl.ofSplitting at h
  dsimp only at h
  split at h
  · cases h
  · cases h
    exact ⟨_, rfl, rfl⟩

/-- A script whose header asks for no conversion is run as it is split. -/
theorem parse_unconverted {text : Text.Chars} (hparser : job.options.parser = "scanner")
    (hheader : ∀ h ∈ Header.ofText? text, h.needsConversion = false) :
    (job.parse text).map (·.statements) =
      Splitter.Kind.scanner.statements (some (splitDialect job.database.dialect text)) text := by
  have hplain : (Header.ofText? text).filter
      (fun h => h.needsConversion && job.options.convert) = none := by
    rw [Option.filter_eq_none_iff]
    intro h hh
    rw [hheader h hh]
    simp
  have hnamed : Splitter.Kind.named job.options.parser = .ok .scanner := by
    rw [hparser]
    rfl
  unfold Job.parse splitDialect
  dsimp only
  rw [hnamed]
  dsimp only [bind, Except.bind]
  generalize Splitter.Kind.scanner.statements _ text = found
  cases found with
  | error e => rfl
  | ok found =>
    dsimp only
    rw [Job.convert, hplain]
    rfl

/-- A restore of a file makes its script ready and runs that. -/
theorem result_run (files : Files) (p : Path) (run : Run) :
    ∃ reports, let first : Run :=
        { run with reports, tally := { run.tally with limit := job.options.maxFailureRecords } }
      (Restore.run files p).result job run =
        match (Backup.text files p).bind job.parse with
        | .error (.failure f) =>
          (.ok { Result.failed f with inputPath := some p.toText, tally := first.tally }, first)
        | .error e => (.error e, first)
        | .ok script =>
          ((((runAll script.statements).result job first).1.map fun r =>
            { r with
              inputPath := some p.toText
              sourceDialect := some script.source
              converted := script.converted
              warnings := script.warnings ++ r.warnings }),
            ((runAll script.statements).result job first).2) := by
  obtain ⟨reports, hprepare⟩ := @result_prepare job files p
    { run with tally := { run.tally with limit := job.options.maxFailureRecords } }
  refine ⟨reports, ?_⟩
  unfold Restore.run count
  rw [result_read_bind, result_bind, result_modify]
  dsimp only
  rw [result_bind, result_outcome, hprepare]
  cases (Backup.text files p).bind job.parse with
  | error e => cases e <;> rfl
  | ok script =>
    dsimp only
    rw [result_bind]
    cases (runAll script.statements).result job _ with
    | mk r last => cases r <;> rfl

inductive ComesTo (db : Database) (log : Log) :
    (split : Except Fault (List Statement)) → Log → Except Fault Result → Prop where
  | unsplit {e : Fault} {r : Result} {f : Failure} (hf : r.failure = some f)
      (hkind : f.kind = .parseError) : ComesTo db log (.error e) log (.ok r)
  | broken {found : List Statement} {log' : Log} {e : Fault} (he : e.IsTrouble)
      (hlog : Breached db log') : ComesTo db log (.ok found) log' (.error e)
  | returned {found : List Statement} {log' : Log} {r : Result}
      (hlog : Breached db log' ↔ Breached db log) (htotal : r.tally.total = found.length)
      (hkind : ∀ f ∈ r.failure, f.kind ≠ .parseError) : ComesTo db log (.ok found) log' (.ok r)

theorem run_comesTo {files : Files} {p : Path} {text : Text.Chars} {run : Run}
    (hparser : job.options.parser = "scanner") (htext : Backup.text files p = .ok text)
    (hheader : ∀ h ∈ Header.ofText? text, h.needsConversion = false)
    (hrun : run.tally = { limit := run.tally.limit }) :
    ComesTo job.database run.log
      (Splitter.Kind.scanner.statements (some (splitDialect job.database.dialect text)) text)
      ((Restore.run files p).result job run).2.log ((Restore.run files p).result job run).1 := by
  obtain ⟨reports, hresult⟩ := @result_run job files p run
  have hparse := parse_unconverted hparser hheader
  rw [hresult, htext, ← hparse]
  change ComesTo _ _ _ (match job.parse text with
    | .error (.failure f) => _ | .error e => _ | .ok s => _ : Except Fault Result × Run).2.log
    (match job.parse text with
    | .error (.failure f) => _ | .error e => _ | .ok s => _ : Except Fault Result × Run).1
  cases hready : job.parse text with
  | error e =>
    rw [hready] at hparse
    obtain ⟨f, rfl, hf⟩ := scanner_error hparse.symm
    exact .unsplit rfl hf
  | ok script =>
    dsimp only
    let first : Run :=
      { run with reports, tally := { run.tally with limit := job.options.maxFailureRecords } }
    have hfirst : first.tally = { limit := first.tally.limit } :=
      congrArg (fun t : Tally => { t with limit := job.options.maxFailureRecords }) hrun
    have hexposed := @runAll_exposed job script.statements first
    change ComesTo _ _ _ ((runAll script.statements).result job first).2.log
      (((runAll script.statements).result job first).1.map _)
    cases hall : (runAll script.statements).result job first with
    | mk r last =>
      rw [hall] at hexposed
      obtain ⟨result, rfl, hkind⟩ | ⟨e, rfl, he⟩ := runAll_isOfRun hall
      · have hlog : Breached job.database last.log ↔ Breached job.database run.log := by
          simpa using hexposed
        exact .returned hlog ((runAll_returns hall).total hfirst) hkind
      · exact .broken he (hexposed.2 (.inr ⟨e, rfl, trivial⟩))

end Restore

namespace Strategy

/-! ## Checking a script -/

def checkDialect (d : Dialect) (bs : Bytes.Octets) : Dialect :=
  (Format.ofBytes bs).kind.dialect.getD d

theorem isSql_of_mem_formats {d : Dialect} {k : FormatKind}
    (h : (script d).formats.contains k = true) : k.isSql = true := by
  rw [List.contains_iff_mem] at h
  simp only [formats, List.mem_cons, List.mem_map] at h
  obtain rfl | ⟨_, -, rfl⟩ := h <;> rfl

/-- A script in which a check finds nothing wrong is split by it. -/
theorem check_valid {d : Dialect} {files : Files} {imageTrouble : Bytes.Octets → Option String}
    {raw : String} {report : CheckReport}
    (h : (script d).check files imageTrouble raw = .ok report) (hvalid : report.valid = true) :
    ∃ bs text found, Backup.contents files (.ofText raw) = .ok bs ∧
      Backup.text files (.ofText raw) = .ok text ∧
      Splitter.Kind.scanner.statements (some (checkDialect d bs)) text = .ok found ∧
      report.statements = found.length := by
  unfold check at h
  dsimp only at h
  cases hcontents : Backup.contents files (.ofText raw) with
  | error e =>
    rw [hcontents] at h
    cases e
    case failure f =>
      cases h
      cases hvalid
    all_goals cases h
  | ok bs =>
    rw [hcontents] at h
    dsimp only at h
    split at h
    · cases h
      cases hvalid
    · next hformat =>
      rw [Bool.not_eq_true, Bool.not_eq_false'] at hformat
      rw [if_pos (isSql_of_mem_formats hformat)] at h
      cases hread : (script d).readScript files (.ofText raw) (Format.ofBytes bs) with
      | error e =>
        rw [hread] at h
        cases h
        cases hvalid
      | ok found =>
        rw [hread] at h
        obtain ⟨text, htext, hread⟩ := exists_of_bind_eq_ok hread
        obtain ⟨found, hfound, hread⟩ := exists_of_bind_eq_ok hread
        cases hread
        cases h
        exact ⟨bs, text, found, rfl, htext, hfound, rfl⟩

/-! ## Restoring it -/

/-- What a check foretold came true: the restore did not fail to split the script, and it was about
as many statements. -/
structure Foretold (report : CheckReport) (r : Restore.Result) : Prop where
  split : ∀ f ∈ r.failure, f.kind ≠ .parseError
  total : r.tally.total = report.statements

def SplitAlike (d d' : Dialect) (text : Text.Chars) : Prop :=
  ∃ found found', Splitter.Kind.scanner.statements (some d) text = .ok found ∧
    Splitter.Kind.scanner.statements (some d') text = .ok found' ∧ found.length = found'.length

variable {s : Strategy} {raw : String} {place : Surroundings} {w w' : World}

theorem result_guarded_of_ok {restoring : Act Restore.Result} {r : Restore.Result}
    (h : restoring.result place w = (.ok r, w')) :
    (s.guarded raw restoring).result place w =
      (.ok { r with strategy := some s.name, inputPath := some raw }, w') := by
  unfold guarded
  dsimp only
  rw [result_bind, result_outcome, h]
  rfl

/-- Trouble with the database is returned as a failure of the restore, of no statements. -/
theorem result_guarded_of_trouble {restoring : Act Restore.Result} {e : Fault} (he : e.IsTrouble)
    (h : restoring.result place w = (.error e, w')) :
    ∃ r, (s.guarded raw restoring).result place w = (.ok r, w') ∧ r.tally.total = 0 ∧
      ∀ f ∈ r.failure, f.kind ≠ .parseError := by
  obtain ⟨t, rfl⟩ := he
  unfold guarded
  dsimp only
  rw [result_bind, result_outcome, h]
  cases t <;>
  · refine ⟨_, rfl, rfl, ?_⟩
    rintro f ⟨⟩
    simp [Failure.kind, Failure.Cause.kind]

theorem runScript_comesTo {d : Dialect} {o : RestoreOptions} {tables : Option (List String)}
    {db : Database} {text : Text.Chars} (hparser : o.parser = "scanner")
    (hdb : place.database = some db) (htext : Backup.text w.files (.ofText raw) = .ok text)
    (hheader : ∀ h ∈ Restore.Header.ofText? text, h.needsConversion = false) :
    Restore.ComesTo db w.log
      (Splitter.Kind.scanner.statements (some (Restore.splitDialect db.dialect text)) text)
      (((script d).runScript raw o tables).result place w).2.log
      (((script d).runScript raw o tables).result place w).1 := by
  let job : Restore.Job :=
    { database := db, options := o, wanted := tables.map (·.map Text.lower)
      path := some (Path.ofText raw).toText }
  let start : Restore.Run := { log := w.log, reports := w.reports }
  let ended := (Restore.run w.files (.ofText raw)).result job start
  have hwork : ((script d).runScript raw o tables).result place w =
      (ended.1, { w with log := ended.2.log, reports := ended.2.reports }) := by
    have hrequire : ((script d).requireDatabase).result place w = (.ok db, w) := by
      unfold requireDatabase
      rw [result_bind, result_read]
      dsimp only
      rw [hdb]
      rfl
    unfold runScript
    rw [result_bind, hrequire]
    rfl
  rw [hwork]
  exact @Restore.run_comesTo job w.files (.ofText raw) text start hparser htext hheader rfl

/-- What a valid check foretold comes true exactly if the restore splits the script into as many
statements as the check, as long as no fault escapes the restore. Otherwise the result is about no
statement. -/
theorem foretold_iff {d : Dialect} {imageTrouble : Bytes.Octets → Option String}
    {report : CheckReport} {o : RestoreOptions} {tables : Option (List String)} {db : Database}
    (hcheck : (script d).check w.files imageTrouble raw = .ok report)
    (hvalid : report.valid = true)
    (hheader : ∀ text, Backup.text w.files (.ofText raw) = .ok text →
      ∀ h ∈ Restore.Header.ofText? text, h.needsConversion = false)
    (hparser : o.parser = "scanner") (hdb : place.database = some db)
    (hlog : ¬Breached db w.log) :
    ∃ bs text r w', Backup.contents w.files (.ofText raw) = .ok bs ∧
      Backup.text w.files (.ofText raw) = .ok text ∧
      ((script d).restoreWith raw o tables).result place w = (.ok r, w') ∧
      (Breached db w'.log → (Foretold report r ↔ report.statements = 0)) ∧
      (¬Breached db w'.log → (Foretold report r ↔
        SplitAlike (checkDialect d bs) (Restore.splitDialect db.dialect text) text)) := by
  obtain ⟨bs, text, found, hcontents, htext, hfound, hcount⟩ := check_valid hcheck hvalid
  have hcomes := @runScript_comesTo raw place w d o tables db text hparser hdb htext
    (hheader text htext)
  refine ⟨bs, text, ?_⟩
  generalize hended : ((script d).runScript raw o tables).result place w = ended at hcomes
  obtain ⟨outcome, w'⟩ := ended
  have hrestore : (script d).restoreWith raw o tables =
      (script d).guarded raw ((script d).runScript raw o tables) := rfl
  rw [hrestore]
  generalize hsplit : Splitter.Kind.scanner.statements
    (some (Restore.splitDialect db.dialect text)) text = split at hcomes
  dsimp only at hcomes
  unfold SplitAlike
  rw [hfound]
  generalize hlast : w'.log = log' at hcomes
  cases hcomes with
  | @unsplit e r f hf hkind =>
    refine ⟨_, w', hcontents, htext, result_guarded_of_ok hended, ?_, fun _ => ?_⟩
    · exact fun h => absurd (hlast ▸ h) hlog
    · refine iff_of_false (fun h => h.split f hf hkind) ?_
      rintro ⟨_, _, -, hsplit', -⟩
      rw [hsplit] at hsplit'
      cases hsplit'
  -- The result is about no statement, which a check foretold of an empty script only.
  | @broken found' log' e he hbreached =>
    obtain ⟨r, hr, htotal, hkind⟩ := result_guarded_of_trouble he hended
    refine ⟨r, w', hcontents, htext, hr, fun _ => ?_, fun h => absurd (hlast ▸ hbreached) h⟩
    constructor
    · rintro ⟨-, h⟩
      rw [htotal] at h
      exact_mod_cast h.symm
    · intro h
      exact ⟨hkind, by rw [htotal, h]; rfl⟩
  | @returned found' log' r hsame htotal hkind =>
    refine ⟨_, w', hcontents, htext, result_guarded_of_ok hended, ?_, fun _ => ?_⟩
    · exact fun h => absurd (hsame.1 (hlast ▸ h)) hlog
    · constructor
      · rintro ⟨-, h⟩
        refine ⟨found, found', rfl, hsplit, ?_⟩
        change r.tally.total = _ at h
        rw [htotal, hcount] at h
        exact_mod_cast h.symm
      · rintro ⟨_, _, ⟨⟩, hsplit', h⟩
        rw [hsplit] at hsplit'
        cases hsplit'
        refine ⟨hkind, ?_⟩
        change r.tally.total = _
        rw [htotal, hcount, h]

def willing : Database :=
  .refusing .sqlite fun _ _ => none

def filed (text : String) : World where
  files := { contents := [(.ofText "b.sql", Bytes.encode text)] }

theorem willing_not_breached (log : Log) : ¬Breached willing log := by
  rintro ⟨_, _, _, -, ⟨⟩, -⟩

theorem plain_header {w : World} (h : (Backup.text w.files (.ofText "b.sql")).toOption.all
    (fun text => (Restore.Header.ofText? text).isNone) = true) :
    ∀ text, Backup.text w.files (.ofText "b.sql") = .ok text →
      ∀ h ∈ Restore.Header.ofText? text, h.needsConversion = false := by
  intro text htext header hheader
  rw [htext] at h
  change (Restore.Header.ofText? text).isNone = true at h
  rw [Option.mem_def.1 hheader] at h
  cases h

/-- A script with the mark of another dialect is restored as it was checked, if nothing in it reads
differently in that dialect. -/
theorem marked_foretold : ∃ report r w',
    (script .sqlite).check (filed "-- MySQL dump\nSELECT 1;\n").files (fun _ => none) "b.sql" =
      .ok report ∧ report.valid = true ∧
    ((script .sqlite).restoreWith "b.sql" {} none).result (around willing)
      (filed "-- MySQL dump\nSELECT 1;\n") = (.ok r, w') ∧ Foretold report r := by
  let w := filed "-- MySQL dump\nSELECT 1;\n"
  have hchecked : ((script .sqlite).check w.files (fun _ => none) "b.sql").toOption.map
      (fun report => (report.valid, report.statements)) = some (true, 1) := by
    decide +kernel
  have hheader := @plain_header w (by decide +kernel)
  have hsplit : (Backup.text w.files (.ofText "b.sql")).toOption.map (fun text =>
      ((Splitter.Kind.scanner.statements (some (Restore.splitDialect .sqlite text))
        text).toOption.map (·.length))) = some (some 1) := by
    decide +kernel
  cases hcheck : (script .sqlite).check w.files (fun _ => none) "b.sql" with
  | error e =>
    rw [hcheck] at hchecked
    cases hchecked
  | ok report =>
    rw [hcheck] at hchecked
    obtain ⟨hvalid, hcount⟩ := Prod.mk.inj (Option.some.inj hchecked)
    obtain ⟨bs, text, r, w', hcontents, htext, hrestore, -, hiff⟩ :=
      @foretold_iff "b.sql" (around willing) w .sqlite (fun _ => none) report {} none willing hcheck
        hvalid hheader rfl rfl (willing_not_breached _)
    refine ⟨report, r, w', rfl, hvalid, hrestore, (hiff (willing_not_breached _)).2 ?_⟩
    obtain ⟨_, _, found, hcontents', htext', hfound, hlength⟩ := check_valid hcheck hvalid
    cases hcontents.symm.trans hcontents'
    cases htext.symm.trans htext'
    rw [htext] at hsplit
    change Option.map _ (some text) = _ at hsplit
    obtain ⟨found', hfound', hlength'⟩ := Option.map_eq_some_iff.1 (Option.some.inj hsplit)
    refine ⟨found, found', hfound, ?_, by rw [← hlength, hcount, hlength']⟩
    change Splitter.Kind.scanner.statements (some (Restore.splitDialect .sqlite text)) text = _
    cases hs : Splitter.Kind.scanner.statements (some (Restore.splitDialect .sqlite text)) text with
    | error e =>
      rw [hs] at hfound'
      cases hfound'
    | ok split =>
      rw [hs] at hfound'
      cases hfound'
      rfl

/-- A script that a check finds valid can still fail to be split by a restore. -/
theorem not_foretold : ¬∀ (d : Dialect) (w : World) (raw : String) (report : CheckReport)
    (place : Surroundings) (o : RestoreOptions) (db : Database),
    (script d).check w.files place.imageTrouble raw = .ok report → report.valid = true →
    (∀ text, Backup.text w.files (.ofText raw) = .ok text →
      ∀ h ∈ Restore.Header.ofText? text, h.needsConversion = false) →
    o.parser = "scanner" → place.database = some db → db.dialect = d →
    (∀ log r, db.refuses log r = none) →
    ∃ r w', ((script d).restore raw o).result place w = (.ok r, w') ∧ Foretold report r := by
  intro h
  let w := filed "-- MySQL dump\nSELECT 'it\\'s';\n"
  have hchecked : ((script .sqlite).check w.files (fun _ => none) "b.sql").toOption.map
      (·.valid) = some true := by
    decide +kernel
  have hheader := @plain_header w (by decide +kernel)
  have hfailed : (((script .sqlite).restore "b.sql" {}).result (around willing) w).1.toOption.map
      (·.failure.map (·.kind)) = some (some .parseError) := by
    decide +kernel
  cases hcheck : (script .sqlite).check w.files (fun _ => none) "b.sql" with
  | error e =>
    rw [hcheck] at hchecked
    cases hchecked
  | ok report =>
    rw [hcheck] at hchecked
    obtain ⟨r, w', hrestore, hforetold⟩ := h .sqlite w "b.sql" report (around willing) {} willing
      hcheck (Option.some.inj hchecked) hheader rfl rfl rfl fun _ _ => rfl
    rw [hrestore] at hfailed
    obtain ⟨f, hf, hkind⟩ := Option.map_eq_some_iff.1 (Option.some.inj hfailed)
    exact hforetold.split f hf hkind

end Strategy

end SqlFerry
