import SqlFerry.Proofs.Strategy.Writing
import SqlFerry.Proofs.Text.Replace
import SqlFerry.Strategy.Restoring

/-!
# Backups and restores with tools return

A strategy turns failures, refusals of the database and trouble with the system into results. A
command that shows the password is refused in another way, and so is an unknown way of splitting:
such a refusal escapes. Nothing else does.
-/

namespace SqlFerry

open Work Backup

/-! ## Faults that become results -/

/-- Whether a strategy makes a result of the fault. -/
def Fault.IsReported : Fault → Prop
  | .failure _ | .engine _ | .system _ _ => True
  | _ => False

theorem Fault.isReported_iff {e : Fault} (cause : String → Failure.Cause) :
    e.IsReported ↔ ∃ f, e.asFailure cause = .ok f := by
  cases e <;> simp [IsReported, asFailure]

def Reports {α : Type} (r : Except Fault α) : Prop :=
  ∀ e, r = .error e → e.IsReported

section Reports

variable {α β : Type} {e : Fault}

@[simp]
theorem reports_ok (a : α) : Reports (.ok a : Except Fault α) := by
  rintro e ⟨⟩

@[simp]
theorem reports_error : Reports (.error e : Except Fault α) ↔ e.IsReported :=
  ⟨fun h => h e rfl, by rintro h _ ⟨⟩; exact h⟩

theorem reports_failure (f : Failure) : Reports (.error (.failure f) : Except Fault α) :=
  reports_error.2 trivial

theorem reports_system (kind : SystemTrouble) (text : String) :
    Reports (.error (.system kind text) : Except Fault α) :=
  reports_error.2 trivial

theorem Reports.bind {r : Except Fault α} {f : α → Except Fault β} (hr : Reports r)
    (hf : ∀ a, Reports (f a)) : Reports (r >>= f) := by
  cases r with
  | error e => exact reports_error.2 (hr e rfl)
  | ok a => exact hf a

end Reports

namespace Files

variable {f : Files} {p q : Path}

theorem reports_find : Reports (f.find p) := by
  unfold find ask
  split
  · exact reports_ok _
  · split
    · exact reports_ok _
    · exact reports_system _ _
    · exact reports_ok _

theorem reports_makeLast : Reports (f.makeLast p) := by
  unfold makeLast
  split
  · exact reports_system _ _
  · split
    · exact reports_ok _
    · split
      · exact reports_system _ _
      · exact reports_ok _

theorem reports_makeFolder (hnul : p.hasNul = false) : Reports (f.makeFolder p) := by
  have hgo (n : Nat) : ∀ q, Reports (makeFolder.go f n q) := by
    induction n with
    | zero => exact fun q => reports_makeLast
    | succ n ih =>
      intro q
      rw [makeFolder.go]
      split
      · exact (ih q.parent).bind fun _ => reports_makeLast
      · exact reports_makeLast
  rw [makeFolder, if_neg (by simp [hnul])]
  exact hgo _ _

theorem reports_write {bs : Bytes.Octets} (hnul : p.hasNul = false) : Reports (f.write p bs) := by
  rw [write, if_neg (by simp [hnul])]
  split
  · exact reports_system _ _
  · split
    · exact reports_system _ _
    · exact reports_ok _

theorem reports_move (hp : p.hasNul = false) (hq : q.hasNul = false) : Reports (f.move p q) := by
  rw [move, if_neg (by simp [hp, hq])]
  split
  · exact reports_system _ _
  · exact reports_system _ _
  · split
    · exact reports_system _ _
    · split
      · exact reports_system _ _
      · split
        · exact reports_system _ _
        · exact reports_ok _

end Files

theorem Path.hasNul_parent {p : Path} (h : p.hasNul = false) : p.parent.hasNul = false := by
  rw [hasNul, List.any_eq_false] at h ⊢
  exact fun x hx => h x (List.mem_of_mem_dropLast hx)

namespace Backup

variable {f : Files} {p : Path}

theorem reports_formatOf : Reports (formatOf f p) := by
  unfold formatOf
  split
  · next e h => exact reports_error.2 (Files.reports_find e h)
  · exact reports_failure _
  · exact reports_ok _

theorem reports_contents : Reports (contents f p) := by
  unfold contents
  split
  · next e h => exact reports_error.2 (Files.reports_find e h)
  · exact reports_failure _
  · exact reports_failure _
  · exact reports_ok _

theorem reports_bytes : Reports (bytes f p) := by
  refine reports_contents.bind fun raw => ?_
  split
  · exact reports_ok _
  · split
    · exact reports_failure _
    · exact reports_failure _
    · exact reports_ok _

theorem reports_text : Reports (text f p) := by
  refine reports_bytes.bind fun raw => ?_
  unfold textOf
  split
  · exact reports_failure _
  · split
    · exact reports_failure _
    · split
      · exact reports_failure _
      · exact reports_ok _

end Backup

/-! ## Commands -/

/-- Whether the password of a connection is part of an argument. -/
def Connection.ShowsPassword (c : Connection) (argv : List String) : Prop :=
  ∃ password ∈ c.password, password ≠ "" ∧ ∃ arg ∈ argv, password.toList <:+: arg.toList

theorem Tool.holdsSecret_iff {argv : List String} {secret : String} :
    holdsSecret argv secret = true ↔
      secret ≠ "" ∧ ∃ arg ∈ argv, secret.toList <:+: arg.toList := by
  simp [holdsSecret, Text.contains_iff]

namespace Tool.Run

variable {r : Run} {start : Child → Ending}

theorem perform_of_secret (hargv : r.argv ≠ [])
    (h : r.secrets.any (holdsSecret r.argv) = true) :
    (r.perform start).2 = .error (.refused .passwordInArguments) := by
  unfold perform
  split
  · next hnil => exact absurd hnil hargv
  · rw [if_pos h]

theorem reports_finish {program : String} {e : Ending} (h : isMeasured r.timeout = true) :
    Reports (r.finish program e).2 := by
  cases e with
  | unstarted why => exact reports_failure _
  | exited seconds code stdout stderr =>
    unfold finish
    dsimp only
    split
    · exact reports_failure _
    · rw [if_neg (by simp [h])]
      exact reports_ok _

theorem reports_perform {text : String} (hargv : r.argv ≠ [])
    (h : ¬r.secrets.any (holdsSecret r.argv) = true) (htext : r.timeout.short = .ok text)
    (hmeasured : isMeasured r.timeout = true) : Reports (r.perform start).2 := by
  unfold perform
  split
  · next hnil => exact absurd hnil hargv
  · rw [if_neg h, htext]
    exact reports_finish hmeasured

end Tool.Run

namespace Toolset

variable {t : Toolset} {c : Connection} {start : Tool.Child → Tool.Ending}

def runOf (t : Toolset) (c : Connection) (argv : List String) (input : Option String)
    (timeout : Option Float) : Tool.Run where
  argv := argv
  credentials := t.credentials c
  input := input
  timeout := Value.timeoutValue timeout

theorem secrets_runOf {argv : List String} {input : Option String} {timeout : Option Float} :
    (t.runOf c argv input timeout).secrets = (c.password.filter (!·.isEmpty)).toList := by
  unfold Tool.Run.secrets runOf credentials
  cases h : c.password.filter (!·.isEmpty) with
  | none => rfl
  | some password =>
    have hempty := (Option.filter_eq_some_iff.1 h).2
    rw [Bool.not_eq_true'] at hempty
    simp [hempty]

theorem showsPassword_iff {argv : List String} {input : Option String} {timeout : Option Float} :
    (t.runOf c argv input timeout).secrets.any (Tool.holdsSecret argv) = true ↔
      c.ShowsPassword argv := by
  rw [secrets_runOf]
  unfold Connection.ShowsPassword
  simp [Tool.holdsSecret_iff, Option.filter_eq_some_iff, and_assoc]

theorem exists_short_timeout (timeout : Option Float) :
    ∃ text, (Value.timeoutValue timeout).short = .ok text := by
  cases timeout with
  | some x => exact ⟨_, rfl⟩
  | none =>
    have hsize : Value.isOversized 1800 = false := by decide
    simp [Value.timeoutValue, Value.short, Value.shortText?, hsize]

theorem isMeasured_timeout (timeout : Option Float) :
    Tool.Run.isMeasured (Value.timeoutValue timeout) = true := by
  cases timeout <;> rfl

theorem dumpArguments_ne_nil {database : String} {o : BackupOptions} :
    t.dumpArguments c database o ≠ [] := by
  simp [dumpArguments]

theorem loadArguments_ne_nil {database : String} {o : RestoreOptions} :
    t.loadArguments c database o ≠ [] := by
  simp [loadArguments]

theorem archiveArguments_ne_nil {database path : String} {o : RestoreOptions} :
    archiveArguments c database path o ≠ [] := by
  simp [archiveArguments]

end Toolset

namespace Strategy

variable {t : Toolset} {start : Tool.Child → Tool.Ending} {place : Surroundings} {w w' : World}
  {database : String}

abbrev callWith (t : Toolset) (c : Connection) (argv : List String) (input : Option String)
    (timeout : Option Float) : Act Tool.Outcome :=
  Act.call { argv, credentials := t.credentials c, input, timeout := Value.timeoutValue timeout }

section Call

variable {c : Connection} {argv : List String} (t : Toolset) (input : Option String)
  (timeout : Option Float) (w : World)

theorem result_callWith (hplace : place.tools = Tools.secure start) :
    ∃ w', (callWith t c argv input timeout).result place w =
      (((t.runOf c argv input timeout).perform start).2, w') := by
  unfold callWith Act.call
  rw [result_bind, result_modify]
  dsimp only
  rw [result_bind, result_read]
  dsimp only
  rw [result_ofOutcome, hplace]
  exact ⟨_, rfl⟩

theorem callWith_of_shown (hplace : place.tools = Tools.secure start) (hargv : argv ≠ [])
    (h : c.ShowsPassword argv) : ∃ w', (callWith t c argv input timeout).result place w =
      (.error (.refused .passwordInArguments), w') := by
  obtain ⟨w', hcall⟩ := result_callWith t input timeout w hplace
  rw [Tool.Run.perform_of_secret hargv (Toolset.showsPassword_iff.2 h)] at hcall
  exact ⟨w', hcall⟩

theorem callWith_reports (hplace : place.tools = Tools.secure start) (hargv : argv ≠ [])
    (h : ¬c.ShowsPassword argv) :
    Throws Fault.IsReported place (callWith t c argv input timeout) := by
  intro w e he
  obtain ⟨w', hcall⟩ := result_callWith t input timeout w hplace
  rw [hcall] at he
  obtain ⟨text, htext⟩ := Toolset.exists_short_timeout timeout
  exact Tool.Run.reports_perform hargv (mt Toolset.showsPassword_iff.1 h) htext
    (Toolset.isMeasured_timeout timeout) e he

end Call

theorem reports_checkOutcome (s : Strategy) (program : String)
    (cause : String → Context → Failure.Cause) (o : Tool.Outcome) :
    Reports (s.checkOutcome program cause o) := by
  unfold checkOutcome
  split
  · exact reports_ok _
  · exact reports_failure _

theorem databaseName_eq {s : Strategy} {c : Connection}
    (h : c.database.filter (!·.isEmpty) = some database) : s.databaseName c = .ok database := by
  rw [databaseName, h]

theorem change_reports {f : Files → Except Fault Files} (h : ∀ files, Reports (f files)) :
    Throws Fault.IsReported place (Act.change f) := by
  intro w e he
  rw [Act.result_change] at he
  cases hf : f w.files with
  | error e' =>
    rw [hf] at he
    cases he
    exact h _ e hf
  | ok files =>
    rw [hf] at he
    cases he

/-! ## Backups -/

section Create

variable {o : BackupOptions} {d p : Path} {target : Option Dialect}

variable (hplace : place.tools = Tools.secure start)
  (hdatabase : place.connection.database.filter (!·.isEmpty) = some database)

include hplace hdatabase

theorem writeDump_of_shown
    (h : place.connection.ShowsPassword (t.dumpArguments place.connection database o)) :
    ∃ w', ((tools t).writeDump t o p).result place w =
      (.error (.refused .passwordInArguments), w') := by
  obtain ⟨w', hcall⟩ := callWith_of_shown t none o.timeout w hplace Toolset.dumpArguments_ne_nil h
  unfold writeDump
  rw [result_bind, result_read]
  dsimp only
  rw [result_bind, result_ofOutcome, databaseName_eq hdatabase]
  dsimp only
  rw [result_bind, hcall]
  exact ⟨w', rfl⟩

theorem writeDump_reports (htarget : o.target = .ok target) (hnul : p.hasNul = false)
    (h : ¬place.connection.ShowsPassword (t.dumpArguments place.connection database o)) :
    Throws Fault.IsReported place ((tools t).writeDump t o p) := by
  refine .read_bind ?_
  dsimp only
  rw [databaseName_eq hdatabase, ofOutcome_ok, pure_bind]
  refine (callWith_reports t none o.timeout hplace Toolset.dumpArguments_ne_nil h).bind
    fun outcome => ?_
  refine (Throws.ofOutcome (reports_checkOutcome _ _ _ _)).bind fun _ => ?_
  rw [htarget, ofOutcome_ok]
  refine .ite ((Throws.throw trivial).bind fun _ => ?_) ?_
  all_goals
    rw [pure_bind]
    exact .read_bind <| (change_reports fun _ => Files.reports_write hnul).bind fun _ => .pure _

/-- The attempt to write a backup fails in another way only if the dump would show the password. -/
theorem writeAside_reports (htarget : o.target = .ok target) (hname : d.name ≠ "")
    (hnul : d.hasNul = false)
    (h : ¬place.connection.ShowsPassword (t.dumpArguments place.connection database o)) :
    Throws Fault.IsReported place (writeAside ((tools t).write o) d) := by
  have hparent : d.parent.hasNul = false := Path.hasNul_parent hnul
  have hpartial : (partialPath d).hasNul = false := by rwa [hasNul_partialPath hname]
  refine (change_reports fun _ => Files.reports_makeFolder hparent).bind fun _ => ?_
  refine (writeDump_reports hplace hdatabase htarget hpartial h).bind fun _ => ?_
  exact (change_reports fun _ => Files.reports_move hpartial hnul).bind fun _ => .pure _

theorem writeAside_of_shown {files : Files} (hfolder : w.files.makeFolder d.parent = .ok files)
    (h : place.connection.ShowsPassword (t.dumpArguments place.connection database o)) :
    ∃ w', (writeAside ((tools t).write o) d).result place w =
      (.error (.refused .passwordInArguments), w') := by
  obtain ⟨w', hwrite⟩ := writeDump_of_shown (t := t) (p := partialPath d) (w := { w with files })
    hplace hdatabase h
  unfold writeAside
  rw [result_bind, Act.result_change, hfolder]
  dsimp only
  rw [result_bind]
  change ((tools t).write o (partialPath d)).result place { w with files } = _ at hwrite
  rw [hwrite]
  exact ⟨w', rfl⟩

end Create

theorem returns_createBy_of_error {s : Strategy} {writing : Path → Act Details} {moving : Moving}
    {d : Path} {existed : Bool} {e : Fault} (hname : d.name ≠ "") (hnul : d.hasNul = false)
    (hhas : w.files.has d = .ok existed)
    (h : (writeAside writing d moving).result place w = (.error e, w')) :
    (∃ result after, (s.createBy writing d moving).result place w = (.ok result, after)) ↔
      e.IsReported := by
  obtain ⟨after, hcleanUp⟩ := exists_cleanUp_eq_ok place w' hname hnul existed
  rw [Fault.isReported_iff fun text => .backupFailed d.toText text s.context]
  unfold createBy
  rw [if_neg (by simpa using hname), result_bind, Act.result_look, hhas]
  dsimp only
  rw [result_bind, result_outcome, h]
  dsimp only
  rw [result_bind, hcleanUp]
  dsimp only
  rw [result_bind, result_ofOutcome]
  cases e.asFailure fun text => .backupFailed d.toText text s.context with
  | error e' => simp
  | ok failure => exact iff_of_true ⟨_, _, rfl⟩ ⟨failure, rfl⟩

/-- A backup with tools returns unless the dump would show the password. -/
theorem returns_create_iff {o : BackupOptions} {d : Path} {target : Option Dialect} {existed : Bool}
    (hplace : place.tools = Tools.secure start)
    (hdatabase : place.connection.database.filter (!·.isEmpty) = some database)
    (htarget : o.target = .ok target) (hname : d.name ≠ "") (hnul : d.hasNul = false)
    (hhas : w.files.has d = .ok existed) :
    (∃ result after, ((tools t).create d o).result place w = (.ok result, after)) ↔
      ((∃ files, w.files.makeFolder d.parent = .ok files) →
        ¬place.connection.ShowsPassword (t.dumpArguments place.connection database o)) := by
  unfold create
  cases hattempt : (writeAside ((tools t).write o) d).result place w with
  | mk attempt w' =>
    cases attempt with
    | ok details =>
      obtain ⟨result, hresult, -⟩ := createBy_of_ok (tools t) hname hhas hattempt
      refine iff_of_true ⟨_, _, hresult⟩ ?_
      rintro ⟨files, hfolder⟩ hshown
      obtain ⟨_, hrefused⟩ := writeAside_of_shown (t := t) hplace hdatabase hfolder hshown
      rw [hrefused] at hattempt
      cases hattempt
    | error e =>
      rw [returns_createBy_of_error hname hnul hhas hattempt]
      constructor
      · rintro hreported ⟨files, hfolder⟩ hshown
        obtain ⟨_, hrefused⟩ := writeAside_of_shown (t := t) hplace hdatabase hfolder hshown
        rw [hrefused] at hattempt
        cases hattempt
        exact hreported
      · intro h
        cases hfolder : w.files.makeFolder d.parent with
        | ok files =>
          exact writeAside_reports hplace hdatabase htarget hname hnul (h ⟨files, hfolder⟩) w e
            (congrArg Prod.fst hattempt)
        | error e' =>
          unfold writeAside at hattempt
          rw [result_bind, Act.result_change, hfolder] at hattempt
          cases hattempt
          exact Files.reports_makeFolder (Path.hasNul_parent hnul) e hfolder

/-! ## Restores -/

/-- Whether a restore with tools loads a file as a script with this text. -/
def TakesScript (t : Toolset) (f : Files) (p : Path) (text : Text.Chars) : Prop :=
  Backup.text f p = .ok text ∧ (∀ h ∈ Restore.Header.ofText? text, h.needsConversion = false) ∧
    (t = .postgresql → ∃ format, Backup.formatOf f p = .ok format ∧
      format.kind ≠ .pgCustom ∧ format.kind ≠ .pgTar)

def TakesArchive (t : Toolset) (f : Files) (p : Path) : Prop :=
  t = .postgresql ∧ ∃ format, Backup.formatOf f p = .ok format ∧
    (format.kind = .pgCustom ∨ format.kind = .pgTar) ∧ format.compressed = false

inductive Loads (t : Toolset) (c : Connection) (database : String) (f : Files) (p : Path)
    (o : RestoreOptions) : List String → Prop
  | script {text : Text.Chars} {kind : Splitter.Kind} {found : List Statement}
      (htakes : TakesScript t f p text) (hkind : Splitter.Kind.named o.parser = .ok kind)
      (hfound : kind.statements (some t.dialect) text = .ok found)
      (hallowed : o.screen = true → refusals found = []) :
      Loads t c database f p o (t.loadArguments c database o)
  | archive (htakes : TakesArchive t f p) :
      Loads t c database f p o (Toolset.archiveArguments c database p.toText o)

theorem not_takesScript {f : Files} {p : Path}
    (hother : ∀ format, Backup.formatOf f p = .ok format →
      format.kind = .pgCustom ∨ format.kind = .pgTar) (text : Text.Chars) :
    ¬TakesScript .postgresql f p text := by
  rintro ⟨-, -, hscript⟩
  obtain ⟨format, hformat, hcustom, htar⟩ := hscript rfl
  exact (hother format hformat).elim hcustom htar

/-- What is no script can come to the command for an archive only. -/
theorem hides_iff_of_not_takesScript {c : Connection} {f : Files} {p : Path}
    (hnone : ∀ text, ¬TakesScript t f p text) :
    (∀ text, TakesScript t f p text → o.parser ∈ ["scanner", "line"]) ∧
        (∀ argv, Loads t c database f p o argv → ¬c.ShowsPassword argv) ↔
      (TakesArchive t f p →
        ¬c.ShowsPassword (Toolset.archiveArguments c database p.toText o)) := by
  constructor
  · exact fun h htakes => h.2 _ (.archive htakes)
  · refine fun h => ⟨fun text htakes => absurd htakes (hnone text), ?_⟩
    rintro argv (⟨htakes, -, -, -⟩ | htakes)
    · exact absurd htakes (hnone _)
    · exact h htakes

theorem returns_guarded_iff {s : Strategy} {raw : String} {restoring : Act Restore.Result} :
    (∃ r after, (s.guarded raw restoring).result place w = (.ok r, after)) ↔
      Reports (restoring.result place w).1 := by
  unfold guarded
  dsimp only
  rw [result_bind, result_outcome]
  cases restoring.result place w with
  | mk r w' =>
    cases r with
    | ok r => exact iff_of_true ⟨_, _, rfl⟩ (reports_ok r)
    | error e =>
      dsimp only
      rw [result_bind, result_ofOutcome, reports_error,
        Fault.isReported_iff fun text => .restoreFailed raw text s.context]
      cases e.asFailure fun text => .restoreFailed raw text s.context with
      | error e' => simp
      | ok failure => exact iff_of_true ⟨_, _, rfl⟩ ⟨failure, rfl⟩

theorem named_eq_ok_iff {name : String} :
    (∃ kind, Splitter.Kind.named name = .ok kind) ↔ name ∈ ["scanner", "line"] := by
  unfold Splitter.Kind.named
  split
  · simp
  · simp
  · next hscanner hline =>
    refine iff_of_false (by rintro ⟨_, ⟨⟩⟩) ?_
    simpa using ⟨hscanner, hline⟩

theorem not_isReported_of_named {name : String} {e : Fault}
    (h : Splitter.Kind.named name = .error e) : ¬e.IsReported := by
  unfold Splitter.Kind.named at h
  split at h
  · cases h
  · cases h
  · cases h
    exact id

theorem reports_statements {kind : Splitter.Kind} {dialect : Option Dialect} {text : Text.Chars} :
    Reports (kind.statements dialect text) := by
  cases kind with
  | scanner =>
    unfold Splitter.Kind.statements Ddl.ofSplitting
    dsimp only
    split
    · exact reports_ok _
    · exact reports_failure _
  | lines => exact reports_ok _

theorem reports_bind_pure {α β : Type} {act : Act α} {f : α → β} :
    Reports ((act >>= fun a => pure (f a) : Act β).result place w).1 ↔
      Reports (act.result place w).1 := by
  rw [result_bind]
  cases act.result place w with
  | mk r w' =>
    cases r with
    | error e => exact reports_error.trans reports_error.symm
    | ok a => exact iff_of_true (reports_ok _) (reports_ok _)

section Restore

variable {o : RestoreOptions} {p : Path} {s : Strategy} {argv : List String} {input : Option String}
  {program : String}

variable (hplace : place.tools = Tools.secure start)

include hplace

/-- A tool that restores a file fails in another way exactly if it would show the password. -/
theorem reports_load_iff (hargv : argv ≠ []) :
    Reports ((s.load t p o program argv input).result place w).1 ↔
      ¬place.connection.ShowsPassword argv := by
  unfold load
  rw [result_bind, result_read]
  by_cases hshown : place.connection.ShowsPassword argv
  · obtain ⟨w', hcall⟩ := callWith_of_shown t input o.timeout w hplace hargv hshown
    refine iff_of_false ?_ (not_not.2 hshown)
    dsimp only
    rw [result_bind, hcall]
    exact fun h => h _ rfl
  · have hreports := (callWith_reports t input o.timeout hplace hargv hshown).bind fun outcome =>
      (Throws.ofOutcome (reports_checkOutcome s program (.restoreFailed p.toText) outcome)).bind
        fun _ => Throws.pure outcome
    exact iff_of_true (hreports w) hshown

variable (hdatabase : place.connection.database.filter (!·.isEmpty) = some database)

include hdatabase

theorem reports_loadArchive_iff : Reports (((tools t).loadArchive t p o).result place w).1 ↔
    ¬place.connection.ShowsPassword
      (Toolset.archiveArguments place.connection database p.toText o) := by
  unfold loadArchive
  rw [result_bind, result_read]
  dsimp only
  rw [databaseName_eq hdatabase, ofOutcome_ok, pure_bind, result_bind, result_read]
  dsimp only
  rw [reports_bind_pure, reports_load_iff hplace Toolset.archiveArguments_ne_nil]

/-- Statements that are found are loaded unless they are refused. -/
theorem reports_loadScript_iff_of_found {text : Text.Chars} {kind : Splitter.Kind}
    {found : List Statement} (htext : Backup.text w.files p = .ok text)
    (hheader : (Restore.Header.ofText? text).filter (·.needsConversion) = none)
    (hkind : Splitter.Kind.named o.parser = .ok kind)
    (hfound : kind.statements (some t.dialect) text = .ok found) :
    Reports (((tools t).loadScript t p o).result place w).1 ↔
      ((o.screen = true → refusals found = []) →
        ¬place.connection.ShowsPassword (t.loadArguments place.connection database o)) := by
  have hsplit : kind.statements (some (tools t).dialect) text = .ok found := hfound
  unfold loadScript
  rw [result_bind, Act.result_look, htext]
  dsimp only
  rw [hheader]
  dsimp only
  rw [hkind, ofOutcome_ok, pure_bind, hsplit, ofOutcome_ok, pure_bind]
  by_cases hallowed : o.screen = true → refusals found = []
  · have hnone : (if o.screen then refusals found else []) = [] := by
      split
      · exact hallowed ‹_›
      · rfl
    rw [hnone, if_neg (by simp), result_bind, result_read]
    dsimp only
    rw [databaseName_eq hdatabase, ofOutcome_ok, pure_bind, result_bind, result_read]
    dsimp only
    rw [reports_bind_pure, reports_load_iff hplace Toolset.loadArguments_ne_nil]
    exact ⟨fun h _ => h, fun h => h hallowed⟩
  · obtain ⟨hscreen, hrefused⟩ := Classical.not_imp.1 hallowed
    rw [hscreen, if_pos rfl, if_pos (by simpa using hrefused)]
    exact iff_of_true (reports_failure _) fun h => absurd (fun _ => h rfl) hallowed

/-- A script that needs no conversion is split, then what is found is loaded. -/
theorem reports_loadScript_iff_of_text {text : Text.Chars}
    (htext : Backup.text w.files p = .ok text)
    (hheader : (Restore.Header.ofText? text).filter (·.needsConversion) = none) :
    Reports (((tools t).loadScript t p o).result place w).1 ↔ o.parser ∈ ["scanner", "line"] ∧
      ∀ kind found, Splitter.Kind.named o.parser = .ok kind →
        kind.statements (some t.dialect) text = .ok found →
        (o.screen = true → refusals found = []) →
        ¬place.connection.ShowsPassword (t.loadArguments place.connection database o) := by
  cases hkind : Splitter.Kind.named o.parser with
  | error e =>
    -- An unknown parser is the one error on the way that is not reported.
    refine iff_of_false ?_ fun h => ?_
    · unfold loadScript
      rw [result_bind, Act.result_look, htext]
      dsimp only
      rw [hheader]
      dsimp only
      rw [result_bind, result_ofOutcome, hkind]
      exact fun h => not_isReported_of_named hkind (h e rfl)
    · obtain ⟨kind, hknown⟩ := named_eq_ok_iff.2 h.1
      cases hkind.symm.trans hknown
  | ok kind =>
    have hparser := named_eq_ok_iff.1 ⟨kind, hkind⟩
    cases hfound : kind.statements (some t.dialect) text with
    | error e =>
      have hsplit : kind.statements (some (tools t).dialect) text = .error e := hfound
      refine iff_of_true ?_ ⟨hparser, ?_⟩
      · unfold loadScript
        rw [result_bind, Act.result_look, htext]
        dsimp only
        rw [hheader]
        dsimp only
        rw [hkind, ofOutcome_ok, pure_bind, result_bind, result_ofOutcome, hsplit]
        exact reports_error.2 (reports_statements e hfound)
      · rintro _ found ⟨⟩ hfound'
        cases hfound.symm.trans hfound'
    | ok found =>
      rw [reports_loadScript_iff_of_found hplace hdatabase htext hheader hkind hfound]
      refine ⟨fun h => ⟨hparser, ?_⟩, fun h => h.2 kind found rfl hfound⟩
      rintro _ _ ⟨⟩ hfound'
      cases hfound.symm.trans hfound'
      exact h

theorem reports_loadScript_iff : Reports (((tools t).loadScript t p o).result place w).1 ↔
    ∀ text, Backup.text w.files p = .ok text →
      (∀ h ∈ Restore.Header.ofText? text, h.needsConversion = false) →
        o.parser ∈ ["scanner", "line"] ∧
          ∀ kind found, Splitter.Kind.named o.parser = .ok kind →
            kind.statements (some t.dialect) text = .ok found →
            (o.screen = true → refusals found = []) →
            ¬place.connection.ShowsPassword (t.loadArguments place.connection database o) := by
  cases htext : Backup.text w.files p with
  | error e =>
    refine iff_of_true ?_ (by simp)
    unfold loadScript
    rw [result_bind, Act.result_look, htext]
    exact reports_error.2 (Backup.reports_text e htext)
  | ok text =>
    cases hheader : (Restore.Header.ofText? text).filter (·.needsConversion) with
    | some header =>
      obtain ⟨hmem, hneeds⟩ := Option.filter_eq_some_iff.1 hheader
      refine iff_of_true ?_ ?_
      · unfold loadScript
        rw [result_bind, Act.result_look, htext]
        dsimp only
        rw [hheader]
        exact reports_failure _
      · rintro _ ⟨⟩ hnone
        rw [hnone header hmem] at hneeds
        cases hneeds
    | none =>
      have hnone : ∀ h ∈ Restore.Header.ofText? text, h.needsConversion = false := by
        simpa [Option.filter_eq_none_iff] using hheader
      rw [reports_loadScript_iff_of_text hplace hdatabase htext hheader]
      constructor
      · rintro h _ ⟨⟩ -
        exact h
      · exact fun h => h text rfl hnone

theorem reports_loadScript_iff_loads (hscript : t = .postgresql → ∃ format,
      Backup.formatOf w.files p = .ok format ∧ format.kind ≠ .pgCustom ∧ format.kind ≠ .pgTar)
    (harchive : ¬TakesArchive t w.files p) :
    Reports (((tools t).loadScript t p o).result place w).1 ↔
      (∀ text, TakesScript t w.files p text → o.parser ∈ ["scanner", "line"]) ∧
        ∀ argv, Loads t place.connection database w.files p o argv →
          ¬place.connection.ShowsPassword argv := by
  rw [reports_loadScript_iff hplace hdatabase]
  constructor
  · intro h
    refine ⟨fun text htakes => (h text htakes.1 htakes.2.1).1, ?_⟩
    rintro argv (⟨htakes, hkind, hfound, hallowed⟩ | htakes)
    · exact (h _ htakes.1 htakes.2.1).2 _ _ hkind hfound hallowed
    · exact absurd htakes harchive
  · rintro ⟨hparser, hloads⟩ text htext hheader
    have htakes : TakesScript t w.files p text := ⟨htext, hheader, hscript⟩
    exact ⟨hparser text htakes, fun kind found hkind hfound hallowed =>
      hloads _ (.script htakes hkind hfound hallowed)⟩

theorem reports_loadFile_iff : Reports (((tools t).loadFile t p o).result place w).1 ↔
    (∀ text, TakesScript t w.files p text → o.parser ∈ ["scanner", "line"]) ∧
      ∀ argv, Loads t place.connection database w.files p o argv →
        ¬place.connection.ShowsPassword argv := by
  cases t with
  | mysql =>
    exact reports_loadScript_iff_loads (t := .mysql) hplace hdatabase (by simp)
      (by simp [TakesArchive])
  | postgresql =>
    unfold loadFile
    dsimp only
    rw [result_bind, Act.result_look]
    cases hformat : Backup.formatOf w.files p with
    | error e =>
      rw [hides_iff_of_not_takesScript (not_takesScript (by simp [hformat]))]
      refine iff_of_true (reports_error.2 (Backup.reports_formatOf e hformat)) ?_
      rintro ⟨-, format, hknown, -⟩
      cases hformat.symm.trans hknown
    | ok format =>
      dsimp only
      by_cases hkind : format.kind = .pgCustom ∨ format.kind = .pgTar
      · rw [if_neg (by rcases hkind with h | h <;> simp [h]),
          hides_iff_of_not_takesScript (not_takesScript (by simpa [hformat] using hkind))]
        by_cases hcompressed : format.compressed = true
        · rw [if_pos hcompressed]
          refine iff_of_true (reports_failure _) ?_
          rintro ⟨-, format', hknown, -, hplain⟩
          cases hformat.symm.trans hknown
          cases hcompressed.symm.trans hplain
        · rw [if_neg hcompressed, reports_loadArchive_iff (t := .postgresql) hplace hdatabase]
          exact ⟨fun h _ => h, fun h => h ⟨rfl, format, hformat, hkind, by simpa using hcompressed⟩⟩
      · obtain ⟨hcustom, htar⟩ := not_or.1 hkind
        rw [if_pos (by simp [hcustom, htar])]
        refine reports_loadScript_iff_loads (t := .postgresql) hplace hdatabase
          (fun _ => ⟨format, hformat, hcustom, htar⟩) ?_
        rintro ⟨-, format', hknown, harchive, -⟩
        cases hformat.symm.trans hknown
        exact hkind harchive

/-- A restore with tools returns unless it comes to a script that is split in an unknown way, or to
a command that shows the password. -/
theorem returns_restore_iff {raw : String} :
    (∃ result after, ((tools t).restore raw o).result place w = (.ok result, after)) ↔
      (∀ text, TakesScript t w.files (.ofText raw) text → o.parser ∈ ["scanner", "line"]) ∧
        ∀ argv, Loads t place.connection database w.files (.ofText raw) o argv →
          ¬place.connection.ShowsPassword argv := by
  unfold restore restoreWith
  rw [returns_guarded_iff]
  exact reports_loadFile_iff hplace hdatabase

end Restore

/-! ## Both -/

/-- With a database name and a supported target or none, a backup with tools returns a result
exactly if the command that it comes to does not show the password: that is the dump, unless the
folder of the destination cannot be made. A restore with tools returns a result exactly if what it
comes to neither is split in an unknown way nor shows the password. -/
theorem tools_return_iff {o : BackupOptions} {restoring : RestoreOptions} {d : Path} {raw : String}
    {target : Option Dialect} {existed : Bool} (hplace : place.tools = Tools.secure start)
    (hdatabase : place.connection.database = some database) (hnamed : database ≠ "")
    (htarget : o.target = .ok target) (hname : d.name ≠ "") (hnul : d.hasNul = false)
    (hhas : w.files.has d = .ok existed) :
    ((∃ result after, ((tools t).create d o).result place w = (.ok result, after)) ↔
      ((∃ files, w.files.makeFolder d.parent = .ok files) →
        ¬place.connection.ShowsPassword (t.dumpArguments place.connection database o))) ∧
    ((∃ result after, ((tools t).restore raw restoring).result place w = (.ok result, after)) ↔
      (∀ text, TakesScript t w.files (.ofText raw) text →
          restoring.parser ∈ ["scanner", "line"]) ∧
        ∀ argv, Loads t place.connection database w.files (.ofText raw) restoring argv →
          ¬place.connection.ShowsPassword argv) := by
  have hfilter : place.connection.database.filter (!·.isEmpty) = some database := by
    simp [hdatabase, Option.filter, hnamed]
  exact ⟨returns_create_iff hplace hfilter htarget hname hnul hhas,
    returns_restore_iff hplace hfilter⟩

def serving (user password : String) : Surroundings :=
  { around (keeping "t") with
    connection := { dialect := .mysql, host := some "localhost", username := some user
                    password := some password, database := some "shop" }
    tools := Tools.secure fun _ => .unstarted "" }

theorem other_password_returns :
    (∃ result after, ((tools .mysql).create { parts := ["b.sql"] } {}).result
        (serving "root" "geheim") {} = (.ok result, after)) ∧
      ∃ result after, ((tools .mysql).restore "b.sql" {}).result
        (serving "root" "geheim") {} = (.ok result, after) := by
  let c := (serving "root" "geheim").connection
  have hdump : ¬c.ShowsPassword (Toolset.mysql.dumpArguments c "shop" {}) :=
    mt Toolset.showsPassword_iff.2 (show ¬(Toolset.mysql.runOf c _ none none).secrets.any
      (Tool.holdsSecret (Toolset.mysql.dumpArguments c "shop" {})) = true by decide)
  have hload : ¬c.ShowsPassword (Toolset.mysql.loadArguments c "shop" {}) :=
    mt Toolset.showsPassword_iff.2 (show ¬(Toolset.mysql.runOf c _ none none).secrets.any
      (Tool.holdsSecret (Toolset.mysql.loadArguments c "shop" {})) = true by decide)
  obtain ⟨hcreate, hrestore⟩ := @tools_return_iff .mysql _ (serving "root" "geheim") {} "shop" {} {}
    { parts := ["b.sql"] } "b.sql" none false rfl rfl (by decide) rfl (by decide) (by decide) rfl
  refine ⟨hcreate.2 fun _ => hdump, hrestore.2 ⟨by simp, ?_⟩⟩
  rintro argv (_ | ⟨⟨⟩, -⟩)
  exact hload

/-- Not every user and password are dumped: a password may be part of the user's name. -/
theorem not_tools_return : ¬∀ (t : Toolset) (start : Tool.Child → Tool.Ending)
    (place : Surroundings) (w : World) (database password : String) (o : BackupOptions)
    (restoring : RestoreOptions) (d : Path) (raw : String), place.tools = Tools.secure start →
    place.connection.dialect = t.dialect → place.connection.database = some database →
    database ≠ "" → place.connection.password = some password → password ≠ "" →
    (∃ target, o.target = .ok target) → d.name ≠ "" → d.hasNul = false →
    (∃ existed, w.files.has d = .ok existed) →
    (∃ result after, ((tools t).create d o).result place w = (.ok result, after)) ∧
      ∃ result after, ((tools t).restore raw restoring).result place w = (.ok result, after) := by
  intro h
  obtain ⟨hcreate, -⟩ := h .mysql (fun _ => .unstarted "") (serving "root" "root") {} "shop" "root"
    {} {} { parts := ["b.sql"] } "b.sql" rfl rfl rfl (by decide) rfl (by decide) ⟨none, rfl⟩
    (by decide) (by decide) ⟨false, rfl⟩
  rw [returns_create_iff (t := .mysql) rfl rfl rfl (by decide) (by decide) rfl] at hcreate
  refine hcreate ⟨_, rfl⟩ ⟨"root", rfl, by decide, "--user=root", ?_, ?_⟩
  · decide
  · exact ⟨"--user=".toList, [], rfl⟩

end Strategy

end SqlFerry
