import SqlFerry.Proofs.Restore.Screening

/-!
# Restores of some tables

The pass over a script selects a statement by the table that it defines or writes to. When sequences
are set once more, a statement is selected if the name of a wanted table stands anywhere in its
text, also as a part of another name. So a restore of some tables keeps to these tables exactly if
each statement that is selected in this way names one of them as a whole, or if the restore does
not come to set sequences.
-/

namespace SqlFerry

open Text

namespace Sql

open Pattern

def namePiece : Pattern :=
  choice [char '$' ++ capture 1 (star wordChar) ++ char '$' ++ capture 2 (few any) ++ char '$' ++
    again 1 ++ char '$', quotedBy '\'', quotedIdent, plus (one isBare)]

/-- What a piece names. What stands in a string can be the name itself, or a name that is quoted or
qualified once more. -/
def namesOfPiece (m : Match) : List String :=
  match m.group? 2, m.text with
  | some body, _ => [String.ofList body, unquote body]
  | none, '\'' :: _ =>
    let body := replace ['\'', '\''] ['\''] (inner m.text)
    [String.ofList body, unquote body]
  | none, name => [unquote name]

def wholeNames (sql : String) : List String :=
  (namePiece.findAll sql.toList).flatMap namesOfPiece

end Sql

namespace Restore

open Work Restoring

variable {job : Job} {statements : List Statement} {names : List String}

/-- Whether a statement concerns a wanted table: the table that it defines or writes to is wanted,
or it sets a sequence and names a wanted table itself. -/
def Touches (d : Dialect) (names : List String) (sql : String) : Prop :=
  (∃ t ∈ Sql.targetTable? sql, lower t ∈ names) ∨
    (setsSequence d sql = true ∧ ∃ n ∈ Sql.wholeNames sql, lower n ∈ names)

instance (d : Dialect) (names : List String) (sql : String) : Decidable (Touches d names sql) :=
  inferInstanceAs (Decidable (_ ∨ _))

/-! ## What selects a statement -/

/-- The pass over the script takes a statement without a table for one of the table with the empty
name. -/
theorem concerns_iff (hwanted : job.wanted = some names) (hnames : "" ∉ names) (s : Statement) :
    job.concerns s = true ↔ ∃ t ∈ Sql.targetTable? s.text, lower t ∈ names := by
  have hempty : lower "" = "" := rfl
  unfold Job.concerns
  rw [hwanted]
  cases Sql.targetTable? s.text with
  | none => simpa [hempty] using hnames
  | some t => simp

theorem mem_replayed (hwanted : job.wanted = some names) {s : Statement} :
    s ∈ job.replayed statements ↔ s ∈ statements ∧
      setsSequence job.database.dialect s.text = true ∧
      ∃ n ∈ names, contains (lower s.text) n = true := by
  simp only [Job.replayed, sequenceStatements, hwanted, Option.map_some, Option.getD_some,
    List.mem_filter, List.any_eq_true, and_assoc]

namespace Session

theorem widest_plain (d : Dialect) : ∀ sql ∈ (widest d).texts,
    Sql.targetTable? sql = none ∧ setsSequence d sql = false := by
  cases d <;> decide +kernel

/-- The statements of a session concern no table and set no sequence. -/
theorem plan_plain (d : Dialect) (o : RestoreOptions) : ∀ sql ∈ (plan d o).texts,
    Sql.targetTable? sql = none ∧ setsSequence d sql = false :=
  fun sql h => widest_plain d sql ((plan_within d o).texts h)

end Session

/-- The passes over the script never select a statement of the session. -/
theorem unselected_of_mem_session (hwanted : job.wanted = some names) (hnames : "" ∉ names)
    {s : Statement} (hs : s.text ∈ job.session.texts) :
    job.concerns s = false ∧ s ∉ job.replayed statements := by
  obtain ⟨htarget, hsets⟩ := Session.plan_plain _ _ _ hs
  constructor
  · rw [← Bool.not_eq_true, concerns_iff hwanted hnames, htarget]
    rintro ⟨t, ht, -⟩
    cases ht
  · rw [mem_replayed hwanted, hsets]
    rintro ⟨-, h, -⟩
    cases h

/-! ## What is run -/

def RunsOfScript (job : Job) (statements : List Statement) (sql : String) : Prop :=
  .exec sql ∈ ((runStatements statements).result job {}).2.log ∧ sql ∉ job.session.texts

instance (job : Job) (statements : List Statement) (sql : String) :
    Decidable (RunsOfScript job statements sql) :=
  inferInstanceAs (Decidable (_ ∧ _))

/-- A restore keeps to the wanted tables, whatever the database refuses, exactly if all statements
that set sequences once more do, unless it does not come to run them. -/
theorem runs_touching_iff (hwanted : job.wanted = some names) (hnames : "" ∉ names) :
    (∀ refuses, ∀ s ∈ statements, RunsOfScript (job.refusing refuses) statements s.text →
      Touches job.database.dialect names s.text) ↔
    (job.options.resetSequences = true → job.GoesOn statements →
      ∀ s ∈ job.replayed statements, Touches job.database.dialect names s.text) := by
  constructor
  · intro h hresets hgoesOn s hs
    have hmem : s ∈ statements := ((mem_replayed hwanted).1 hs).1
    have hown : s.text ∉ job.session.texts :=
      fun hown => (unselected_of_mem_session hwanted hnames hown).2 hs
    refine h (fun _ _ => none) s hmem ⟨?_, hown⟩
    exact @mem_log_of_replayed (job.refusing fun _ _ => none) statements (fun _ _ => rfl)
      hresets hgoesOn s hs
  · rintro h refuses s - ⟨hlog, hown⟩
    have hruns : Runs (job.refusing refuses) statements s.text := runs_of_mem_log hlog
    generalize s.text = sql at hruns hown
    cases hruns with
    | session hs => exact absurd hs hown
    | @passed s _ hconcerns _ => exact .inl ((concerns_iff hwanted hnames s).1 hconcerns)
    | replayed hs hresets hgoesOn => exact h hresets hgoesOn _ hs

/-- The counter of another table is set, whose name contains that of the wanted one. -/
theorem superuser_run :
    let job : Job := { database := .refusing .mysql fun _ _ => none, options := {}
                       wanted := some ["user"] }
    let s : Statement := .plain 0 "ALTER TABLE superuser AUTO_INCREMENT=5"
    "" ∉ ["user"] ∧ ¬∀ refuses, ∀ s' ∈ [s], RunsOfScript (job.refusing refuses) [s] s'.text →
      Touches .mysql ["user"] s'.text := by
  intro job s
  have hnames : "" ∉ ["user"] := by decide
  have hreplayed : s ∈ job.replayed [s] := by decide +kernel
  have hforeign : ¬Touches .mysql ["user"] s.text := by decide +kernel
  have hgoesOn : job.GoesOn [s] := fun hstop => absurd hstop (by decide)
  refine ⟨hnames, fun h => hforeign ?_⟩
  exact (runs_touching_iff rfl hnames).1 h rfl hgoesOn s hreplayed

/-- A restore of some tables does not keep to them. -/
theorem not_runs_touching : ¬∀ (job : Job) (names : List String) (statements : List Statement),
    job.wanted = some names → names ≠ [] → ∀ s ∈ statements,
      RunsOfScript job statements s.text → Touches job.database.dialect names s.text := by
  intro h
  let job : Job := { database := .refusing .mysql fun _ _ => none, options := {}
                     wanted := some ["user"] }
  let s : Statement := .plain 0 "ALTER TABLE superuser AUTO_INCREMENT=5"
  have hruns : RunsOfScript job [s] s.text := by decide +kernel
  have hforeign : ¬Touches .mysql ["user"] s.text := by decide +kernel
  exact hforeign (h job ["user"] [s] rfl (by simp) s (by simp) hruns)

end Restore

end SqlFerry
