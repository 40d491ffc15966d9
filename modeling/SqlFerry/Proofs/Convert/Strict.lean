import SqlFerry.Convert.Script

/-!
# Strict conversions

A strict conversion is the lenient one up to the first dropped feature: it fails there with the
warning that the lenient one gives, and is the same if nothing is dropped. Each step of a conversion
has this property whatever warnings were given before, and so do steps one after another. Where the
lenient conversion fails, so does the strict one, there or before.
-/

namespace SqlFerry.Convert

def cut {α : Type} (warnings : List Warning) (a : α) : Except Fault α :=
  match warnings.find? (·.severity == .dropped) with
  | none => .ok a
  | some w => .error w.failure

/-- Whether the strict work is the lenient one up to the first dropped feature. -/
structure Cuts {α : Type} (lenient strict : Converting α) : Prop where
  run : ∀ {before a after}, lenient.run before = .ok (a, after) →
    ∃ given, after = before ++ given ∧ strict.run before = cut given (a, after)
  fails : ∀ {before e}, lenient.run before = .error e → ∃ e', strict.run before = .error e'

section Cut

variable {α β : Type} {ws more : List Warning} {a : α} {b : β}

theorem cut_append_of_ok (h : cut ws a = .ok a) (b : β) : cut (ws ++ more) b = cut more b := by
  unfold cut at h ⊢
  rw [List.find?_append]
  cases hw : ws.find? (·.severity == .dropped) with
  | none => rfl
  | some w =>
    rw [hw] at h
    cases h

theorem cut_append_of_error {e : Fault} (h : cut ws a = .error e) (b : β) :
    cut (ws ++ more) b = .error e := by
  unfold cut at h ⊢
  rw [List.find?_append]
  cases hw : ws.find? (·.severity == .dropped) with
  | none =>
    rw [hw] at h
    cases h
  | some w =>
    rw [hw] at h
    exact congrArg Except.error (Except.error.inj h)

theorem cut_eq (ws : List Warning) (a : α) : cut ws a = .ok a ∨ ∃ e, cut ws a = .error e := by
  unfold cut
  cases ws.find? (·.severity == .dropped) with
  | none => exact .inl rfl
  | some w => exact .inr ⟨w.failure, rfl⟩

end Cut

/-! ## Steps one after another -/

namespace Cuts

variable {α β σ : Type} {m m' : Converting α} {f f' : α → Converting β}

theorem pure (a : α) : Cuts (Pure.pure a) (Pure.pure a) := by
  refine ⟨?_, by rintro _ _ ⟨⟩⟩
  rintro before _ _ ⟨⟩
  exact ⟨[], by simp, rfl⟩

theorem lift (x : Except Fault α) : Cuts (liftM x) (liftM x) := by
  refine ⟨?_, fun h => ⟨_, h⟩⟩
  cases x with
  | error e => rintro before _ _ ⟨⟩
  | ok a =>
    rintro before _ _ ⟨⟩
    exact ⟨[], by simp, rfl⟩

theorem warn (w : Warning) : Cuts (warn false w) (warn true w) := by
  refine ⟨?_, by rintro _ _ ⟨⟩⟩
  intro before a after h
  obtain ⟨rfl, rfl⟩ : a = ⟨⟩ ∧ after = before ++ [w] := by
    cases h
    exact ⟨rfl, rfl⟩
  refine ⟨[w], rfl, ?_⟩
  cases hw : w.severity with
  | lossy => simp [Convert.warn, cut, hw]; rfl
  | dropped => simp [Convert.warn, cut, hw]; rfl

theorem bind (hm : Cuts m m') (hf : ∀ a, Cuts (f a) (f' a)) : Cuts (m >>= f) (m' >>= f') := by
  constructor
  case run =>
    intro before b after h
    rw [StateT.run_bind] at h ⊢
    cases hr : m.run before with
    | error e =>
      rw [hr] at h
      cases h
    | ok r =>
      obtain ⟨a, between⟩ := r
      rw [hr] at h
      obtain ⟨given, rfl, hstrict⟩ := hm.run hr
      obtain ⟨more, rfl, hstrict'⟩ := (hf a).run h
      refine ⟨given ++ more, by rw [List.append_assoc], ?_⟩
      rw [hstrict]
      rcases cut_eq given (a, before ++ given) with hok | ⟨e, herror⟩
      · rw [hok, cut_append_of_ok hok]
        exact hstrict'
      · rw [herror, cut_append_of_error herror]
        rfl
  case fails =>
    intro before e h
    rw [StateT.run_bind] at h ⊢
    cases hr : m.run before with
    | error e =>
      obtain ⟨e', hstrict⟩ := hm.fails hr
      rw [hstrict]
      exact ⟨e', rfl⟩
    | ok r =>
      obtain ⟨a, between⟩ := r
      rw [hr] at h
      obtain ⟨given, rfl, hstrict⟩ := hm.run hr
      rw [hstrict]
      rcases cut_eq given (a, before ++ given) with hok | ⟨e', herror⟩
      · rw [hok]
        exact (hf a).fails h
      · rw [herror]
        exact ⟨e', rfl⟩

theorem ite {p : Prop} [Decidable p] {n n' : Converting α} (hm : Cuts m m') (hn : Cuts n n') :
    Cuts (if p then m else n) (if p then m' else n') := by
  split
  · exact hm
  · exact hn

variable {γ : Type} {l : List γ}

theorem mapM {f f' : γ → Converting α} (hf : ∀ c, Cuts (f c) (f' c)) :
    Cuts (l.mapM f) (l.mapM f') := by
  induction l with
  | nil => exact pure []
  | cons c l ih =>
    rw [List.mapM_cons, List.mapM_cons]
    exact (hf c).bind fun _ => ih.bind fun _ => pure _

theorem filterMapM {f f' : γ → Converting (Option α)} (hf : ∀ c, Cuts (f c) (f' c)) :
    Cuts (l.filterMapM f) (l.filterMapM f') := by
  induction l with
  | nil => exact pure []
  | cons c l ih =>
    rw [List.filterMapM_cons, List.filterMapM_cons]
    refine (hf c).bind fun a => ?_
    cases a with
    | none => exact ih
    | some a => exact ih.bind fun _ => pure _

theorem foldlM {f f' : σ → γ → Converting σ} (hf : ∀ s c, Cuts (f s c) (f' s c)) (s : σ) :
    Cuts (l.foldlM f s) (l.foldlM f' s) := by
  induction l generalizing s with
  | nil => exact pure s
  | cons c l ih =>
    rw [List.foldlM_cons, List.foldlM_cons]
    exact (hf s c).bind ih

theorem forIn {f f' : γ → σ → Converting (ForInStep σ)} (hf : ∀ c s, Cuts (f c s) (f' c s))
    (s : σ) : Cuts (ForIn.forIn l s f) (ForIn.forIn l s f') := by
  induction l generalizing s with
  | nil => exact pure s
  | cons c l ih =>
    rw [List.forIn_cons, List.forIn_cons]
    refine (hf c s).bind fun r => ?_
    cases r with
    | done s => exact pure s
    | yield s => exact ih s

end Cuts

/-! ## Schemas -/

namespace Route

variable (source target : Dialect) (t : Table)

theorem note_cuts (severity : Severity) (entityType entity : String) (table : Option String)
    (message : String) :
    Cuts (note ⟨source, target, false⟩ severity entityType entity table message)
      (note ⟨source, target, true⟩ severity entityType entity table message) :=
  .warn _

theorem convertAction_cuts (c : Constraint) (action : Option String) :
    Cuts (convertAction ⟨source, target, false⟩ t c action)
      (convertAction ⟨source, target, true⟩ t c action) := by
  unfold convertAction
  exact .ite ((note_cuts ..).bind fun _ => .pure _) (.pure _)

theorem convertConstraint_cuts (c : Constraint) :
    Cuts (convertConstraint ⟨source, target, false⟩ t c)
      (convertConstraint ⟨source, target, true⟩ t c) := by
  unfold convertConstraint
  cases c.kind with
  | foreignKey =>
    exact .ite ((convertAction_cuts ..).bind fun _ => (convertAction_cuts ..).bind fun _ => .pure _)
      (.pure _)
  | check | unique => exact .pure _

theorem convertDefault_cuts (c : Column) :
    Cuts (convertDefault ⟨source, target, false⟩ t c)
      (convertDefault ⟨source, target, true⟩ t c) := by
  unfold convertDefault
  cases c.default with
  | none => exact .pure _
  | some text =>
    refine .ite ?uuid (.ite (.pure _) (.ite ?truth (.pure _)))
    case uuid =>
      dsimp only
      cases Feature.uuidDefault.expression? target with
      | some e => exact .pure _
      | none => exact (note_cuts ..).bind fun _ => .pure _
    case truth =>
      dsimp only
      split <;> exact .pure _

theorem emulateEnum_cuts (c : Column) :
    Cuts (emulateEnum ⟨source, target, false⟩ t c) (emulateEnum ⟨source, target, true⟩ t c) := by
  unfold emulateEnum
  exact .ite ((note_cuts ..).bind fun _ => .pure _) ((note_cuts ..).bind fun _ => .pure _)

theorem convertType_cuts (c : Column) :
    Cuts (convertType ⟨source, target, false⟩ t c) (convertType ⟨source, target, true⟩ t c) := by
  unfold convertType
  dsimp only
  split
  · exact (note_cuts ..).bind fun _ => .pure _
  · exact .ite (emulateEnum_cuts ..) (.pure _)

theorem dropAttributes_cuts (c : Column) :
    Cuts (dropAttributes ⟨source, target, false⟩ t c)
      (dropAttributes ⟨source, target, true⟩ t c) := by
  unfold dropAttributes
  refine .ite (.pure _) (.ite ((note_cuts ..).bind fun _ => ?_) ?_) <;>
  exact .ite ((note_cuts ..).bind fun _ => .pure _) (.pure _)

theorem convertAutoIncrement_cuts (c : Column) :
    Cuts (convertAutoIncrement ⟨source, target, false⟩ t c)
      (convertAutoIncrement ⟨source, target, true⟩ t c) := by
  unfold convertAutoIncrement
  refine .ite (.pure _) ?_
  cases target with
  | postgresql => exact .ite (.pure _) ((note_cuts ..).bind fun _ => .pure _)
  | sqlite | mysql => exact .pure _

theorem convertColumn_cuts (c : Column) :
    Cuts (convertColumn ⟨source, target, false⟩ t c)
      (convertColumn ⟨source, target, true⟩ t c) := by
  unfold convertColumn
  exact (convertType_cuts ..).bind fun _ => (Cuts.lift _).bind fun _ =>
    (dropAttributes_cuts ..).bind fun _ => (convertDefault_cuts ..).bind fun _ =>
      (convertAutoIncrement_cuts ..).bind fun _ => .pure _

theorem requireRowKey_cuts (c : Column) :
    Cuts (requireRowKey ⟨source, target, false⟩ t c)
      (requireRowKey ⟨source, target, true⟩ t c) := by
  unfold requireRowKey
  exact .ite ((note_cuts ..).bind fun _ => .pure _) (.pure _)

theorem addPrefixLength_cuts (i : Index) (ic : IndexColumn) :
    Cuts (addPrefixLength ⟨source, target, false⟩ t i ic)
      (addPrefixLength ⟨source, target, true⟩ t i ic) := by
  unfold addPrefixLength
  cases t.column? ic.name with
  | none => exact .pure _
  | some c => exact .ite ((note_cuts ..).bind fun _ => .pure _) (.pure _)

theorem convertMethod_cuts (i : Index) :
    Cuts (convertMethod ⟨source, target, false⟩ t i)
      (convertMethod ⟨source, target, true⟩ t i) := by
  unfold convertMethod
  cases i.method with
  | none => exact .pure _
  | some m => exact .ite (.pure _) ((note_cuts ..).bind fun _ => .pure _)

theorem convertIndexColumns_cuts (i : Index) :
    Cuts (convertIndexColumns ⟨source, target, false⟩ t i)
      (convertIndexColumns ⟨source, target, true⟩ t i) := by
  have drop : Cuts (dropPrefixLengths ⟨source, target, false⟩ t i)
      (dropPrefixLengths ⟨source, target, true⟩ t i) := by
    unfold dropPrefixLengths
    exact .ite ((note_cuts ..).bind fun _ => .pure _) (.pure _)
  unfold convertIndexColumns
  exact drop.bind fun _ => .ite (.mapM fun _ => addPrefixLength_cuts ..) (.pure _)

theorem convertIndex_cuts (i : Index) :
    Cuts (convertIndex ⟨source, target, false⟩ t i)
      (convertIndex ⟨source, target, true⟩ t i) := by
  unfold convertIndex
  exact .ite (.pure _) (.ite ((note_cuts ..).bind fun _ => .pure _)
    ((convertMethod_cuts ..).bind fun _ => (convertIndexColumns_cuts ..).bind fun _ => .pure _))

theorem convertColumns_cuts (cs : List Column) :
    Cuts (convertColumns ⟨source, target, false⟩ t cs)
      (convertColumns ⟨source, target, true⟩ t cs) := by
  induction cs with
  | nil => exact .pure _
  | cons c cs ih =>
    unfold convertColumns
    exact (convertColumn_cuts ..).bind fun _ => ih.bind fun _ => .pure _

theorem convertTable_cuts :
    Cuts (convertTable ⟨source, target, false⟩ t) (convertTable ⟨source, target, true⟩ t) := by
  unfold convertTable
  exact (Cuts.mapM fun _ => convertConstraint_cuts ..).bind fun _ =>
    (convertColumns_cuts ..).bind fun _ => (Cuts.mapM fun _ => requireRowKey_cuts ..).bind fun _ =>
      (Cuts.filterMapM fun _ => convertIndex_cuts ..).bind fun _ => .pure _

theorem convertSchema_cuts (s : Schema) :
    Cuts (convertSchema ⟨source, target, false⟩ s) (convertSchema ⟨source, target, true⟩ s) := by
  unfold convertSchema
  exact .ite (.pure _) ((Cuts.mapM fun _ => convertTable_cuts ..).bind fun _ => .pure _)

end Route

/-! ## Scripts -/

section Scripts

variable (source target : Dialect)

theorem convertDefinition_cuts (schema : Schema) (p : Progress) (s : Statement) :
    Cuts (convertDefinition ⟨source, target, false⟩ schema p s)
      (convertDefinition ⟨source, target, true⟩ schema p s) := by
  unfold convertDefinition
  cases schema.table? ((Sql.targetTable? s.text).getD "") with
  | none => exact (Cuts.warn _).bind fun _ => .pure _
  | some t => exact (Cuts.lift _).bind fun _ => .ite (.pure _) (.pure _)

theorem convertStatement_cuts (schema : Schema) (p : Progress) (s : Statement) :
    Cuts (convertStatement ⟨source, target, false⟩ schema p s)
      (convertStatement ⟨source, target, true⟩ schema p s) := by
  unfold convertStatement
  exact .ite (convertDefinition_cuts ..) (.ite (.pure _) (.ite (.pure _) (.ite (.pure _)
    (.ite (.pure _) (.ite (.pure _) (.ite (.pure _) (.pure _)))))))

theorem summarize_cuts (p : Progress) :
    Cuts (summarize ⟨source, target, false⟩ p) (summarize ⟨source, target, true⟩ p) := by
  unfold summarize
  refine Cuts.bind (.forIn (fun _ _ => .ite (.pure _) ?_) _) fun _ => ?_
  · exact (Cuts.warn _).bind fun _ => .pure _
  · exact (Cuts.forIn (fun _ _ => (Cuts.warn _).bind fun _ => .pure _) _).bind fun _ => .pure _

theorem convertAll_cuts (found : List Statement) :
    Cuts (convertAll ⟨source, target, false⟩ found) (convertAll ⟨source, target, true⟩ found) := by
  unfold convertAll
  exact (Cuts.lift _).bind fun _ => (Route.convertSchema_cuts ..).bind fun _ =>
    (Cuts.foldlM (fun _ _ => convertStatement_cuts ..) _).bind fun _ =>
      (summarize_cuts ..).bind fun _ => .pure _

end Scripts

/-! ## The first dropped feature -/

/-- Whether a strict conversion is the lenient one, which gives `a` with these warnings, cut at the
first dropped feature. -/
structure CutAtLoss {α : Type} (warnings : List Warning) (a : α) (strict : Except Fault α) :
    Prop where
  fails_iff : (∃ message context, strict = .error (.fail (.inexpressible message context))) ↔
    ∃ w ∈ warnings, w.severity = .dropped
  failure : ∀ w ∈ warnings.find? (·.severity == .dropped),
    strict = .error (.fail (.inexpressible w.display
      [("entity_type", w.entityType), ("entity", w.entity), ("table", .ofOption .text w.table)]))
  same : (∀ w ∈ warnings, w.severity ≠ .dropped) → strict = .ok a

theorem CutAtLoss.of_cut {α : Type} (warnings : List Warning) (a : α) :
    CutAtLoss warnings a (cut warnings a) where
  fails_iff := by
    unfold cut
    cases hfind : warnings.find? (·.severity == .dropped) with
    | none =>
      have hnone : ∀ w ∈ warnings, w.severity ≠ .dropped := by simpa using hfind
      exact ⟨by rintro ⟨_, _, ⟨⟩⟩, fun ⟨w, hw, hdropped⟩ => absurd hdropped (hnone w hw)⟩
    | some w =>
      have hdropped : w.severity = .dropped := by simpa using List.find?_some hfind
      exact ⟨fun _ => ⟨w, List.mem_of_find?_eq_some hfind, hdropped⟩, fun _ => ⟨_, _, rfl⟩⟩
  failure := by
    rintro w hw
    rw [cut, Option.mem_def.1 hw]
    rfl
  same := by
    intro hnone
    have hfind : warnings.find? (·.severity == .dropped) = none := by simpa using hnone
    rw [cut, hfind]

/-- Whether the strict conversion is the lenient one cut at the first dropped feature if the lenient
one succeeds, and else fails too. -/
structure CutsAtLoss {α : Type} (warnings : α → List Warning) (lenient strict : Except Fault α) :
    Prop where
  success : ∀ {a}, lenient = .ok a → CutAtLoss (warnings a) a strict
  failure : ∀ {e}, lenient = .error e → ∃ e', strict = .error e'

variable {source target : Dialect}

theorem schema_cutsAtLoss (own : Option Dialect) (s : Schema) :
    CutsAtLoss Prod.snd (schema s target own false) (schema s target own true) := by
  have hcuts := Route.convertSchema_cuts (own.getD (s.dialect.getD target)) target s
  refine ⟨?_, hcuts.fails⟩
  rintro ⟨converted, warnings⟩ hlenient
  obtain ⟨given, hgiven, hstrict⟩ := hcuts.run hlenient
  rw [List.nil_append] at hgiven
  subst hgiven
  have hcut : schema s target own true = cut warnings (converted, warnings) := hstrict
  rw [hcut]
  exact .of_cut ..

theorem statements_cutsAtLoss (found : List Statement) :
    CutsAtLoss Script.warnings (statements ⟨source, target, false⟩ found)
      (statements ⟨source, target, true⟩ found) := by
  by_cases hsame : source = target
  case pos =>
    subst hsame
    have huntouched (strict : Bool) :
        statements ⟨source, source, strict⟩ found = .ok { statements := found } := by
      simp [statements, Pure.pure, Except.pure]
    rw [huntouched, huntouched]
    refine ⟨?_, by rintro _ ⟨⟩⟩
    rintro _ ⟨⟩
    exact .of_cut [] _
  case neg =>
    have hcuts := convertAll_cuts source target found
    simp only [statements, beq_eq_false_iff_ne.2 hsame, Bool.false_eq_true, if_false]
    cases hrun : (convertAll ⟨source, target, false⟩ found).run [] with
    | error e =>
      obtain ⟨e', hstrict⟩ := hcuts.fails hrun
      rw [hstrict]
      exact ⟨by rintro _ ⟨⟩, fun _ => ⟨e', rfl⟩⟩
    | ok r =>
      obtain ⟨⟨all, dropped⟩, warnings⟩ := r
      obtain ⟨given, hgiven, hstrict⟩ := hcuts.run hrun
      rw [List.nil_append] at hgiven
      subst hgiven
      rw [hstrict]
      refine ⟨?_, by rintro _ ⟨⟩⟩
      rintro _ ⟨⟩
      have hcut := CutAtLoss.of_cut warnings ({ statements := all, warnings, dropped } : Script)
      unfold cut at hcut ⊢
      cases hfind : warnings.find? (·.severity == .dropped) <;>
      · rw [hfind] at hcut
        exact hcut

/-- Where a lenient conversion of a schema or of the statements of a script succeeds, the strict one
fails exactly if a warning says that something was dropped; it fails with the display of the first
such warning and what that warning is about. Otherwise both give the same. Where the lenient one
fails, so does the strict one. -/
theorem strict_cut_at_loss (source target : Dialect) :
    (∀ own s, CutsAtLoss Prod.snd (schema s target own false) (schema s target own true)) ∧
    ∀ found, CutsAtLoss Script.warnings (statements ⟨source, target, false⟩ found)
      (statements ⟨source, target, true⟩ found) :=
  ⟨schema_cutsAtLoss, statements_cutsAtLoss⟩

/-- What a column is set to whenever its row changes does not reach SQLite. -/
theorem on_update_fails :
    schema
      { tables := [{ name := "note"
                     columns := [{ name := "seen", typeName := "text"
                                   onUpdate := some "now" }] }] }
      .sqlite (some .mysql) true = .error (.fail (.inexpressible
        "[dropped] column note.seen: ON UPDATE clause is not supported by SQLite"
        [("entity_type", "column"), ("entity", "seen"), ("table", "note")])) := by
  have hlenient : schema
      { tables := [{ name := "note"
                     columns := [{ name := "seen", typeName := "text"
                                   onUpdate := some "now" }] }] }
      .sqlite (some .mysql) false = .ok
        ({ dialect := some .sqlite
           tables := [{ name := "note", columns := [{ name := "seen", typeName := "text" }] }] },
          [⟨.dropped, "column", "seen", some "note",
            "ON UPDATE clause is not supported by SQLite"⟩]) := by
    rfl
  exact (((strict_cut_at_loss .mysql .sqlite).1 _ _).success hlenient).failure _ (by rfl)

end SqlFerry.Convert
