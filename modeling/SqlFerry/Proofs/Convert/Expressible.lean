import Mathlib.Data.List.Forall2
import SqlFerry.Convert.Schema

/-!
# What converted schemas use

A schema that was converted from another dialect uses only what the target can express. Every step
of the conversion of a column settles one kind of attributes and keeps what the steps before it
settled.
-/

namespace SqlFerry

open Text

/-! ## What a dialect can express -/

structure Column.HasTypeOf (target : Dialect) (c : Column) : Prop where
  array : c.isArray = true → target = .postgresql
  enumeration : target ≠ .mysql → c.typeName ≠ "enum" ∧ c.typeName ≠ "set"

structure Column.HasLengthOf (target : Dialect) (c : Column) : Prop
    extends c.HasTypeOf target where
  characters : target = .mysql → c.typeName = "varchar" ∨ c.typeName = "char" → c.length ≠ none

structure Column.HasAttributesOf (target : Dialect) (c : Column) : Prop
    extends c.HasLengthOf target where
  signed : target ≠ .mysql → c.unsigned = false
  still : target ≠ .mysql → given c.onUpdate = false
  uncommented : target ≠ .mysql → c.comment = none

structure Column.ExpressibleIn (target : Dialect) (c : Column) : Prop
    extends c.HasAttributesOf target where
  serial : target = .postgresql → c.autoIncrement = true →
    c.family = .smallint ∨ c.family = .integer ∨ c.family = .bigint
  numbered : target = .sqlite → c.autoIncrement = true → c.typeName = "integer"

/-- Whether a column with automatic values is the whole primary key, where SQLite wants it to be. -/
def Column.IsRowKey (target : Dialect) (key : List String) (c : Column) : Prop :=
  target = .sqlite → c.autoIncrement = true → key.map lower = [lower c.name]

def Index.ExpressibleIn (target : Dialect) (i : Index) : Prop :=
  i.kind ≠ .primary → i.complaints target = []

/-- Whether a constraint is no foreign key with an action that MySQL lacks. -/
def Constraint.ExpressibleIn (target : Dialect) (c : Constraint) : Prop :=
  target = .mysql → c.kind = .foreignKey →
    c.onDelete ≠ some "SET DEFAULT" ∧ c.onUpdate ≠ some "SET DEFAULT"

structure Table.ExpressibleIn (target : Dialect) (t : Table) : Prop where
  columns : ∀ c ∈ t.columns, c.ExpressibleIn target ∧ c.IsRowKey target t.primaryKey
  indexes : ∀ i ∈ t.indexes, i.ExpressibleIn target
  constraints : ∀ c ∈ t.constraints, c.ExpressibleIn target
  options : target ≠ .mysql → t.options = []

namespace Convert

/-! ## What steps give -/

structure Gives {α : Type} (p : α → Prop) (m : Converting α) : Prop where
  run : ∀ {before a after}, m.run before = .ok (a, after) → p a

namespace Gives

variable {α β γ : Type} {p : α → Prop} {q : β → Prop} {m n : Converting α} {f : α → Converting β}

theorem pure {a : α} (ha : p a) : Gives p (Pure.pure a) := by
  constructor
  rintro before _ _ ⟨⟩
  exact ha

theorem mono {p' : α → Prop} (hm : Gives p m) (h : ∀ a, p a → p' a) : Gives p' m :=
  ⟨fun hrun => h _ (hm.run hrun)⟩

theorem lift {x : Except Fault α} (hx : ∀ a, x = .ok a → p a) : Gives p (liftM x) := by
  constructor
  intro before a after h
  cases x with
  | error e => cases h
  | ok b =>
    cases h
    exact hx a rfl

theorem bind (hm : Gives p m) (hf : ∀ a, p a → Gives q (f a)) : Gives q (m >>= f) := by
  constructor
  intro before b after h
  rw [StateT.run_bind] at h
  cases hrun : m.run before with
  | error e =>
    rw [hrun] at h
    cases h
  | ok r =>
    rw [hrun] at h
    exact (hf r.1 (hm.run hrun)).run h

/-- What work is followed by may not depend on what it gives. -/
theorem seq (hf : ∀ a, Gives q (f a)) : Gives q (m >>= f) :=
  bind (p := fun _ => True) ⟨fun _ => trivial⟩ fun a _ => hf a

theorem ite {c : Prop} [Decidable c] (hm : c → Gives p m) (hn : ¬ c → Gives p n) :
    Gives p (if c then m else n) := by
  split
  · next hc => exact hm hc
  · next hc => exact hn hc

theorem mapM {r : γ → Prop} {f : γ → Converting α} {l : List γ} (hl : ∀ c ∈ l, r c)
    (hf : ∀ c, r c → Gives p (f c)) : Gives (∀ a ∈ ·, p a) (l.mapM f) := by
  induction l with
  | nil => exact pure (by simp)
  | cons c l ih =>
    rw [List.mapM_cons]
    exact (hf c (hl c (by simp))).bind fun a ha =>
      (ih fun d hd => hl d (by simp [hd])).bind fun rest hrest => pure (by simp [ha]; exact hrest)

/-- What relates each entry to what it gives relates the lists. -/
theorem forall₂ {R : γ → α → Prop} {f : γ → Converting α} (hf : ∀ c, Gives (R c) (f c))
    (l : List γ) : Gives (List.Forall₂ R l) (l.mapM f) := by
  induction l with
  | nil => exact pure .nil
  | cons c l ih =>
    rw [List.mapM_cons]
    exact (hf c).bind fun a ha => ih.bind fun rest hrest => pure (.cons ha hrest)

theorem filterMapM {r : γ → Prop} {f : γ → Converting (Option α)} {l : List γ}
    (hl : ∀ c ∈ l, r c) (hf : ∀ c, r c → Gives (∀ a ∈ ·, p a) (f c)) :
    Gives (∀ a ∈ ·, p a) (l.filterMapM f) := by
  induction l with
  | nil => exact pure (by simp)
  | cons c l ih =>
    have hrest := ih fun d hd => hl d (by simp [hd])
    rw [List.filterMapM_cons]
    refine (hf c (hl c (by simp))).bind fun a ha => ?_
    cases a with
    | none => exact hrest
    | some a => exact hrest.bind fun rest hrest => pure (by simp [ha a rfl]; exact hrest)

end Gives

namespace Route

variable (r : Route) (t : Table)

/-! ## Constraints -/

theorem convertAction_gives (c : Constraint) (action : Option String) :
    Gives (· ≠ some "SET DEFAULT") (r.convertAction t c action) := by
  unfold convertAction
  refine .ite (fun _ => .seq fun _ => .pure (by decide)) fun h => .pure ?_
  simpa using h

theorem convertConstraint_gives (c : Constraint) :
    Gives (·.ExpressibleIn r.target) (r.convertConstraint t c) := by
  unfold convertConstraint
  cases hkind : c.kind with
  | foreignKey =>
    refine .ite (fun _ => ?_) fun hother => .pure ?_
    · exact (r.convertAction_gives ..).bind fun onDelete hdelete =>
        (r.convertAction_gives ..).bind fun onUpdate hupdate =>
          .pure fun _ _ => ⟨hdelete, hupdate⟩
    · intro htarget
      simp [htarget] at hother
  | check | unique =>
    refine .pure fun _ hforeign => ?_
    simp [hkind] at hforeign

/-! ## Columns -/

theorem renamed_no_enumeration (source target : Dialect) :
    ∀ x ∈ TypeName.renamed source target, x.2 ≠ "enum" ∧ x.2 ≠ "set" := by
  cases source <;> cases target <;> decide

theorem convert_no_enumeration {name : String} {source target : Dialect}
    (hname : TypeName.normal name ≠ "enum" ∧ TypeName.normal name ≠ "set") :
    TypeName.convert name source target ≠ "enum" ∧ TypeName.convert name source target ≠ "set" := by
  have hconvert : TypeName.convert name source target =
      ((TypeName.renamed source target).lookup (TypeName.normal name)).getD
        (TypeName.normal name) := rfl
  rw [hconvert]
  cases hlookup : (TypeName.renamed source target).lookup (TypeName.normal name) with
  | none => rwa [Option.getD_none]
  | some new =>
    obtain ⟨before, after, hsplit, -⟩ := List.lookup_eq_some_iff.1 hlookup
    exact renamed_no_enumeration source target (TypeName.normal name, new) (by simp [hsplit])

theorem emulateEnum_gives {c : Column} (harray : c.isArray = true → r.target = .postgresql) :
    Gives (fun x => x.1.HasTypeOf r.target ∧ ∀ k ∈ x.2, k.kind = .check) (r.emulateEnum t c) := by
  have hplain : Column.HasTypeOf r.target { c with typeName := "text", enumValues := [] } :=
    ⟨harray, fun _ => ⟨by simp, by simp⟩⟩
  unfold emulateEnum
  refine .ite (fun _ => .seq fun _ => .pure ⟨hplain, by simp⟩) fun _ =>
    .seq fun _ => .pure ⟨hplain, ?_⟩
  intro k hk
  rw [List.mem_singleton.1 hk]
  rfl

theorem forArray_eq_none_iff {target : Dialect} :
    TypeName.forArray? target = none ↔ target = .postgresql := by
  cases target <;> simp [TypeName.forArray?]

theorem forArray_no_enumeration {target : Dialect} {type : String}
    (h : TypeName.forArray? target = some type) : type ≠ "enum" ∧ type ≠ "set" := by
  cases target <;> cases h <;> decide

theorem convertType_gives {c : Column} (hnormal : TypeName.normal c.typeName = c.typeName) :
    Gives (fun x => x.1.HasTypeOf r.target ∧ ∀ k ∈ x.2, k.kind = .check)
      (r.convertType t c) := by
  unfold convertType
  dsimp only
  split
  · next type _ htype =>
    exact .seq fun _ => .pure ⟨⟨by simp, fun _ => forArray_no_enumeration htype⟩, by simp⟩
  · next hplain =>
    have harray : c.isArray = true → r.target = .postgresql := fun hc =>
      forArray_eq_none_iff.1 (Option.eq_none_iff_forall_ne_some.2 fun type => hplain type hc)
    refine .ite (fun _ => r.emulateEnum_gives t harray) fun hplain => .pure ⟨⟨harray, ?_⟩, by simp⟩
    intro hne
    refine convert_no_enumeration ?_
    rw [hnormal]
    simpa [hne] using hplain

theorem fitArguments_gives {c : Column} (hc : c.HasTypeOf r.target) :
    Gives (·.HasLengthOf r.target) (liftM (r.fitArguments c)) := by
  refine .lift fun fitted h => ?_
  unfold fitArguments at h
  cases hdigits : takesDigits c.typeName with
  | error e =>
    rw [hdigits] at h
    cases h
  | ok digits =>
    rw [hdigits] at h
    cases h
    refine ⟨⟨hc.array, hc.enumeration⟩, ?_⟩
    rintro htarget (htype | htype) <;>
    simp_all [fitLength, Option.or_eq_none_iff]

theorem dropAttributes_gives {c : Column} (hc : c.HasLengthOf r.target) :
    Gives (·.HasAttributesOf r.target) (r.dropAttributes t c) := by
  unfold dropAttributes
  have hdropped : Column.HasAttributesOf r.target { c with
      unsigned := false, onUpdate := if given c.onUpdate then none else c.onUpdate
      comment := none } := by
    refine ⟨⟨⟨hc.array, hc.enumeration⟩, hc.characters⟩, fun _ => rfl, fun _ => ?_, fun _ => rfl⟩
    dsimp only
    split
    · rfl
    · next hgiven => simpa using hgiven
  refine .ite (fun hmysql => .pure ?_) fun _ => .ite (fun _ => .seq fun _ => ?_) fun _ => ?_
  · have htarget : r.target = .mysql := by simpa using hmysql
    exact ⟨hc, fun h => absurd htarget h, fun h => absurd htarget h, fun h => absurd htarget h⟩
  all_goals exact .ite (fun _ => .seq fun _ => .pure hdropped) fun _ => .pure hdropped

theorem convertDefault_gives {c : Column} (hc : c.HasAttributesOf r.target) :
    Gives (·.HasAttributesOf r.target) (r.convertDefault t c) := by
  have hdefault (default : Option String) :
      Column.HasAttributesOf r.target { c with default } :=
    ⟨⟨⟨hc.array, hc.enumeration⟩, hc.characters⟩, hc.signed, hc.still, hc.uncommented⟩
  unfold convertDefault
  cases c.default with
  | none => exact .pure hc
  | some text =>
    refine .ite (fun _ => ?uuid) fun _ => .ite (fun _ => .pure (hdefault _)) fun _ =>
      .ite (fun _ => ?truth) fun _ => .pure (hdefault _)
    case uuid =>
      cases Feature.uuidDefault.expression? r.target with
      | some e => exact .pure (hdefault _)
      | none => exact .seq fun _ => .pure (hdefault _)
    case truth =>
      split <;> exact .pure (hdefault _)

theorem convertAutoIncrement_gives {c : Column} (hc : c.HasAttributesOf r.target) :
    Gives (·.ExpressibleIn r.target) (r.convertAutoIncrement t c) := by
  unfold convertAutoIncrement
  refine .ite (fun hauto => .pure ?_) fun _ => ?_
  · have hauto : c.autoIncrement = false := by simpa using hauto
    exact ⟨hc, by simp [hauto], by simp [hauto]⟩
  · split
    · next htarget =>
      refine .ite (fun hserial => .pure ⟨hc, fun _ _ => ?_, by simp [htarget]⟩) fun _ =>
        .seq fun _ => .pure ⟨⟨⟨⟨hc.array, hc.enumeration⟩, hc.characters⟩, hc.signed, hc.still,
          hc.uncommented⟩, by simp, by simp⟩
      revert hserial
      cases c.family <;> simp [TypeName.serialOf?]
    · next htarget =>
      refine .pure ⟨⟨⟨⟨hc.array, fun _ => ⟨by simp, by simp⟩⟩, by simp [htarget]⟩, hc.signed,
        hc.still, hc.uncommented⟩, by simp [htarget], fun _ _ => rfl⟩
    · next htarget => exact .pure ⟨hc, by simp [htarget], by simp [htarget]⟩

/-- A converted column is one of the target's, and no foreign key comes with it. -/
theorem convertColumn_gives {c : Column} (hnormal : TypeName.normal c.typeName = c.typeName) :
    Gives (fun x => x.1.ExpressibleIn r.target ∧ ∀ k ∈ x.2, k.kind = .check)
      (r.convertColumn t c) := by
  unfold convertColumn
  exact (r.convertType_gives t hnormal).bind fun x hx => (r.fitArguments_gives hx.1).bind
    fun _ hfitted => (r.dropAttributes_gives t hfitted).bind fun _ hdropped =>
      (r.convertDefault_gives t hdropped).bind fun _ hdefault =>
        (r.convertAutoIncrement_gives t hdefault).bind fun _ hcolumn => .pure ⟨hcolumn, hx.2⟩

theorem convertColumns_gives {cs : List Column}
    (hnormal : ∀ c ∈ cs, TypeName.normal c.typeName = c.typeName) :
    Gives (fun x => (∀ c ∈ x.1, c.ExpressibleIn r.target) ∧ ∀ k ∈ x.2, k.kind = .check)
      (r.convertColumns t cs) := by
  induction cs with
  | nil => exact .pure (by simp)
  | cons c cs ih =>
    unfold convertColumns
    refine (r.convertColumn_gives t (hnormal c (by simp))).bind fun x hx =>
      (ih fun c hc => hnormal c (by simp [hc])).bind fun rest hrest => .pure ⟨?_, ?_⟩
    · exact List.forall_mem_cons.2 ⟨hx.1, hrest.1⟩
    · intro k hk
      exact (List.mem_append.1 hk).elim (hx.2 k) (hrest.2 k)

theorem requireRowKey_gives {c : Column} (hc : c.ExpressibleIn r.target) :
    Gives (fun c => c.ExpressibleIn r.target ∧ c.IsRowKey r.target t.primaryKey)
      (r.requireRowKey t c) := by
  unfold requireRowKey
  refine .ite (fun _ => .seq fun _ => .pure ⟨⟨⟨⟨⟨hc.array, hc.enumeration⟩, hc.characters⟩,
    hc.signed, hc.still, hc.uncommented⟩, by simp, by simp⟩, by simp [Column.IsRowKey]⟩)
    fun hkept => .pure ⟨hc, fun htarget hauto => ?_⟩
  simpa [htarget, hauto] using hkept

/-! ## Indexes -/

theorem convertMethod_gives (i : Index) :
    Gives (fun method => ∀ m ∈ method, m.isEmpty || (Index.methods r.target).contains (lower m))
      (r.convertMethod t i) := by
  unfold convertMethod
  cases i.method with
  | none => exact .pure (by simp)
  | some m => exact .ite (fun h => .pure (by simpa using h)) fun _ => .seq fun _ => .pure (by simp)

theorem convertIndexColumns_gives (i : Index) :
    Gives (fun columns => Index.allowsPrefixLength r.target = false →
      ∀ c ∈ columns, c.length.getD 0 = 0) (r.convertIndexColumns t i) := by
  have hdropped : Gives (fun columns => Index.allowsPrefixLength r.target = false →
      ∀ c ∈ columns, c.length.getD 0 = 0) (r.dropPrefixLengths t i) := by
    unfold dropPrefixLengths
    refine .ite (fun _ => .seq fun _ => .pure ?_) fun hkept => .pure fun hnone => ?_
    · simp
    · simpa [Index.hasPrefixLength, hnone] using hkept
  unfold convertIndexColumns
  refine hdropped.bind fun columns hcolumns => .ite (fun hmysql => ⟨fun _ hnone => ?_⟩) fun _ =>
    .pure hcolumns
  rw [eq_of_beq hmysql] at hnone
  cases hnone

theorem complaints_eq_nil {i : Index} {target : Dialect} (hkind : i.isSupportedBy target = true)
    (hcondition : given i.condition = true → Index.allowsCondition target = true)
    (hmethod : ∀ m ∈ i.method, m.isEmpty || (Index.methods target).contains (lower m))
    (hlength : Index.allowsPrefixLength target = false → ∀ c ∈ i.columns, c.length.getD 0 = 0) :
    i.complaints target = [] := by
  have hprefix : (i.hasPrefixLength && !Index.allowsPrefixLength target) = false := by
    cases hallows : Index.allowsPrefixLength target with
    | true => simp
    | false => simpa [Index.hasPrefixLength] using hlength hallows
  have hpartial : (given i.condition && !Index.allowsCondition target) = false := by
    cases hgiven : given i.condition with
    | true => simpa using hcondition hgiven
    | false => rfl
  rw [Index.complaints, hkind, hprefix, hpartial]
  cases hm : i.method with
  | none => rfl
  | some m =>
    have hknown := hmethod m hm
    simp only [if_pos hknown]
    rfl

/-- A condition that the target lacks is one of the complaints by which an index is dropped. -/
theorem allowsCondition_of_complaints {i : Index} {target : Dialect}
    (hkept : ∀ p ∈ i.complaints target, contains p "WHERE" = false)
    (hgiven : given i.condition = true) : Index.allowsCondition target = true := by
  cases target with
  | postgresql | sqlite => rfl
  | mysql =>
    have hcomplaint : "Partial index predicate (WHERE) is not supported by " ++
        Dialect.mysql.label ∈ i.complaints .mysql := by
      simp only [Index.complaints, hgiven, Index.allowsCondition, bne_self_eq_false, Bool.not_false,
        Bool.and_self, if_true, List.mem_append, List.mem_singleton, true_or, or_true]
    have hfound : contains ("Partial index predicate (WHERE) is not supported by " ++
        Dialect.mysql.label) "WHERE" = true := by
      decide
    rw [hkept _ hcomplaint] at hfound
    cases hfound

/-- An index that is kept has nothing that the target cannot express. -/
theorem convertIndex_gives (i : Index) :
    Gives (∀ i ∈ ·, i.ExpressibleIn r.target) (r.convertIndex t i) := by
  unfold convertIndex
  refine .ite (fun hprimary => .pure ?_) fun _ => .ite (fun _ => .seq fun _ => .pure (by simp))
    fun hkept => (r.convertMethod_gives t i).bind fun method hmethod =>
      (r.convertIndexColumns_gives t i).bind fun columns hcolumns => .pure ?_
  · rintro _ ⟨⟩ hkind
    exact absurd (eq_of_beq hprimary) hkind
  · rintro _ ⟨⟩ -
    simp only [Bool.or_eq_true, Bool.not_eq_true', not_or, Bool.not_eq_false, List.any_eq_true,
      not_exists, not_and, Bool.not_eq_true] at hkept
    refine complaints_eq_nil hkept.1 (fun hgiven => ?_) hmethod hcolumns
    refine allowsCondition_of_complaints (fun p hp => (hkept.2 p hp).1) ?_
    revert hgiven
    cases i.condition with
    | none => exact id
    | some text =>
      by_cases htext : text.isEmpty = true
      · simp only [Option.map_some, if_pos htext]
        exact id
      · simp [given, htext]

/-! ## Tables -/

theorem convertTable_gives
    (hnormal : ∀ c ∈ t.columns, TypeName.normal c.typeName = c.typeName) :
    Gives (·.ExpressibleIn r.target) (r.convertTable t) := by
  unfold convertTable
  refine (Gives.mapM (r := fun _ => True) (by simp) fun c _ => r.convertConstraint_gives t c).bind
    fun constraints hconstraints => (r.convertColumns_gives t hnormal).bind fun x hx => ?_
  refine (Gives.mapM hx.1 fun c hc => r.requireRowKey_gives t hc).bind fun columns hcolumns =>
    (Gives.filterMapM (r := fun _ => True) (by simp) fun i _ => r.convertIndex_gives _ i).bind
      fun indexes hindexes => .pure ?_
  refine ⟨hcolumns, hindexes, fun c hc => ?_, fun hne => if_neg (by simpa using hne)⟩
  rcases List.mem_append.1 hc with hold | hcheck
  · exact hconstraints c hold
  · intro _ hforeign
    rw [hx.2 c hcheck] at hforeign
    cases hforeign

theorem convertSchema_gives (hne : r.source ≠ r.target) {s : Schema}
    (hnormal : ∀ t ∈ s.tables, ∀ c ∈ t.columns, TypeName.normal c.typeName = c.typeName) :
    Gives (∀ t ∈ ·.tables, t.ExpressibleIn r.target) (r.convertSchema s) := by
  unfold convertSchema
  exact .ite (fun hsame => absurd (eq_of_beq hsame) hne) fun _ =>
    (Gives.mapM hnormal fun t ht => r.convertTable_gives t ht).bind fun _ htables => .pure htables

end Route

/-- A schema converted from another dialect uses only what the target can express. The types of its
columns are in normal form, as reading a column leaves them. -/
theorem schema_expressible {s converted : Schema} {target : Dialect} {own : Option Dialect}
    {strict : Bool} {warnings : List Warning} (hne : own.getD (s.dialect.getD target) ≠ target)
    (hnormal : ∀ t ∈ s.tables, ∀ c ∈ t.columns, TypeName.normal c.typeName = c.typeName)
    (h : schema s target own strict = .ok (converted, warnings)) :
    ∀ t ∈ converted.tables, t.ExpressibleIn target :=
  (Route.convertSchema_gives ⟨_, target, strict⟩ hne hnormal).run h

/-- A set with a comment, in a table with an engine, is a plain text on SQLite. -/
theorem plain_text_expressible :
    Table.ExpressibleIn .sqlite
      { name := "post", columns := [{ name := "flags", typeName := "text" }] } := by
  have hconverted : schema
      { dialect := some .mysql
        tables := [{ name := "post"
                     columns := [{ name := "flags", typeName := "set", enumValues := ["new"]
                                   comment := some "state" }]
                     options := [("engine", "InnoDB")] }] } .sqlite none true =
      .ok ({ dialect := some .sqlite
             tables := [{ name := "post", columns := [{ name := "flags", typeName := "text" }] }] },
        [⟨.lossy, "column", "flags", some "post",
          "SET column stored as TEXT on SQLite; allowed values are not enforced"⟩]) := by
    rfl
  have hnormal : TypeName.normal "set" = "set" := by decide
  exact schema_expressible (by decide) (by simpa using hnormal) hconverted _ (by simp)

end Convert

end SqlFerry
