import Mathlib.Data.List.Nodup
import Mathlib.Data.List.Perm.Basic
import SqlFerry.Proofs.Ddl.Heads

/-!
# Clauses in any order

A column is read the same in whatever order its clauses stand, as long as no clause stands behind a
reference: what follows the word `REFERENCES` is taken for the reference alone.
-/

namespace SqlFerry.Ddl

open Text Pattern Sql
open Splitter (EndsSolid)

variable {a b : Clause} {c : Column} {l l' : List Clause} {as bs : List WrittenClause}

/-! ## Clauses that commute -/

/-- Whether a column is filled is said once, by `NOT NULL` or by a default that is `NULL`. -/
def Unopposed (l : List Clause) : Prop :=
  .notNull ∈ l → .defaultNull ∉ l

instance (l : List Clause) : Decidable (Unopposed l) :=
  inferInstanceAs (Decidable (_ → _))

/-- Different clauses say something about different fields. -/
theorem give_comm (hne : a.keyword ≠ b.keyword) (hab : ¬(a = .notNull ∧ b = .defaultNull))
    (hba : ¬(b = .notNull ∧ a = .defaultNull)) : b.give (a.give c) = a.give (b.give c) := by
  cases a <;> cases b <;>
    first | rfl | exact absurd rfl hne | exact absurd ⟨rfl, rfl⟩ hab | exact absurd ⟨rfl, rfl⟩ hba

/-- What clauses give a column does not depend on their order. -/
theorem foldl_give_perm (hperm : l.Perm l') (honce : (l.map Clause.keyword).Nodup)
    (hnull : Unopposed l) : l.foldl Clause.give c = l'.foldl Clause.give c := by
  refine hperm.foldl_eq' (fun a ha b hb c => ?_) c
  by_cases hab : a.keyword = b.keyword
  · rw [List.inj_on_of_nodup_map honce ha hb hab]
  · refine give_comm hab ?_ ?_
    · rintro ⟨rfl, rfl⟩
      exact hnull ha hb
    · rintro ⟨rfl, rfl⟩
      exact hnull hb ha

/-! ## Columns -/

structure Head where
  name : Chars
  gap : Chars
  type : Chars
  isName : IsName name
  isBlanks : IsBlanks gap
  isTypeText : IsTypeText type

def Head.text (h : Head) (bs : List WrittenClause) : Chars :=
  h.name ++ (h.gap ++ (h.type ++ clausesText bs))

namespace Head

theorem endsSolid_rest (h : Head) (bs : List WrittenClause) :
    EndsSolid (h.type ++ clausesText bs) :=
  endsSolid_clausesText h.isTypeText.endsSolid bs

/-- What a column is before its clauses: its name and its type, if its arguments are right. -/
theorem exists_base (h : Head) : ∃ base : Except Fault Column, ∀ bs, ReferenceLast bs →
    readColumn (h.text bs) = base.map fun c =>
      some (normalizeSerial ((bs.map (·.clause)).foldl Clause.give c),
        (bs.map (·.clause)).flatMap (Clause.extras c.name)) := by
  obtain ⟨name, arguments, isArray, hwritten⟩ := h.isTypeText.exists_written
  let bare : Column := { name := unquote h.name, typeName := TypeName.normal name, isArray }
  refine ⟨match arguments with
    | some x => withArguments bare x
    | none => .ok bare, fun bs hbs => ?_⟩
  have hends := h.endsSolid_rest bs
  have hread : readColumn (h.text bs) =
      readTyped (unquote h.name) (.ofChars (h.type ++ clausesText bs)) :=
    readColumn_eq (h.isName.reads_ident_end (endsName_gap h.isBlanks))
      (h.isName.beginsSolid.append h.isName.ne_nil _) h.isBlanks.ne_nil h.isBlanks.isBlank
      (h.isTypeText.beginsSolid _) hends.not_isBlank hends.ne_nil
  rw [hread, hwritten _ (behind_clausesText bs), readTyped]
  cases arguments with
  | none =>
    dsimp only [pure, Except.pure, bind, Except.bind]
    rw [readAll_trim_clauses hbs]
    rfl
  | some x =>
    dsimp only [bind, Except.bind]
    cases hbase : withArguments bare x with
    | error e => rfl
    | ok c =>
      dsimp only
      rw [readAll_trim_clauses hbs]
      rfl

end Head

/-- Two definitions are read as one column that says the same about its table. -/
def ReadAlike (x y : Chars) : Prop :=
  ∃ c es fs, readColumn x = .ok (some (c, es)) ∧ readColumn y = .ok (some (c, fs)) ∧ es.Perm fs

def column? (x : Chars) : Option Column :=
  (readColumn x).toOption.join.map (·.1)

theorem ReadAlike.column?_eq {x y : Chars} (h : ReadAlike x y) : column? x = column? y := by
  obtain ⟨c, es, fs, hx, hy, -⟩ := h
  rw [column?, column?, hx, hy]
  rfl

theorem exists_of_isSome_column? {x : Chars} (h : (column? x).isSome = true) :
    ∃ r, readColumn x = .ok r := by
  rw [column?] at h
  cases hx : readColumn x with
  | error e =>
    rw [hx] at h
    cases h
  | ok r => exact ⟨r, rfl⟩

/-- In whatever order and spelling the clauses of a column stand, it is read as the same column. -/
theorem readColumn_perm (h : Head) (hperm : (as.map (·.clause)).Perm (bs.map (·.clause)))
    (honce : ((as.map (·.clause)).map Clause.keyword).Nodup) (hnull : Unopposed (as.map (·.clause)))
    (hlast : ReferenceLast as ∧ ReferenceLast bs) (htype : ∃ r, readColumn (h.text []) = .ok r) :
    ReadAlike (h.text as) (h.text bs) := by
  obtain ⟨base, hbase⟩ := h.exists_base
  obtain ⟨r, hr⟩ := htype
  have hnone : ReferenceLast [] := List.forall_mem_nil _
  rw [hbase [] hnone] at hr
  cases base with
  | error e => cases hr
  | ok c =>
    refine ⟨_, _, _, hbase as hlast.1, ?_, hperm.flatMap_right _⟩
    rw [hbase bs hlast.2, foldl_give_perm hperm honce hnull]
    rfl

def Clause.Spelled.spaced {x : Chars} (h : a.Spelled x) : WrittenClause :=
  ⟨a, [' '], x, .singleton (by decide), h⟩

theorem spelled_notNull : Clause.Spelled .notNull "NOT NULL".toList :=
  .notNull (w := "NOT".toList) (g := [' ']) (u := "NULL".toList) (by decide)
    (.singleton (by decide)) (by decide)

theorem spelled_defaultNull : Clause.Spelled .defaultNull "DEFAULT NULL".toList :=
  .defaultNull (w := "DEFAULT".toList) (g := [' ']) (u := "NULL".toList) (by decide)
    (.singleton (by decide)) (by decide)

theorem spelled_unique : Clause.Spelled .unique "UNIQUE".toList :=
  .unique (by decide)

theorem spelled_references :
    Clause.Spelled (.references " users (id)".toList) "REFERENCES users (id)".toList := by
  have hname : IsName "users".toList := .word ⟨by decide, by decide⟩
  have hmore : EndsName " (id)".toList := by
    rintro c ⟨⟩
    exact .inl (by decide)
  have htarget : Clause.IsTarget ([' '] ++ ("users".toList ++ " (id)".toList)) :=
    .intro (.singleton (by decide)) (.one hname) (by decide) hmore (by decide) (by decide)
  exact .references (w := "REFERENCES".toList) (by decide) htarget

def userHead : Head where
  name := "user_id".toList
  gap := [' ']
  type := "INTEGER".toList
  isName := .word ⟨by decide, by decide⟩
  isBlanks := .singleton (by decide)
  isTypeText := by
    have hname : IsName "INTEGER".toList := .word ⟨by decide, by decide⟩
    exact .plain (n := "INTEGER".toList) (x := []) (.name hname) .nil .nil

theorem readColumn_user_perm :
    ReadAlike "user_id INTEGER UNIQUE NOT NULL REFERENCES users (id)".toList
      "user_id INTEGER NOT NULL UNIQUE REFERENCES users (id)".toList := by
  have hread : ReadAlike
      (userHead.text [spelled_unique.spaced, spelled_notNull.spaced, spelled_references.spaced])
      (userHead.text [spelled_notNull.spaced, spelled_unique.spaced, spelled_references.spaced]) :=
    readColumn_perm userHead (.swap _ _ _) (by decide) (by decide) ⟨by decide, by decide⟩
      (exists_of_isSome_column? (by decide +kernel))
  exact hread

/-- Behind a reference `NOT NULL` is lost, and a default that is `NULL` takes it back where it comes
later. -/
theorem not_readColumn_perm :
    (¬∀ (h : Head) (as bs : List WrittenClause), (as.map (·.clause)).Perm (bs.map (·.clause)) →
      ((as.map (·.clause)).map Clause.keyword).Nodup → Unopposed (as.map (·.clause)) →
      (∃ r, readColumn (h.text []) = .ok r) → ReadAlike (h.text as) (h.text bs)) ∧
    ¬∀ (h : Head) (as bs : List WrittenClause), (as.map (·.clause)).Perm (bs.map (·.clause)) →
      ((as.map (·.clause)).map Clause.keyword).Nodup → ReferenceLast as ∧ ReferenceLast bs →
      (∃ r, readColumn (h.text []) = .ok r) → ReadAlike (h.text as) (h.text bs) := by
  have htype := exists_of_isSome_column? (x := userHead.text []) (by decide +kernel)
  constructor
  · intro h
    have halike := h userHead [spelled_notNull.spaced, spelled_references.spaced]
      [spelled_references.spaced, spelled_notNull.spaced] (.swap _ _ _) (by decide) (by decide)
      htype
    exact absurd halike.column?_eq (by decide +kernel)
  · intro h
    have halike := h userHead [spelled_notNull.spaced, spelled_defaultNull.spaced]
      [spelled_defaultNull.spaced, spelled_notNull.spaced] (.swap _ _ _) (by decide)
      ⟨by decide, by decide⟩ htype
    exact absurd halike.column?_eq (by decide +kernel)

end SqlFerry.Ddl
