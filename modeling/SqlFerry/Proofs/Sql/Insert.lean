import SqlFerry.Proofs.Sql.Requote

/-!
# Inserts quoted anew

Quoting anew finds in an `INSERT` exactly the names and literals that were put into it, so the
result is the `INSERT` of the other dialect.
-/

namespace SqlFerry.Sql

open Text Pattern

variable {s t : Dialect} {keep : Bool} {before : Option Char} {c : Char}
  {cs rest old new : Chars} {n : Nat}

/-! ## Lists of names and literals -/

def Stops (rest : Chars) : Prop :=
  ∀ c ∈ rest.head?, c = ' ' ∨ c = ',' ∨ c = ')'

variable (s t keep) in
/-- Quoted anew, `old` becomes `new` wherever it stands in a list. -/
def Carries (old new : Chars) : Prop :=
  ∀ before rest n, Stops rest → requoteFrom s t keep ⟨before, old ++ rest, n⟩ =
    new ++ requoteFrom s t keep ⟨old.getLast?.or before, rest, n + old.length⟩

variable (s t keep) in
def Stays (cs : Chars) : Prop :=
  ∀ before rest n, requoteFrom s t keep ⟨before, cs ++ rest, n⟩ =
    cs ++ requoteFrom s t keep ⟨cs.getLast?.or before, rest, n + cs.length⟩

def isFixed : Chars → Bool
  | [] => true
  | c :: cs => isInert (c :: cs) && isFixed cs &&
      (!cs.isEmpty || !(['0', 'e', 'E', 'x', 'X'].contains c))

theorem isInert_append (h : isFixed (c :: cs) = true) (rest : Chars) :
    isInert (c :: (cs ++ rest)) = true := by
  cases cs with
  | nil =>
    simp only [isFixed, isInert, Bool.and_eq_true] at h ⊢
    simp_all
  | cons x cs =>
    simp only [isFixed, Bool.and_eq_true] at h
    exact h.1.1

theorem stays_of_isFixed (h : isFixed cs = true) : Stays s t keep cs := by
  intro before rest n
  induction cs generalizing before n with
  | nil => rfl
  | cons c cs ih =>
    have hcs : isFixed cs = true := by
      simp only [isFixed, Bool.and_eq_true] at h
      exact h.1.2
    rw [List.cons_append, requoteFrom_cons (isInert_append h rest), ih hcs, List.cons_append,
      List.length_cons, Nat.add_assoc, Nat.add_comm 1]
    cases cs <;> rfl

namespace Carries

variable {old' new' sep : Chars}

theorem of_stays (h : Stays s t keep cs) : Carries s t keep cs cs :=
  fun before rest n _ => h before rest n

/-- A separator begins like what may follow a name or a literal. -/
theorem join (h : Carries s t keep old new) (hsep : Stays s t keep sep) (hne : sep ≠ [])
    (hstops : Stops sep) (h' : Carries s t keep old' new') :
    Carries s t keep (old ++ sep ++ old') (new ++ sep ++ new') := by
  intro before rest n hrest
  have hs : Stops (sep ++ (old' ++ rest)) := by
    obtain ⟨c, cs, rfl⟩ := List.exists_cons_of_ne_nil hne
    exact hstops
  rw [List.append_assoc, List.append_assoc, h before _ n hs, hsep, h' _ _ _ hrest]
  simp only [List.append_assoc, List.length_append, List.getLast?_append, Option.or_assoc,
    Nat.add_assoc]

theorem after (hsep : Stays s t keep sep) (h : Carries s t keep old new) :
    Carries s t keep (sep ++ old) (sep ++ new) := by
  intro before rest n hrest
  rw [List.append_assoc, hsep, h _ _ _ hrest]
  simp only [List.append_assoc, List.length_append, List.getLast?_append, Option.or_assoc,
    Nat.add_assoc]

theorem nil : Carries s t keep [] [] :=
  fun _ _ _ _ => rfl

theorem close (h : Carries s t keep old new) (hsep : Stays s t keep sep) (hne : sep ≠ [])
    (hstops : Stops sep) : Carries s t keep (old ++ sep) (new ++ sep) := by
  have hj := h.join hsep hne hstops nil
  rwa [List.append_nil, List.append_nil] at hj

theorem intercalate {α : Type} {f g : α → Chars} {l : List α} (hsep : Stays s t keep sep)
    (hne : sep ≠ []) (hstops : Stops sep) (h : ∀ x ∈ l, Carries s t keep (f x) (g x)) :
    Carries s t keep (sep.intercalate (l.map f)) (sep.intercalate (l.map g)) := by
  induction l with
  | nil => exact nil
  | cons x l ih =>
    have ih := ih fun y hy => h y (by simp [hy])
    cases l with
    | nil => simpa using h x (by simp)
    | cons y l => simpa using (h x (by simp)).join hsep hne hstops ih

theorem name (x : String) : Carries s t keep (s.quote x).toList (t.quote x).toList := by
  intro before rest n hrest
  refine requoteFrom_quote (fun hc => ?_) x
  have := hrest _ hc
  cases s <;> simp [Dialect.nameQuote] at this

theorem text {x : String} (h : s = .mysql → '\x01' ∉ x.toList) :
    Carries s t keep (s.textLiteral x).toList (t.textLiteral x).toList := by
  intro before rest n hrest
  refine requoteFrom_textLiteral (fun hc => ?_) h
  simpa using hrest _ hc

theorem digits (h : ∀ c ∈ cs, c.isDigit = true ∨ c = '-') : Carries s t keep cs cs := by
  intro before rest n hrest
  induction cs generalizing before n with
  | nil => rfl
  | cons c cs ih =>
    have hnext : (cs ++ rest).head? ≠ some 'x' := by
      intro hx
      cases cs with
      | nil => simpa using hrest 'x' hx
      | cons d cs =>
        cases hx
        simpa using h 'x' (by simp)
    have hc : isInert (c :: (cs ++ rest)) = true := by
      have hc : ¬['\'', '"', '\x60', ':', '_', '[', 'e', 'E', 'x', 'X'].contains c := by
        intro hm
        have := h c (by simp)
        simp at hm
        rcases hm with rfl | rfl | rfl | rfl | rfl | rfl | rfl | rfl | rfl | rfl <;>
          simp at this
      simp at hc
      simp only [isInert, beq_eq_false_iff_ne.2 hnext]
      simp [hc]
    rw [List.cons_append, requoteFrom_cons hc, ih (fun c hc => h c (by simp [hc])),
      List.cons_append, List.length_cons, Nat.add_assoc, Nat.add_comm 1]
    cases cs <;> rfl

end Carries

/-! ## Rows -/

end SqlFerry.Sql

namespace SqlFerry

open Text Sql

/-- The values that are written as a word, as digits or as a string. A string of MySQL must not hold
the character that stands for a quote while its backslashes are decoded. -/
def Value.IsPlain (s : Dialect) : Value → Prop
  | .null | .int _ => True
  | .text x => s = .mysql → '\x01' ∉ x.toList
  | _ => False

variable {s t : Dialect} {keep : Bool}

theorem Value.isDigit_or_of_mem_toString (n : Int) {c : Char} (h : c ∈ (toString n).toList) :
    c.isDigit = true ∨ c = '-' := by
  cases n with
  | ofNat n =>
    have h : c ∈ (String.ofList (Nat.toDigits 10 n)).toList := h
    rw [String.toList_ofList] at h
    exact .inl (Nat.isDigit_of_mem_toDigits (by decide) (by decide) h)
  | negSucc n =>
    have h : c ∈ ("-" ++ String.ofList (Nat.toDigits 10 (n + 1))).toList := h
    simp only [String.toList_append, String.toList_ofList, List.mem_append] at h
    rcases h with h | h
    · exact .inr (List.mem_singleton.1 h)
    · exact .inl (Nat.isDigit_of_mem_toDigits (by decide) (by decide) h)

theorem Sql.Carries.literal {v : Value} (h : v.IsPlain s) :
    Carries s t keep (s.literal v).toList (t.literal v).toList := by
  cases v with
  | null =>
    simp only [Dialect.literal]
    exact .of_stays (stays_of_isFixed (by decide))
  | int n =>
    simp only [Dialect.literal]
    exact .digits fun c hc => Value.isDigit_or_of_mem_toString n hc
  | text x =>
    simp only [Dialect.literal]
    exact .text h
  | _ => exact h.elim

namespace Dialect

theorem toList_quoteAll (d : Dialect) (names : List String) :
    (d.quoteAll names).toList = [',', ' '].intercalate (names.map fun x => (d.quote x).toList) := by
  rw [quoteAll, String.toList_intercalate, List.map_map]
  rfl

def row (d : Dialect) (values : List Value) : Chars :=
  ['('] ++ [',', ' '].intercalate (values.map fun v => (d.literal v).toList) ++ [')']

theorem toList_insert (d : Dialect) (table : String) (columns : List String)
    (rows : List (List Value)) : (d.insert table columns rows).toList =
      "INSERT INTO ".toList ++ (d.quote table).toList ++ " (".toList ++
        (d.quoteAll columns).toList ++ ") VALUES\n  ".toList ++
        ",\n  ".toList.intercalate (rows.map d.row) := by
  have hrow : (String.toList ∘ fun row : List Value => tuple (row.map d.literal)) = d.row := by
    funext row
    simp only [Function.comp, tuple, String.toList_append, String.toList_intercalate,
      List.map_map]
    rfl
  have happend (u v w x y z : String) : (u ++ v ++ w ++ x ++ y ++ z).toList =
      u.toList ++ v.toList ++ w.toList ++ x.toList ++ y.toList ++ z.toList := by
    simp only [String.toList_append]
  delta Dialect.insert Dialect.insertOf
  rw [happend, String.toList_intercalate, List.map_map, hrow]

end Dialect

namespace Sql

theorem Carries.row {values : List Value} (h : ∀ v ∈ values, v.IsPlain s) :
    Carries s t keep (s.row values) (t.row values) := by
  have list : Carries s t keep ([',', ' '].intercalate (values.map fun v => (s.literal v).toList))
      ([',', ' '].intercalate (values.map fun v => (t.literal v).toList)) :=
    .intercalate (stays_of_isFixed (by decide)) (by simp) (by simp [Stops]) fun v hv =>
      .literal (h v hv)
  exact (list.after (stays_of_isFixed (by decide))).close (stays_of_isFixed (by decide)) (by simp)
    (by simp [Stops])

theorem requote_of_carries {old new : String}
    (h : ∀ keep, Carries s t keep old.toList new.toList) : requote old s t = new := by
  have hc := h (t == .postgresql) none [] 0 (by simp [Stops])
  rw [requoteFrom_nil, List.append_nil, List.append_nil] at hc
  rw [requote, requoteKeeping_eq, Cursor.atStart, hc, String.ofList_toList]

theorem requote_insert_text (s t : Dialect) (table : String) (columns : List String)
    {rows : List (List Value)} (h : ∀ row ∈ rows, ∀ v ∈ row, v.IsPlain s) :
    requote (s.insert table columns rows) s t = t.insert table columns rows := by
  refine requote_of_carries fun keep => ?_
  have columns : Carries s t keep (s.quoteAll columns).toList (t.quoteAll columns).toList := by
    rw [Dialect.toList_quoteAll, Dialect.toList_quoteAll]
    exact .intercalate (stays_of_isFixed (by decide)) (by simp) (by simp [Stops]) fun x _ => .name x
  have rows : Carries s t keep (",\n  ".toList.intercalate (rows.map s.row))
      (",\n  ".toList.intercalate (rows.map t.row)) :=
    .intercalate (stays_of_isFixed (by decide)) (by simp) (by simp [Stops]) fun row hrow =>
      .row (h row hrow)
  rw [Dialect.toList_insert, Dialect.toList_insert]
  refine Carries.join ?_ (stays_of_isFixed (by decide)) (by simp) (by simp [Stops]) rows
  refine Carries.join ?_ (stays_of_isFixed (by decide)) (by simp) (by simp [Stops]) columns
  exact Carries.after (stays_of_isFixed (by decide)) (.name table)

/-- An `INSERT` quoted anew is the `INSERT` of the other dialect, for all names and all rows of
plain values. Both are written unless a number is too long, and then neither is. -/
theorem requote_insert (s t : Dialect) (table : String) (columns : List String)
    (rows : List (List Value)) (h : ∀ row ∈ rows, ∀ v ∈ row, v.IsPlain s) :
    (s.renderInsert table columns rows).map (requote · s t) = t.renderInsert table columns rows ∧
      ((∃ text, s.renderInsert table columns rows = .ok text) ↔
        ∀ row ∈ rows, ∀ v ∈ row, v.isWritable) := by
  refine ⟨?_, fun ⟨text, htext⟩ => (Dialect.renderInsert_eq_ok.1 htext).1,
    fun hrows => ⟨_, Dialect.renderInsert_eq_ok.2 ⟨hrows, rfl⟩⟩⟩
  rw [Dialect.renderInsert_eq, Dialect.renderInsert_eq]
  split
  · exact congrArg Except.ok (requote_insert_text s t table columns h)
  · rfl

theorem requote_insert_of_quotes :
    let rows : List (List Value) :=
      [[.null, .int (-10), .text "it's \\n\x00"], [.text "a\x60, \"b\";", .text "--'", .int 0]]
    (∀ row ∈ rows, ∀ v ∈ row, v.IsPlain .mysql) ∧
      (Dialect.mysql.renderInsert "t\x60.u" ["x\"y", "(z')"] rows).map
          (requote · .mysql .postgresql) =
        Dialect.postgresql.renderInsert "t\x60.u" ["x\"y", "(z')"] rows ∧
      ((∃ text, Dialect.mysql.renderInsert "t\x60.u" ["x\"y", "(z')"] rows = .ok text) ↔
        ∀ row ∈ rows, ∀ v ∈ row, v.isWritable) := by
  intro rows
  have h : ∀ row ∈ rows, ∀ v ∈ row, v.IsPlain .mysql := by simp [rows, Value.IsPlain]
  exact ⟨h, requote_insert .mysql .postgresql _ _ rows h⟩

end Sql

end SqlFerry
