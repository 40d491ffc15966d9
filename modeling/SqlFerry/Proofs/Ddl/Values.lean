import SqlFerry.Proofs.Convert.Skeleton
import SqlFerry.Proofs.Ddl.Columns

/-!
# Values and comments

The values of an enumeration and the comment of its column are written as literals. Writing escapes
every backslash and every null; reading undoes no more than quotes, and takes a backslash for an
escape only before one. So the texts that are read as they were written are those without nulls
whose backslashes all stand before quotes.
-/

namespace SqlFerry.Ddl

open Text Sql

variable {cs : Chars} {c : Char}

/-! ## Texts that are read as they were -/

/-- Whether a text holds no null, and backslashes only before quotes. -/
def survives : Chars → Bool
  | [] => true
  | c :: cs => c != '\x00' && (c != '\\' || cs.head? == some '\'') && survives cs

def rereadChars (cs : Chars) : Chars :=
  replace ['\\', '\''] ['\''] (cs.flatMap Dialect.escapeBackslash)

theorem rereadChars_nil : rereadChars [] = [] :=
  replace_nil (List.cons_ne_nil _ _)

/-- Where no escape of a quote begins, a character stays. -/
theorem replace_escape_cons (h : c = '\\' → cs.head? ≠ some '\'') :
    replace ['\\', '\''] ['\''] (c :: cs) = c :: replace ['\\', '\''] ['\''] cs := by
  refine replace_cons (List.cons_ne_nil _ _) ?_
  by_cases hc : c = '\\'
  · subst hc
    cases cs with
    | nil => rfl
    | cons x cs =>
      have hx : '\'' ≠ x := fun hx => h rfl (congrArg some hx.symm)
      simp [after?, hx]
  · simp [after?, Ne.symm hc]

theorem rereadChars_cons (hbackslash : c ≠ '\\') (hnull : c ≠ '\x00') :
    rereadChars (c :: cs) = c :: rereadChars cs := by
  have hescape : Dialect.escapeBackslash c = [c] := by
    simp [Dialect.escapeBackslash, hbackslash, hnull]
  rw [rereadChars, List.flatMap_cons, hescape]
  exact replace_escape_cons fun h => absurd h hbackslash

theorem rereadChars_null : rereadChars ('\x00' :: cs) = '\\' :: '0' :: rereadChars cs := by
  have hzero (rest : Chars) : replace ['\\', '\''] ['\''] ('\\' :: '0' :: rest) =
      '\\' :: '0' :: replace ['\\', '\''] ['\''] rest := by
    rw [replace_escape_cons (by simp), replace_escape_cons (by simp)]
  exact hzero _

/-- Before a quote a backslash is read as one. -/
theorem rereadChars_backslash_quote (h : cs.head? = some '\'') :
    rereadChars ('\\' :: cs) = '\\' :: rereadChars cs := by
  obtain ⟨cs, rfl⟩ := List.head?_eq_some_iff.1 h
  have hquote (rest : Chars) : replace ['\\', '\''] ['\''] ('\\' :: '\\' :: '\'' :: rest) =
      '\\' :: '\'' :: replace ['\\', '\''] ['\''] rest := by
    rw [replace_escape_cons (by simp)]
    exact congrArg _ (replace_append (List.cons_ne_nil _ _) rest)
  rw [rereadChars_cons (c := '\'') (by decide) (by decide)]
  exact hquote _

/-- Before anything else a backslash is read as two. -/
theorem rereadChars_backslash (h : cs.head? ≠ some '\'') :
    rereadChars ('\\' :: cs) = '\\' :: '\\' :: rereadChars cs := by
  have hhead : (cs.flatMap Dialect.escapeBackslash).head? ≠ some '\'' := by
    cases cs with
    | nil => simp
    | cons c cs =>
      have hc : c ≠ '\'' := by simpa using h
      rw [List.flatMap_cons, Dialect.escapeBackslash]
      split
      · simp
      · split
        · simp
        · simpa using hc
  have hboth {rest : Chars} (hrest : rest.head? ≠ some '\'') :
      replace ['\\', '\''] ['\''] ('\\' :: '\\' :: rest) =
        '\\' :: '\\' :: replace ['\\', '\''] ['\''] rest := by
    rw [replace_escape_cons (by simp), replace_escape_cons fun _ => hrest]
  exact hboth hhead

theorem length_le_rereadChars (cs : Chars) : cs.length ≤ (rereadChars cs).length := by
  induction cs with
  | nil => exact Nat.zero_le _
  | cons c cs ih =>
    by_cases hbackslash : c = '\\'
    · subst hbackslash
      by_cases hquote : cs.head? = some '\''
      · rw [rereadChars_backslash_quote hquote, List.length_cons, List.length_cons]
        omega
      · rw [rereadChars_backslash hquote, List.length_cons, List.length_cons, List.length_cons]
        omega
    · by_cases hnull : c = '\x00'
      · rw [hnull, rereadChars_null, List.length_cons, List.length_cons, List.length_cons]
        omega
      · rw [rereadChars_cons hbackslash hnull, List.length_cons, List.length_cons]
        omega

theorem rereadChars_eq_self_iff : rereadChars cs = cs ↔ survives cs = true := by
  induction cs with
  | nil => exact iff_of_true rereadChars_nil rfl
  | cons c cs ih =>
    by_cases hbackslash : c = '\\'
    · subst hbackslash
      by_cases hquote : cs.head? = some '\''
      · rw [rereadChars_backslash_quote hquote, List.cons_inj_right, ih]
        simp [survives, hquote]
      · -- nothing behind makes up for the second backslash
        have hlength := length_le_rereadChars cs
        refine iff_of_false (fun h => ?_) (by simp [survives, hquote])
        rw [rereadChars_backslash hquote, List.cons_inj_right] at h
        have hlonger := congrArg List.length h
        rw [List.length_cons] at hlonger
        omega
    · by_cases hnull : c = '\x00'
      · subst hnull
        refine iff_of_false (fun h => ?_) (by simp [survives])
        rw [rereadChars_null] at h
        exact absurd (List.cons.inj h).1 (by decide)
      · rw [rereadChars_cons hbackslash hnull, List.cons_inj_right, ih]
        simp [survives, hbackslash, hnull]

theorem reread_eq_self_iff {v : String} :
    reread .mysql v = v ↔ survives v.toList = true := by
  have hchars : reread .mysql v = String.ofList (rereadChars v.toList) := rfl
  rw [← rereadChars_eq_self_iff, hchars, ← String.toList_inj, String.toList_ofList]

theorem map_reread_eq_self_iff {vs : List String} :
    vs.map (reread .mysql) = vs ↔ ∀ v ∈ vs, survives v.toList = true := by
  conv_lhs => rw [← List.map_id vs, List.map_map, List.map_inj_left]
  exact forall₂_congr fun _ _ => reread_eq_self_iff

/-! ## Columns with values and a comment -/

structure IsEnumeration (c : Column) : Prop where
  type : c.typeName = "enum"
  comment : given c.comment = true
  default : ∀ v ∈ c.default, IsPlainDefault .mysql v
  onUpdate : c.onUpdate = none

def rereadColumn (c : Column) : Column where
  name := c.name
  typeName := "enum"
  nullable := c.nullable
  default := c.default
  autoIncrement := c.autoIncrement
  enumValues := c.enumValues.map (reread .mysql)
  comment := c.comment.map (reread .mysql)

def valuesText (vs : List String) : Chars :=
  [',', ' '].intercalate (vs.map fun v => (Dialect.mysql.textLiteral v).toList)

theorem isReadAs_enumeration (vs : List String) :
    IsReadAs .mysql "enum".toList (some (valuesText vs)) "enum" := by
  have hword : IsWordText "enum".toList := isWordText_of_all (by decide) (by decide)
  have hname : IsTypeName "enum" true := .word hword (by decide)
  refine ⟨hname.phrase, ?_, hname.reads, hname.normal⟩
  rintro x ⟨⟩
  exact .intro (List.forall_mem_map.2 fun v _ => .literal .mysql (.inl rfl)) (by simp)

theorem isWritten_attributesOf {c : Column} (h : IsEnumeration c) (t : Table) :
    ∀ a ∈ attributesOf .mysql t c, a.IsWritten .mysql := by
  refine List.forall_mem_append.2 ⟨List.forall_mem_append.2 ⟨fun a ha => ?_, fun a ha => ?_⟩, ?_⟩
  · exact (isPlain_keyAttributes .mysql t c a ha).isWritten
  · exact (isPlain_defaultAttributes h.default a ha).isWritten
  · have hown : ∀ a ∈ (if c.autoIncrement then [Attribute.automatic] else []) ++
        [Attribute.comment (c.comment.getD "")], a.IsWritten .mysql := by
      cases c.autoIncrement <;> simp [Attribute.IsWritten]
    simpa [ownAttributes, h.comment] using hown

theorem foldl_give_enumeration {c : Column} (h : IsEnumeration c) (t : Table) :
    ((attributesOf .mysql t c).map Attribute.read).foldl Attribute.give
      { name := c.name, typeName := "enum", enumValues := c.enumValues.map (reread .mysql) } =
        rereadColumn c := by
  have hown : ownAttributes .mysql c = (if c.autoIncrement then [Attribute.automatic] else []) ++
      [Attribute.comment (c.comment.getD "")] := by
    simp [ownAttributes, h.comment]
  obtain ⟨v, hv⟩ : ∃ v, c.comment = some v := by
    cases hc : c.comment with
    | none => exact absurd h.comment (by simp [given, hc])
    | some v => exact ⟨v, rfl⟩
  rw [attributesOf, List.map_append, List.map_append, List.foldl_append, List.foldl_append,
    map_read (isPlain_keyAttributes .mysql t c), map_read (isPlain_defaultAttributes h.default),
    foldl_give_key rfl (by simp), foldl_give_default rfl (by simp), hown, hv, rereadColumn, hv]
  cases c.autoIncrement <;> rfl

/-- What is written for the column is read, up to what becomes of its texts. -/
theorem readColumn_enumeration {c : Column} (h : IsEnumeration c) (t : Option Table) :
    ∃ text, column .mysql c t = .ok text ∧
      readColumn text.toList = .ok (some (rereadColumn c, [])) := by
  -- only SQLite looks at the table
  let u : Table := { name := "" }
  have hsame : column .mysql c t = column .mysql c (some u) := rfl
  have htakes : takesValues .mysql c.typeName = true := by
    rw [h.type]
    rfl
  have hserial : TypeName.serialBase? "enum" = none := rfl
  have hgives : ∀ x ∈ some (valuesText c.enumValues),
      withArguments { name := c.name, typeName := "enum" } x = .ok
        { name := c.name, typeName := "enum", enumValues := c.enumValues.map (reread .mysql) } := by
    rintro x ⟨⟩
    exact withArguments_values (.inl rfl) fun _ _ => .inl rfl
  have hread := readColumn_of_type (isReadAs_enumeration c.enumValues)
    (isWritten_attributesOf h u) (fun hnone => by cases hnone) hgives
  rw [foldl_give_enumeration h u, extras_attributesOf (by simp),
    normalizeSerial_eq_self (d := .mysql) (c := rereadColumn c) hserial h.default] at hread
  refine ⟨_, hsame.trans (column_of_type h.onUpdate (columnType_values htakes)), ?_⟩
  rw [h.type, ofChars, String.toList_ofList, List.append_assoc]
  exact hread

/-! ## After a conversion -/

/-- Whether every conversion from MySQL checks one column for the values of another, in whatever
table it is. -/
def IsCheckedFor (c' c : Column) : Prop :=
  ∀ (s : Schema) (target : Dialect), target ≠ .mysql →
    (∀ t ∈ s.tables, ∀ c ∈ t.columns, c.IsTyped) →
    ∃ s' warnings, Convert.schema s target (some .mysql) false = .ok (s', warnings) ∧
      ∀ t ∈ s.tables, c' ∈ t.columns → ∃ u ∈ s'.tables, u.name = t.name ∧
        Convert.Route.valuesCheck ⟨.mysql, target, false⟩ t c ∈ u.constraints

theorem isCheckedFor_self {c : Column} (htype : c.typeName = "enum") (hvalues : c.enumValues ≠ [])
    (harray : c.isArray = false) : IsCheckedFor c c := by
  intro s target htarget htyped
  obtain ⟨s', warnings, hrun⟩ := Convert.schema_returns htyped target (some .mysql)
  let r : Convert.Route := ⟨.mysql, target, false⟩
  have htables : List.Forall₂ (fun t u => t.Resembles (t.columns.flatMap (r.checksFor t)) u)
      s.tables s'.tables := (r.convertTables_resemble s htarget.symm).run hrun
  refine ⟨s', warnings, hrun, fun t ht hc => ?_⟩
  obtain ⟨u, hu, hresembles⟩ := exists_of_mem_forall₂ htables.flip ht
  obtain ⟨kept, -, hconstraints⟩ := hresembles.constraints
  have hchecks : r.checksFor t c = [r.valuesCheck t c] :=
    if_pos ⟨htype, hvalues, htarget, by simp [harray]⟩
  refine ⟨u, hu, hresembles.name, ?_⟩
  rw [hconstraints]
  refine List.mem_append_right _ (List.mem_flatMap.2 ⟨c, hc, ?_⟩)
  rw [hchecks]
  exact List.mem_singleton_self _

/-- The values and the comment of a column are read as they were written, and conversions check the
column for the values, exactly if all of these texts survive. -/
theorem values_read_back_iff {c : Column} (h : IsEnumeration c) (t : Option Table) :
    (∃ text c' extras, column .mysql c t = .ok text ∧
      readColumn text.toList = .ok (some (c', extras)) ∧
      c'.enumValues = c.enumValues ∧ c'.comment = c.comment ∧
      (c.enumValues ≠ [] → IsCheckedFor c' c)) ↔
    (∀ v ∈ c.enumValues, survives v.toList = true) ∧ ∀ v ∈ c.comment, survives v.toList = true := by
  obtain ⟨text, htext, hread⟩ := readColumn_enumeration h t
  have hcomment : c.comment.map (reread .mysql) = c.comment ↔
      ∀ v ∈ c.comment, survives v.toList = true := by
    cases c.comment with
    | none => simp
    | some v => simpa using reread_eq_self_iff
  constructor
  · rintro ⟨text', c', extras, htext', hread', hvalues, hsame, -⟩
    rw [htext] at htext'
    cases htext'
    rw [hread] at hread'
    cases hread'
    exact ⟨map_reread_eq_self_iff.1 hvalues, hcomment.1 hsame⟩
  · rintro ⟨hvalues, hsame⟩
    have hkept : (rereadColumn c).enumValues = c.enumValues := map_reread_eq_self_iff.2 hvalues
    refine ⟨text, _, _, htext, hread, hkept, hcomment.2 hsame, fun hne => ?_⟩
    have hchecked := isCheckedFor_self (c := rereadColumn c) rfl (hkept ▸ hne) rfl
    have hcheck (r : Convert.Route) (t : Table) :
        r.valuesCheck t (rereadColumn c) = r.valuesCheck t c := by
      rw [Convert.Route.valuesCheck, hkept]
      rfl
    simpa only [IsCheckedFor, hcheck] using hchecked

def statusColumn : Column where
  name := "status"
  typeName := "enum"
  default := some "'new'"
  enumValues := ["new", "it's, (old", "\\'"]
  comment := some "how far it is"

theorem statusColumn_read_back : IsEnumeration statusColumn ∧
    ∃ text c' extras, column .mysql statusColumn = .ok text ∧
      readColumn text.toList = .ok (some (c', extras)) ∧
      c'.enumValues = ["new", "it's, (old", "\\'"] ∧ c'.comment = some "how far it is" ∧
      (statusColumn.enumValues ≠ [] → IsCheckedFor c' statusColumn) := by
  have hdefault : IsPlainDefault .mysql (Dialect.mysql.textLiteral "new") := .text (by decide)
  have hcolumn : IsEnumeration statusColumn := by
    refine ⟨rfl, by decide, ?_, rfl⟩
    rintro v ⟨⟩
    exact hdefault
  exact ⟨hcolumn, (values_read_back_iff hcolumn none).2 (by decide)⟩

/-- A backslash before a letter is read as two. -/
theorem not_values_read_back : ¬∀ (c : Column) (t : Option Table), IsEnumeration c →
    ∃ text c' extras, column .mysql c t = .ok text ∧
      readColumn text.toList = .ok (some (c', extras)) ∧
      c'.enumValues = c.enumValues ∧ c'.comment = c.comment := by
  intro hall
  let c : Column := { name := "c", typeName := "enum", enumValues := ["a\\b"], comment := some "x" }
  have hcolumn : IsEnumeration c := ⟨rfl, by decide, by simp [c], rfl⟩
  obtain ⟨text, c', extras, htext, hread, hvalues, -⟩ := hall c none hcolumn
  obtain ⟨text', htext', hread'⟩ := readColumn_enumeration hcolumn none
  rw [htext] at htext'
  cases htext'
  rw [hread] at hread'
  cases hread'
  exact absurd (map_reread_eq_self_iff.1 hvalues) (by decide)

end SqlFerry.Ddl
