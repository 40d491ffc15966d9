import SqlFerry.Ddl.Table
import SqlFerry.Proofs.Ddl.Types

/-!
# Columns

Columns that can be read again, and that what is written for one is read as the column.
-/

namespace SqlFerry.Ddl

open Text Pattern Sql

variable {d : Dialect} {key : List String} {t : Table} {c : Column} {arguments : Option Chars}
  {w : Chars} {as : List Attribute} {b : Column}

def AllowsAutomatic (d : Dialect) (key : List String) (c : Column) : Prop :=
  match d with
  | .mysql => True
  | .postgresql =>
    c.nullable = false ∧ c.default = none ∧ c.typeName ∈ ["smallint", "integer", "bigint"]
  | .sqlite => c.nullable = false ∧ c.default = none ∧ c.typeName = "integer" ∧ key = [c.name]

/-- A column that can be read again; `key` is the key of its table. -/
structure IsPlainColumn (d : Dialect) (key : List String) (c : Column) : Prop where
  type : HasPlainType d c
  default : ∀ v ∈ c.default, IsPlainDefault d v
  unsigned : c.unsigned = true → d = .mysql ∧ takesValues d c.typeName = false
  automatic : c.autoIncrement = true → AllowsAutomatic d key c
  comment : ∀ v ∈ c.comment, d = .mysql ∧ v ≠ "" ∧ IsPlainText v
  isArray : c.isArray = false
  onUpdate : c.onUpdate = none

/-! ## How a column is written -/

/-- A type with values is written with their literals. -/
theorem columnType_values (htakes : takesValues d c.typeName = true) :
    columnType d c = .ok (ofChars (c.typeName.toList ++ argumentsText (some
      ([',', ' '].intercalate (c.enumValues.map fun v => (d.textLiteral v).toList))))) := by
  have hvalues : ", ".intercalate (c.enumValues.map fun v => d.textLiteral v) =
      ofChars ([',', ' '].intercalate (c.enumValues.map fun v => (d.textLiteral v).toList)) := by
    apply String.toList_injective
    rw [String.toList_intercalate, List.map_map]
    exact String.toList_ofList.symm
  rw [takesValues, Bool.and_eq_true, beq_iff_eq] at htakes
  obtain ⟨hlist, rfl⟩ := htakes
  have hnot {e : Dialect} (he : (Dialect.mysql == e) = false) :
      (c.autoIncrement && Dialect.mysql == e) = false := by
    rw [he, Bool.and_false]
  unfold columnType
  rw [hnot rfl, hnot rfl, hlist, ofChars_arguments, ← hvalues]
  rfl

theorem columnType_spelled (h : Spelling d c arguments)
    (hautomatic : c.autoIncrement = true → d = .mysql) (harray : c.isArray = false)
    (hunsigned : c.unsigned = true → d = .mysql ∧ takesValues d c.typeName = false) :
    columnType d c = .ok (ofChars (c.typeName.toList ++ (argumentsText arguments ++
      Attribute.tail (if c.unsigned then [.unsigned] else [])))) := by
  cases htakes : takesValues d c.typeName with
  | true =>
    have hsigned : c.unsigned = false := by
      rw [Bool.eq_false_iff]
      intro hc
      rw [(hunsigned hc).2] at htakes
      cases htakes
    rw [columnType_values htakes, h.values htakes, hsigned]
    simp only [Bool.false_eq_true, if_false, Attribute.tail, List.flatMap_nil, List.append_nil]
  | false =>
    have hnot {e : Dialect} (he : Dialect.mysql ≠ e) : (c.autoIncrement && d == e) = false := by
      rw [Bool.and_eq_false_iff, Bool.eq_false_iff, beq_eq_false_iff_ne]
      by_cases hc : c.autoIncrement = true
      · exact .inr (hautomatic hc ▸ he)
      · exact .inl hc
    have hlist := htakes
    rw [takesValues] at hlist
    have htail : ofChars (Attribute.tail (if c.unsigned then [.unsigned] else [])) =
        if c.unsigned && d == .mysql then " unsigned" else "" := by
      cases hunsigned' : c.unsigned with
      | true =>
        rw [(hunsigned hunsigned').1]
        rfl
      | false => rfl
    have hsplit : ofChars (c.typeName.toList ++ (argumentsText arguments ++
        Attribute.tail (if c.unsigned then [.unsigned] else []))) =
          ofChars (c.typeName.toList ++ argumentsText arguments) ++
            ofChars (Attribute.tail (if c.unsigned then [.unsigned] else [])) := by
      apply String.toList_injective
      simp [ofChars]
    unfold columnType
    rw [hnot (by decide), hnot (by decide), hlist, h.written htakes, harray, hsplit, htail]
    simp only [Bool.false_eq_true, if_false, Bool.false_and]
    exact congrArg Except.ok String.append_empty

def keyAttributes (d : Dialect) (t : Table) (c : Column) : List Attribute :=
  if d == .sqlite && c.autoIncrement && isWholeKey (some t) c then [.rowKey]
  else if c.nullable then [] else [.notNull]

def defaultAttributes (d : Dialect) (c : Column) : List Attribute :=
  match c.default with
  | some v => if c.autoIncrement && d != .mysql then [] else [.default v]
  | none => []

def ownAttributes (d : Dialect) (c : Column) : List Attribute :=
  if d == .mysql then
    (if c.autoIncrement then [.automatic] else []) ++
      (if given c.comment then [.comment (c.comment.getD "")] else [])
  else []

def attributesOf (d : Dialect) (t : Table) (c : Column) : List Attribute :=
  keyAttributes d t c ++ defaultAttributes d c ++ ownAttributes d c

theorem intercalate_space (a : String) (w : Chars) (as : List Attribute) :
    " ".intercalate ([a, ofChars w] ++ as.map Attribute.text) =
      ofChars (a.toList ++ ' ' :: (w ++ Attribute.tail as)) := by
  have htail (b : Chars) : [' '].intercalate (b :: (as.map Attribute.text).map String.toList) =
      b ++ Attribute.tail as := by
    induction as generalizing b with
    | nil => simp [Attribute.tail]
    | cons x as ih =>
      rw [List.map_cons, List.map_cons, List.intercalate_cons_cons, ih]
      simp [Attribute.tail]
  apply String.toList_injective
  rw [String.toList_intercalate, List.map_append, List.map_cons, List.map_singleton,
    List.cons_append, List.singleton_append]
  have hspace : " ".toList = [' '] := rfl
  rw [hspace, List.intercalate_cons_cons, htail, ofChars, ofChars, String.toList_ofList,
    String.toList_ofList, List.append_assoc]
  rfl

theorem column_of_type (hupdate : c.onUpdate = none)
    (htype : columnType d c = .ok (ofChars w)) : column d c (some t) =
      .ok (ofChars ((d.quote c.name).toList ++
        ' ' :: (w ++ Attribute.tail (attributesOf d t c)))) := by
  have hkey : (keyAttributes d t c).map Attribute.text =
      if d == .sqlite && c.autoIncrement && isWholeKey (some t) c then ["PRIMARY KEY AUTOINCREMENT"]
      else if c.nullable then [] else ["NOT NULL"] := by
    unfold keyAttributes
    split
    · rfl
    · split <;> rfl
  have hown : (ownAttributes d c).map Attribute.text = if d == .mysql then
      (if c.autoIncrement then ["AUTO_INCREMENT"] else []) ++
        (if given (none : Option String) then ["ON UPDATE " ++ (none : Option String).getD ""]
          else []) ++
        (if given c.comment then ["COMMENT " ++ d.textLiteral (c.comment.getD "")] else [])
      else [] := by
    unfold ownAttributes
    by_cases hd : d = .mysql
    · subst hd
      cases c.autoIncrement <;> cases given c.comment <;> rfl
    · rw [if_neg (by simpa using hd), if_neg (by simpa using hd)]
      rfl
  have htexts := intercalate_space (d.quote c.name) w (attributesOf d t c)
  unfold column
  rw [htype, hupdate]
  refine congrArg Except.ok ?_
  rw [← htexts, attributesOf, List.map_append, List.map_append, hkey, hown, defaultAttributes]
  cases c.default with
  | none => simp only [List.append_assoc, List.map_nil, List.nil_append]
  | some v =>
    have hvalue : (if c.autoIncrement && d != .mysql then [] else [Attribute.default v]).map
        Attribute.text = if c.autoIncrement && d != .mysql then [] else ["DEFAULT " ++ v] := by
      split <;> rfl
    simp only [List.append_assoc, hvalue]

/-! ## How a column is read -/

structure IsReadAs (d : Dialect) (w : Chars) (arguments : Option Chars) (name : String) : Prop where
  phrase : Phrase d w
  isList : ∀ x ∈ arguments, IsList d x
  reads : ∀ as, typeName? (w ++ (argumentsText arguments ++ Attribute.tail as)) =
    some (name, argumentsText arguments ++ Attribute.tail as)
  normal : TypeName.normal name = name

theorem Spelling.isReadAs (h : Spelling d c arguments) :
    IsReadAs d c.typeName.toList arguments c.typeName :=
  ⟨h.name.phrase, h.isList, h.name.reads, h.name.normal⟩

theorem IsReadAs.phrase_type {name : String} (h : IsReadAs d w arguments name)
    (has : ∀ a ∈ as, a.IsWritten d) :
    Phrase d (w ++ (argumentsText arguments ++ Attribute.tail as)) := by
  have htype : Phrase d (w ++ argumentsText arguments) := by
    cases arguments with
    | none =>
      rw [argumentsText, List.append_nil]
      exact h.phrase
    | some x => exact (h.isList x rfl).phrase h.phrase
  rw [← List.append_assoc]
  exact phrase_tail htype has

theorem readColumn_of_type {name type : String} {b : Column} (h : IsReadAs d w arguments type)
    (has : ∀ a ∈ as, a.IsWritten d)
    (hnone : arguments = none → b = { name, typeName := type })
    (hsome : ∀ x ∈ arguments, withArguments { name, typeName := type } x = .ok b) :
    readColumn ((d.quote name).toList ++
        ' ' :: (w ++ (argumentsText arguments ++ Attribute.tail as))) =
      .ok (some (normalizeSerial ((as.map Attribute.read).foldl Attribute.give b),
        as.flatMap Attribute.extras)) := by
  have htype := h.phrase_type has
  have hitem := ((Phrase.name d name).space htype).toIsItem
  have hname : Reads ident none (d.quote name).toList
      ([' '] ++ (w ++ (argumentsText arguments ++ Attribute.tail as))) [] :=
    reads_ident d name (by cases d <;> simp [Dialect.nameQuote])
  have hread := readColumn_eq hname hitem.first (List.cons_ne_nil _ _)
    (List.forall_mem_singleton.2 (by decide)) htype.first htype.last htype.ne_nil
  rw [List.singleton_append, unquote_quote, ofChars_typeText (h.reads as) fun x hx =>
    (h.isList x hx).balanced, readTyped] at hread
  rw [hread]
  dsimp only
  rw [h.normal]
  cases arguments with
  | none =>
    dsimp only [pure, Except.pure, bind, Except.bind]
    rw [← hnone rfl, readAll_trim has]
  | some x =>
    dsimp only [bind, Except.bind]
    rw [hsome x rfl]
    dsimp only
    rw [readAll_trim has]
    rfl

/-! ## What the attributes give -/

theorem isPlain_keyAttributes (d : Dialect) (t : Table) (c : Column) :
    ∀ a ∈ keyAttributes d t c, a.IsPlain d := by
  unfold keyAttributes
  split
  · exact List.forall_mem_singleton.2 trivial
  · split
    · exact List.forall_mem_nil _
    · exact List.forall_mem_singleton.2 trivial

theorem isPlain_defaultAttributes (h : ∀ v ∈ c.default, IsPlainDefault d v) :
    ∀ a ∈ defaultAttributes d c, a.IsPlain d := by
  unfold defaultAttributes
  cases hv : c.default with
  | none => exact List.forall_mem_nil _
  | some v =>
    dsimp only
    split
    · exact List.forall_mem_nil _
    · exact List.forall_mem_singleton.2 (h v hv)

theorem isPlain_attributesOf (h : IsPlainColumn d key c) (t : Table) :
    ∀ a ∈ attributesOf d t c, a.IsPlain d := by
  have hone {b : Bool} {x y : List Attribute} (hx : ∀ a ∈ x, a.IsPlain d)
      (hy : ∀ a ∈ y, a.IsPlain d) : ∀ a ∈ if b then x else y, a.IsPlain d := by
    split
    · exact hx
    · exact hy
  have hnone : ∀ a ∈ ([] : List Attribute), a.IsPlain d := List.forall_mem_nil _
  refine List.forall_mem_append.2 ⟨List.forall_mem_append.2
    ⟨isPlain_keyAttributes d t c, isPlain_defaultAttributes h.default⟩, ?_⟩
  refine hone (List.forall_mem_append.2
    ⟨hone (List.forall_mem_singleton.2 trivial) hnone, ?_⟩) hnone
  cases hv : c.comment with
  | none => exact hnone
  | some v =>
    obtain ⟨hd, -, hplain⟩ := h.comment v hv
    exact hone (List.forall_mem_singleton.2 ⟨hd, hplain⟩) hnone

theorem foldl_give_key (hb : b.nullable = true) (hrow : c.autoIncrement = true → d ≠ .sqlite) :
    (keyAttributes d t c).foldl Attribute.give b = { b with nullable := c.nullable } := by
  have hnot : (d == .sqlite && c.autoIncrement && isWholeKey (some t) c) = false := by
    cases hc : c.autoIncrement with
    | true => simp [hrow hc]
    | false => simp
  rw [keyAttributes, hnot]
  cases c.nullable with
  | true =>
    cases b
    cases hb
    rfl
  | false => rfl

theorem foldl_give_default (hb : b.default = none) (hauto : c.autoIncrement = true → d = .mysql) :
    (defaultAttributes d c).foldl Attribute.give b = { b with default := c.default } := by
  have hnot : (c.autoIncrement && d != .mysql) = false := by
    cases hc : c.autoIncrement with
    | true => simp [hauto hc]
    | false => rfl
  rw [defaultAttributes]
  cases hv : c.default with
  | none =>
    cases b
    cases hb
    rfl
  | some v =>
    dsimp only
    rw [hnot]
    rfl

theorem foldl_give_own (h : IsPlainColumn d key c) (hauto : c.autoIncrement = true → d = .mysql)
    (hb : b.autoIncrement = false) (hcomment : b.comment = none) :
    (ownAttributes d c).foldl Attribute.give b =
      { b with autoIncrement := c.autoIncrement, comment := c.comment } := by
  obtain ⟨name, type, length, precision, scale, unsigned, nullable, default, automatic, values,
    isArray, onUpdate, comment⟩ := b
  obtain rfl : automatic = false := hb
  obtain rfl : comment = none := hcomment
  have hcomments : given c.comment = c.comment.isSome := by
    cases hv : c.comment with
    | none => rfl
    | some v =>
      have hne : v.isEmpty = false := by simpa using (h.comment v hv).2.1
      rw [given, hne]
      rfl
  rw [ownAttributes, hcomments]
  cases d with
  | mysql => cases c.autoIncrement <;> cases c.comment <;> rfl
  | sqlite | postgresql =>
    have hautomatic : c.autoIncrement = false := by
      rw [Bool.eq_false_iff]
      exact fun hc => absurd (hauto hc) (by decide)
    have hnone : c.comment = none := by
      cases hv : c.comment with
      | none => rfl
      | some v => exact absurd (h.comment v hv).1 (by decide)
    rw [hautomatic, hnone]
    rfl

/-- Where automatic values are an attribute of their own, the attributes give the column. -/
theorem foldl_give (h : IsPlainColumn d key c) (hauto : c.autoIncrement = true → d = .mysql) :
    ((if c.unsigned then [Attribute.unsigned] else []) ++ attributesOf d t c).foldl
      Attribute.give (bare c) = c := by
  have hunsigned : (if c.unsigned then [Attribute.unsigned] else []).foldl Attribute.give (bare c) =
      { bare c with unsigned := c.unsigned } := by
    cases c.unsigned <;> rfl
  have hsqlite : c.autoIncrement = true → d ≠ .sqlite := by
    intro hc
    rw [hauto hc]
    decide
  rw [List.foldl_append, hunsigned, attributesOf, List.foldl_append, List.foldl_append,
    foldl_give_key rfl hsqlite, foldl_give_default rfl hauto, foldl_give_own h hauto rfl rfl]
  obtain ⟨name, type, length, precision, scale, unsigned, nullable, default, automatic, values,
    isArray, onUpdate, comment⟩ := c
  obtain rfl : isArray = false := h.isArray
  obtain rfl : onUpdate = none := h.onUpdate
  rfl

theorem IsPlainDefault.exists_cons {v : String} (h : IsPlainDefault d v) :
    ∃ c cs, v.toList = c :: cs ∧ beginsValue c = true := by
  cases h with
  | text hv =>
    rw [Dialect.toList_textLiteral]
    exact ⟨_, _, rfl, rfl⟩
  | number n =>
    rcases Int.lt_or_le n 0 with hneg | hpos
    · exact ⟨_, _, Value.toList_toString_of_neg hneg, rfl⟩
    · obtain ⟨c, cs, hdigits⟩ :=
        List.exists_cons_of_ne_nil (Nat.toDigits_ne_nil (b := 10) (n := n.natAbs))
      have hbegins := beginsValue_digits n.natAbs
      rw [hdigits] at hbegins
      exact ⟨c, cs, (Value.toList_toString_of_nonneg hpos).trans hdigits, hbegins⟩

theorem lowerChar_of_beginsValue {c : Char} (h : beginsValue c = true) :
    lowerChar c = [c] ∧ c ≠ 'Σ' := by
  have hdigits : ∀ n : Fin 58, 48 ≤ n.val →
      lowerChar (Char.ofNat n) = [Char.ofNat n] ∧ Char.ofNat n ≠ 'Σ' := by decide
  simp only [beginsValue, Bool.or_eq_true, beq_iff_eq] at h
  rcases h with (rfl | rfl) | hdigit
  · decide
  · decide
  · obtain ⟨hlow, hhigh⟩ := Value.toNat_of_isDigit hdigit
    have hc := hdigits ⟨c.toNat, by omega⟩ hlow
    rwa [Char.ofNat_toNat] at hc

/-- A plain default is taken from no sequence. -/
theorem IsPlainDefault.not_sequence {v : String} (h : IsPlainDefault d v) :
    startsWith "nextval(".toList (lower v).toList = false := by
  obtain ⟨c, cs, hv, hbegins⟩ := h.exists_cons
  have hlower : lowerFrom [] ([c] ++ cs) = [c] ++ lowerFrom ([c].reverse ++ []) cs :=
    lowerFrom_append (List.forall_mem_singleton.2 (lowerChar_of_beginsValue hbegins))
  rw [toList_lower, hv, Bool.eq_false_iff, Ne, startsWith_iff]
  intro hprefix
  rw [← List.singleton_append, hlower] at hprefix
  have hc : 'n' = c := (List.cons_prefix_cons.1 hprefix).1
  rw [← hc] at hbegins
  exact absurd hbegins (by decide)

theorem normalizeSerial_eq_self (hserial : TypeName.serialBase? c.typeName = none)
    (hdefault : ∀ v ∈ c.default, IsPlainDefault d v) : normalizeSerial c = c := by
  rw [normalizeSerial, hserial]
  cases hv : c.default with
  | none => rfl
  | some v =>
    dsimp only
    rw [(hdefault v hv).not_sequence]
    rfl

/-! ## Columns -/

def extrasOf (d : Dialect) (c : Column) : List Extra :=
  if d == .sqlite && c.autoIncrement then [.primaryKey] else []

structure IsColumnText (d : Dialect) (c : Column) (text : String) : Prop where
  phrase : Phrase d text.toList
  head : text.toList.head? = some d.nameQuote
  reads : readColumn text.toList = .ok (some (c, extrasOf d c))

theorem isColumnText {w : Chars} {type : String} {b : Column} (h : IsReadAs d w arguments type)
    (has : ∀ a ∈ as, a.IsPlain d)
    (hnone : arguments = none → b = { name := c.name, typeName := type })
    (hsome : ∀ x ∈ arguments, withArguments { name := c.name, typeName := type } x = .ok b)
    (hgives : normalizeSerial (as.foldl Attribute.give b) = c)
    (hextras : as.flatMap Attribute.extras = extrasOf d c) :
    IsColumnText d c (ofChars ((d.quote c.name).toList ++
      ' ' :: (w ++ (argumentsText arguments ++ Attribute.tail as)))) where
  phrase := by
    rw [ofChars, String.toList_ofList]
    exact (Phrase.name d c.name).space (h.phrase_type fun a ha => (has a ha).isWritten)
  head := by
    rw [ofChars, String.toList_ofList, List.head?_append, head?_quote, Option.some_or]
  reads := by
    rw [ofChars, String.toList_ofList,
      readColumn_of_type h (fun a ha => (has a ha).isWritten) hnone hsome, map_read has, hgives,
      hextras]

theorem extras_attributesOf (hsqlite : c.autoIncrement = true → d ≠ .sqlite) :
    (attributesOf d t c).flatMap Attribute.extras = [] := by
  have hnot : (d == .sqlite && c.autoIncrement && isWholeKey (some t) c) = false := by
    cases hc : c.autoIncrement with
    | true => simp [hsqlite hc]
    | false => simp
  have hkey : (keyAttributes d t c).flatMap Attribute.extras = [] := by
    rw [keyAttributes, hnot]
    cases c.nullable <;> rfl
  have hdefault : (defaultAttributes d c).flatMap Attribute.extras = [] := by
    rw [defaultAttributes]
    cases c.default with
    | none => rfl
    | some v =>
      dsimp only
      split <;> rfl
  have hown : (ownAttributes d c).flatMap Attribute.extras = [] := by
    rw [ownAttributes]
    cases d == .mysql <;> cases c.autoIncrement <;> cases given c.comment <;> rfl
  rw [attributesOf, List.flatMap_append, List.flatMap_append, hkey, hdefault, hown]
  rfl

theorem exists_text_of_attribute (h : IsPlainColumn d t.primaryKey c)
    (hauto : c.autoIncrement = true → d = .mysql) :
    ∃ text, column d c (some t) = .ok text ∧ IsColumnText d c text := by
  have hsqlite : c.autoIncrement = true → d ≠ .sqlite := by
    intro hc
    rw [hauto hc]
    decide
  have hextras : extrasOf d c = [] := by
    cases hc : c.autoIncrement with
    | true => simp [extrasOf, hsqlite hc]
    | false => simp [extrasOf, hc]
  have hunsigned : (∀ a ∈ if c.unsigned then [Attribute.unsigned] else [], a.IsPlain d) ∧
      (if c.unsigned then [Attribute.unsigned] else []).flatMap Attribute.extras = [] := by
    split
    · exact ⟨List.forall_mem_singleton.2 trivial, rfl⟩
    · exact ⟨List.forall_mem_nil _, rfl⟩
  obtain ⟨arguments, hspelling⟩ := h.type.exists_spelling
  have htype := columnType_spelled hspelling hauto h.isArray h.unsigned
  have hgives : normalizeSerial (((if c.unsigned then [Attribute.unsigned] else []) ++
      attributesOf d t c).foldl Attribute.give (bare c)) = c := by
    rw [foldl_give h hauto]
    exact normalizeSerial_eq_self hspelling.serial h.default
  have htext := isColumnText hspelling.isReadAs
    (List.forall_mem_append.2 ⟨hunsigned.1, isPlain_attributesOf h t⟩) hspelling.without
    hspelling.reads hgives (by
      rw [List.flatMap_append, hunsigned.2, extras_attributesOf hsqlite, hextras]
      rfl)
  rw [Attribute.tail, List.flatMap_append, ← Attribute.tail, ← Attribute.tail, ← List.append_assoc,
    ← List.append_assoc, List.append_assoc c.typeName.toList] at htext
  exact ⟨_, column_of_type h.onUpdate htype, htext⟩

/-- A column with automatic values elsewhere than on MySQL has nothing else. -/
theorem eq_automatic (h : IsPlainColumn d key c) (hd : d ≠ .mysql) (hnull : c.nullable = false)
    (hauto : c.autoIncrement = true) (hdefault : c.default = none)
    (htype : c.typeName ∈ ["smallint", "integer", "bigint"]) :
    c = { name := c.name, typeName := c.typeName, nullable := false, autoIncrement := true } := by
  obtain ⟨name, type, length, precision, scale, unsigned, nullable, default, automatic, values,
    isArray, onUpdate, comment⟩ := c
  obtain rfl : nullable = false := hnull
  obtain rfl : automatic = true := hauto
  obtain rfl : default = none := hdefault
  obtain rfl : isArray = false := h.isArray
  obtain rfl : onUpdate = none := h.onUpdate
  obtain rfl : unsigned = false := by
    rw [Bool.eq_false_iff]
    exact fun hu => hd (h.unsigned hu).1
  obtain rfl : comment = none := by
    cases comment with
    | none => rfl
    | some v => exact absurd (h.comment v rfl).1 hd
  have htakes := eq_true_of_contains (P := fun w => !TypeName.takesLength w &&
    !TypeName.takesPrecision w && !(["time", "timestamp", "datetime"].contains w)) (by decide)
      (List.contains_iff_mem.2 htype)
  simp only [Bool.and_eq_true, Bool.not_eq_true'] at htakes
  obtain ⟨⟨hlength, hprecision⟩, htime⟩ := htakes
  cases h.type with
  | word => rfl
  | length hw =>
    rw [hw] at hlength
    cases hlength
  | digits hw =>
    rw [hw] at hprecision
    cases hprecision
  | time hw =>
    rw [List.contains_iff_mem.2 hw] at htime
    cases htime
  | values hw hd' => exact absurd hd' hd

theorem isReadAs_word {w : String} {type : String} (hw : IsWordText w.toList)
    (hlower : lower w = type) (hnormal : TypeName.normal type = type) :
    IsReadAs d w.toList none type where
  phrase := .word hw
  isList := by simp
  reads := fun as => by
    rw [typeName?_word hw (.tail none as), ofChars, String.ofList_toList, hlower]
  normal := hnormal

/-- On PostgreSQL automatic values are a type. -/
theorem exists_text_of_serial (h : IsPlainColumn .postgresql t.primaryKey c)
    (hauto : c.autoIncrement = true) :
    ∃ text, column .postgresql c (some t) = .ok text ∧ IsColumnText .postgresql c text := by
  obtain ⟨hnull, hdefault, htype⟩ := h.automatic hauto
  have hcolumn := eq_automatic h (by decide) hnull hauto hdefault htype
  have hserials : ∀ type ∈ ["smallint", "integer", "bigint"], ∃ serial : String,
      (TypeName.serialOf? (TypeName.family type)).getD "serial" = serial ∧
        IsWordText serial.toList ∧ lower serial = serial ∧ TypeName.normal serial = serial ∧
          TypeName.serialBase? serial = some type := by
    intro type htype
    simp only [List.mem_cons, List.not_mem_nil, or_false] at htype
    rcases htype with rfl | rfl | rfl
    · exact ⟨"smallserial", by decide, isWordText_of_all (by decide) (by decide), by decide,
        by decide, rfl⟩
    · exact ⟨"serial", by decide, isWordText_of_all (by decide) (by decide), by decide,
        by decide, rfl⟩
    · exact ⟨"bigserial", by decide, isWordText_of_all (by decide) (by decide), by decide,
        by decide, rfl⟩
  obtain ⟨serial, hserial, hword, hlower, hnormal, hbase⟩ := hserials _ htype
  have hwritten : columnType .postgresql c =
      .ok (ofChars (serial.toList ++ argumentsText none)) := by
    unfold columnType
    rw [hauto, Column.family, h.isArray]
    simp only [argumentsText, List.append_nil, ofChars, String.ofList_toList, Bool.false_eq_true,
      if_false, hserial]
    rfl
  have hattributes : attributesOf .postgresql t c = [.notNull] := by
    rw [attributesOf, keyAttributes, defaultAttributes, hdefault, hnull]
    rfl
  refine ⟨_, column_of_type h.onUpdate hwritten, ?_⟩
  have htext := isColumnText (c := c) (b := { name := c.name, typeName := serial })
    (isReadAs_word hword hlower hnormal) (isPlain_attributesOf h t) (fun _ => rfl) (by simp) ?_ ?_
  · rwa [← List.append_assoc serial.toList] at htext
  · rw [hattributes, hcolumn]
    simp only [List.foldl_cons, List.foldl_nil, Attribute.give, normalizeSerial, hbase]
  · rw [hattributes]
    rfl

/-- On SQLite automatic values are those of the key of the table. -/
theorem exists_text_of_rowKey (h : IsPlainColumn .sqlite t.primaryKey c)
    (hauto : c.autoIncrement = true) :
    ∃ text, column .sqlite c (some t) = .ok text ∧ IsColumnText .sqlite c text := by
  obtain ⟨hnull, hdefault, htype, hkey⟩ := h.automatic hauto
  have hcolumn := eq_automatic h (by decide) hnull hauto hdefault (by simp [htype])
  have hwritten : columnType .sqlite c =
      .ok (ofChars ("INTEGER".toList ++ argumentsText none)) := by
    unfold columnType
    rw [hauto]
    rfl
  have hwhole : isWholeKey (some t) c = true := by
    rw [isWholeKey, hkey]
    simp
  have hattributes : attributesOf .sqlite t c = [.rowKey] := by
    rw [attributesOf, keyAttributes, defaultAttributes, hdefault, hauto, hwhole]
    rfl
  have hread : IsReadAs .sqlite "INTEGER".toList none "integer" :=
    isReadAs_word (isWordText_of_all (by decide) (by decide)) (by decide) (by decide)
  refine ⟨_, column_of_type h.onUpdate hwritten, ?_⟩
  have htext := isColumnText (c := c) (b := { name := c.name, typeName := "integer" })
    hread (isPlain_attributesOf h t) (fun _ => rfl) (by simp) ?_ ?_
  · rwa [← List.append_assoc "INTEGER".toList] at htext
  · rw [hattributes, hcolumn, htype]
    rfl
  · rw [hattributes, extrasOf, hauto]
    rfl

/-- What is written for a plain column is read as the column. -/
theorem exists_columnText (h : IsPlainColumn d t.primaryKey c) :
    ∃ text, column d c (some t) = .ok text ∧ IsColumnText d c text := by
  cases d with
  | mysql => exact exists_text_of_attribute h fun _ => rfl
  | postgresql =>
    by_cases hauto : c.autoIncrement = true
    · exact exists_text_of_serial h hauto
    · exact exists_text_of_attribute h fun hc => absurd hc hauto
  | sqlite =>
    by_cases hauto : c.autoIncrement = true
    · exact exists_text_of_rowKey h hauto
    · exact exists_text_of_attribute h fun hc => absurd hc hauto

end SqlFerry.Ddl
