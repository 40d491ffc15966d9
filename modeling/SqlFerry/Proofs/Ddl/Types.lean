import SqlFerry.Ddl.Printer
import SqlFerry.Proofs.Ddl.TypeNames

/-!
# Types with their arguments

The types of columns that can be read again: how each is written, with its length, its digits or
its values, and that a column gets them back.
-/

namespace SqlFerry.Ddl

open Text Pattern Sql

variable {d : Dialect} {w x : Chars} {c : Column} {n : Int}

/-! ## Types that can be read again -/

structure IsNumber (n : Int) : Prop where
  nonneg : 0 ≤ n
  few : Value.HasFewDigits n

inductive IsPlainType (d : Dialect) :
    String → (length precision scale : Option Int) → List String → Prop where
  | word {w : String} (hw : IsWordText w.toList) (hlower : lower w = w)
      (hserial : TypeName.serialBase? w = none) (hlist : d = .mysql → w ≠ "enum" ∧ w ≠ "set") :
      IsPlainType d w none none none []
  | length {w : String} {n : Int} (hw : TypeName.takesLength w = true) (hn : IsNumber n)
      (hpos : n ≠ 0) : IsPlainType d w (some n) none none []
  | digits {w : String} {p : Int} {s : Option Int} (hw : TypeName.takesPrecision w = true)
      (hp : IsNumber p) (hpos : p ≠ 0) (hs : ∀ n ∈ s, IsNumber n) :
      IsPlainType d w none (some p) s []
  | time {w : String} {p : Int} (hw : w ∈ ["time", "timestamp", "datetime"]) (hp : IsNumber p) :
      IsPlainType d w none (some p) none []
  | values {w : String} {vs : List String} (hw : w = "enum" ∨ w = "set") (hd : d = .mysql)
      (hvs : ∀ v ∈ vs, IsPlainText v) : IsPlainType d w none none none vs

inductive IsList (d : Dialect) : Chars → Prop where
  | intro {l : List Chars} {gap : Chars} (hl : ∀ x ∈ l, Phrase d x)
      (hgap : ∀ c ∈ gap, c = ' ' ∨ c = '\n') : IsList d ((',' :: gap).intercalate l)

theorem IsList.balanced (h : IsList d x) : Balanced x := by
  obtain @⟨l, gap, hl, hgap⟩ := h
  have h : Balanced ([] ++ (',' :: gap).intercalate l ++ []) :=
    balanced_list hl (List.forall_mem_nil _) hgap (List.forall_mem_nil _)
  rwa [List.nil_append, List.append_nil] at h

theorem IsList.phrase {a : Chars} (ha : Phrase d a) (h : IsList d x) :
    Phrase d (a ++ ('(' :: x ++ [')'])) := by
  obtain @⟨l, gap, hl, hgap⟩ := h
  have h : Phrase d (a ++ ('(' :: ([] ++ (',' :: gap).intercalate l ++ []) ++ [')'])) :=
    ha.call hl (List.forall_mem_nil _) hgap (List.forall_mem_nil _)
  rwa [List.nil_append, List.append_nil] at h

theorem IsList.number (d : Dialect) (n : Int) : IsList d (toString n).toList := by
  have h : IsList d ([','].intercalate [(toString n).toList]) :=
    .intro (List.forall_mem_singleton.2 (.number d n)) (List.forall_mem_nil _)
  rwa [List.intercalate_singleton] at h

theorem number_toString (hn : Value.HasFewDigits n) : number (toString n).toList = .ok n := by
  rw [number, ofChars, String.ofList_toList, Value.readWhole_toString hn]
  rfl

theorem exists_number_error (hn : ¬Value.HasFewDigits n) :
    ∃ e, number (toString n).toList = .error e := by
  rw [number, ofChars, String.ofList_toList, Value.readWhole_toString_eq,
    if_pos (Nat.lt_of_not_le hn)]
  exact ⟨_, rfl⟩

theorem isDigitForm_of_mem_toString (hn : 0 ≤ n) :
    ∀ c ∈ (toString n).toList, isDigitForm c = true := by
  rw [Value.toList_toString_of_nonneg hn]
  exact fun c hc => Value.isDigitForm_of_isDigit (Value.isDigit_of_mem_toDigits hc)

inductive IsNumeral (n : Int) : Chars → Prop where
  | intro {g g' : Chars} (hg : ∀ c ∈ g, isBlank c = true) (hg' : ∀ c ∈ g', isBlank c = true) :
      IsNumeral n (g ++ (toString n).toList ++ g')

theorem isNumeral_self (n : Int) : IsNumeral n (toString n).toList := by
  have h : IsNumeral n ([] ++ (toString n).toList ++ []) :=
    .intro (List.forall_mem_nil _) (List.forall_mem_nil _)
  rwa [List.nil_append, List.append_nil] at h

namespace IsNumeral

theorem trim (h : IsNumeral n x) : trim x = (toString n).toList := by
  obtain ⟨hg, hg'⟩ := h
  exact (Phrase.number .mysql n).toIsItem.trim_of_blanks hg hg'

theorem comma_notMem (h : IsNumeral n x) (hn : 0 ≤ n) : ',' ∉ x := by
  obtain ⟨hg, hg'⟩ := h
  have hblank : isBlank ',' = false := by decide
  simp only [List.mem_append, not_or]
  refine ⟨⟨fun hc => ?_, fun hc => ?_⟩, fun hc => ?_⟩
  · rw [hg _ hc] at hblank
    cases hblank
  · rw [Value.toList_toString_of_nonneg hn] at hc
    exact absurd (Value.isDigit_of_mem_toDigits hc) (by decide)
  · rw [hg' _ hc] at hblank
    cases hblank

theorem numbers (h : IsNumeral n x) (hn : 0 ≤ n) :
    (splitOn [','] x).map Text.trim = [(toString n).toList] := by
  rw [splitOn_of_notMem (h.comma_notMem hn), List.map_singleton, h.trim]

theorem numbers_pair {s : Int} {y : Chars} (h : IsNumeral n x) (hn : 0 ≤ n) (h' : IsNumeral s y)
    (hs : 0 ≤ s) : (splitOn [','] (x ++ ',' :: y)).map Text.trim =
      [(toString n).toList, (toString s).toList] := by
  rw [splitOn_append (h.comma_notMem hn), splitOn_of_notMem (h'.comma_notMem hs),
    List.map_cons, List.map_singleton, h.trim, h'.trim]

end IsNumeral

theorem isDigitForms_toString (hn : 0 ≤ n) :
    (!(toString n).toList.isEmpty && (toString n).toList.all isDigitForm) = true := by
  have hne : (toString n).toList ≠ [] := (Phrase.number .mysql n).ne_nil
  rw [List.isEmpty_eq_false_iff.2 hne, List.all_eq_true.2 (isDigitForm_of_mem_toString hn)]
  rfl

theorem eq_true_of_contains {P : String → Bool} {l : List String} {w : String}
    (hl : l.all P = true) (hw : l.contains w = true) : P w = true :=
  List.all_eq_true.1 hl w (List.contains_iff_mem.1 hw)

def withNumbers (c : Column) (numbers : List Chars) : Except Fault Column := do
  let first := number (numbers.headD [])
  if precisionTypes.contains c.typeName then
    match numbers with
    | _ :: second :: _ =>
      return { c with precision := some (← first), scale := some (← number second) }
    | _ => return { c with precision := some (← first) }
  if timeTypes.contains (← firstWord c.typeName) then return { c with precision := some (← first) }
  return { c with length := some (← first) }

def takesNumbers (w : String) : Bool :=
  !(w == "enum" || w == "set") && !integerTypes.contains w

theorem withArguments_numeral (hw : takesNumbers c.typeName = true) (hx : IsNumeral n x)
    (hn : 0 ≤ n) : withArguments c x = withNumbers c [(toString n).toList] := by
  rw [takesNumbers, Bool.and_eq_true, Bool.not_eq_true', Bool.not_eq_true'] at hw
  unfold withArguments
  simp only [hw.1, hw.2, hx.numbers hn, List.all_cons, List.all_nil, isDigitForms_toString hn,
    Bool.and_true, Bool.not_true, Bool.false_eq_true, if_false]
  rfl

theorem withArguments_numerals {s : Int} {y : Chars} (hw : takesNumbers c.typeName = true)
    (hx : IsNumeral n x) (hn : 0 ≤ n) (hy : IsNumeral s y) (hs : 0 ≤ s) :
    withArguments c (x ++ ',' :: y) =
      withNumbers c [(toString n).toList, (toString s).toList] := by
  rw [takesNumbers, Bool.and_eq_true, Bool.not_eq_true', Bool.not_eq_true'] at hw
  unfold withArguments
  simp only [hw.1, hw.2, hx.numbers_pair hn hy hs, List.all_cons, List.all_nil,
    isDigitForms_toString hn, isDigitForms_toString hs, Bool.and_true, Bool.not_true,
    Bool.false_eq_true, if_false]
  rfl

/-- Whether a number behind a type is read as the digits of its seconds. -/
def countsSeconds (w : String) : Bool :=
  !precisionTypes.contains w && (firstWord w).toOption.map timeTypes.contains == some true

def countsCharacters (w : String) : Bool :=
  !precisionTypes.contains w && (firstWord w).toOption.map timeTypes.contains == some false

theorem exists_firstWord {w : String} {b : Bool}
    (h : ((firstWord w).toOption.map timeTypes.contains == some b) = true) :
    ∃ first, firstWord w = .ok first ∧ timeTypes.contains first = b := by
  cases hfirst : firstWord w with
  | error e =>
    rw [hfirst] at h
    cases h
  | ok first =>
    rw [hfirst, beq_iff_eq] at h
    exact ⟨first, rfl, Option.some_inj.1 h⟩

theorem withNumbers_length (hw : countsCharacters c.typeName = true) (x : Chars) :
    withNumbers c [x] = (number x).map fun n => { c with length := some n } := by
  rw [countsCharacters, Bool.and_eq_true, Bool.not_eq_true'] at hw
  obtain ⟨first, hfirst, htime⟩ := exists_firstWord hw.2
  simp only [withNumbers, hw.1, hfirst, Bool.false_eq_true, if_false, List.headD_cons]
  show (if timeTypes.contains first = true then _ else _) = _
  rw [htime]
  cases number x <;> rfl

theorem withNumbers_time (hw : countsSeconds c.typeName = true) (x : Chars) :
    withNumbers c [x] = (number x).map fun n => { c with precision := some n } := by
  rw [countsSeconds, Bool.and_eq_true, Bool.not_eq_true'] at hw
  obtain ⟨first, hfirst, htime⟩ := exists_firstWord hw.2
  simp only [withNumbers, hw.1, hfirst, Bool.false_eq_true, if_false, List.headD_cons]
  show (if timeTypes.contains first = true then _ else _) = _
  rw [htime]
  cases number x <;> rfl

theorem withNumbers_digits (hw : precisionTypes.contains c.typeName = true) (x : Chars) :
    withNumbers c [x] = (number x).map fun p => { c with precision := some p } := by
  simp only [withNumbers, hw, if_true, List.headD_cons]
  cases number x <;> rfl

theorem withNumbers_scale (hw : precisionTypes.contains c.typeName = true) (x y : Chars) :
    withNumbers c [x, y] = (number x).bind fun p => (number y).map fun s =>
      { c with precision := some p, scale := some s } := by
  simp only [withNumbers, hw, if_true, List.headD_cons]
  cases number x with
  | error e => rfl
  | ok p => cases number y <;> rfl

theorem withArguments_length (hw : TypeName.takesLength c.typeName = true) (hn : IsNumber n) :
    withArguments c (toString n).toList = .ok { c with length := some n } := by
  have hfacts := eq_true_of_contains (P := fun w => takesNumbers w && countsCharacters w)
    (by decide) hw
  rw [Bool.and_eq_true] at hfacts
  rw [withArguments_numeral hfacts.1 (isNumeral_self n) hn.nonneg, withNumbers_length hfacts.2,
    number_toString hn.few]
  rfl

theorem withArguments_time (hw : c.typeName ∈ ["time", "timestamp", "datetime"])
    (hn : IsNumber n) :
    withArguments c (toString n).toList = .ok { c with precision := some n } := by
  have hfacts := eq_true_of_contains (P := fun w => takesNumbers w && countsSeconds w)
    (by decide) (List.contains_iff_mem.2 hw)
  rw [Bool.and_eq_true] at hfacts
  rw [withArguments_numeral hfacts.1 (isNumeral_self n) hn.nonneg, withNumbers_time hfacts.2,
    number_toString hn.few]
  rfl

def digitsText (p : Int) : Option Int → Chars
  | some s => (toString p).toList ++ ',' :: (toString s).toList
  | none => (toString p).toList

theorem withArguments_digits {p : Int} {s : Option Int}
    (hw : TypeName.takesPrecision c.typeName = true) (hp : IsNumber p) (hs : ∀ n ∈ s, IsNumber n)
    (hscale : c.scale = none) :
    withArguments c (digitsText p s) = .ok { c with precision := some p, scale := s } := by
  have hfacts := eq_true_of_contains (P := fun w => takesNumbers w && precisionTypes.contains w)
    (by decide) hw
  rw [Bool.and_eq_true] at hfacts
  cases s with
  | none =>
    rw [digitsText, withArguments_numeral hfacts.1 (isNumeral_self p) hp.nonneg,
      withNumbers_digits hfacts.2, number_toString hp.few, ← hscale]
    rfl
  | some s =>
    have hs : IsNumber s := hs s rfl
    rw [digitsText, withArguments_numerals hfacts.1 (isNumeral_self p) hp.nonneg (isNumeral_self s)
      hs.nonneg, withNumbers_scale hfacts.2, number_toString hp.few, number_toString hs.few]
    rfl

theorem withArguments_values (hw : c.typeName = "enum" ∨ c.typeName = "set") {vs : List String}
    (hvs : ∀ v ∈ vs, d = .mysql ∨ '\\' ∉ v.toList) :
    withArguments c ([',', ' '].intercalate (vs.map fun v => (d.textLiteral v).toList)) =
      .ok { c with enumValues := vs.map (reread d) } := by
  have hlist : (c.typeName == "enum" || c.typeName == "set") = true := by
    simpa using hw
  unfold withArguments
  rw [hlist, if_pos rfl, stringValues_literals d hvs]
  rfl

/-! ## Plain types -/

def takesValues (d : Dialect) (w : String) : Bool :=
  (w == "enum" || w == "set") && d == .mysql

def HasPlainType (d : Dialect) (c : Column) : Prop :=
  IsPlainType d c.typeName c.length c.precision c.scale c.enumValues

def named (c : Column) : Column :=
  { name := c.name, typeName := c.typeName }

def bare (c : Column) : Column :=
  { name := c.name, typeName := c.typeName, length := c.length, precision := c.precision
    scale := c.scale, enumValues := c.enumValues }

/-- How the type of a column is written, and that it is read back. -/
structure Spelling (d : Dialect) (c : Column) (arguments : Option Chars) : Prop where
  name : IsTypeName c.typeName arguments.isSome
  isList : ∀ x ∈ arguments, IsList d x
  written : takesValues d c.typeName = false →
    typeWithArguments c = .ok (ofChars (c.typeName.toList ++ argumentsText arguments))
  values : takesValues d c.typeName = true → arguments =
    some ([',', ' '].intercalate (c.enumValues.map fun v => (d.textLiteral v).toList))
  without : arguments = none → bare c = named c
  reads : ∀ x ∈ arguments, withArguments (named c) x = .ok (bare c)
  serial : TypeName.serialBase? c.typeName = none

theorem takesValues_eq_false {w : String} (h : d = .mysql → w ≠ "enum" ∧ w ≠ "set") :
    takesValues d w = false := by
  rw [takesValues, Bool.and_eq_false_iff]
  by_cases hd : d = .mysql
  · obtain ⟨henum, hset⟩ := h hd
    exact .inl (by simp [henum, hset])
  · exact .inr (by simpa using hd)

theorem takesValues_of_contains {l : List String} {w : String}
    (hl : l.all (fun w => !(w == "enum" || w == "set")) = true) (hw : l.contains w = true) :
    takesValues d w = false := by
  have hne := eq_true_of_contains hl hw
  rw [Bool.not_eq_true'] at hne
  rw [takesValues, hne, Bool.false_and]

theorem spelling_word (hw : IsWordText c.typeName.toList) (hlower : lower c.typeName = c.typeName)
    (hserial : TypeName.serialBase? c.typeName = none)
    (hlist : d = .mysql → c.typeName ≠ "enum" ∧ c.typeName ≠ "set") (hlength : c.length = none)
    (hprecision : c.precision = none) (hscale : c.scale = none) (hvalues : c.enumValues = []) :
    Spelling d c none where
  name := .word hw hlower
  isList := by simp
  written := fun _ => by
    unfold typeWithArguments
    simp only [hlength, hprecision, Option.getD_none, bne_self_eq_false, Bool.and_false,
      Bool.false_eq_true, if_false, words_of_isWordText hw]
    rw [argumentsText, List.append_nil, ofChars, String.ofList_toList]
    split <;> first | rfl | simp_all
  values := by
    rw [takesValues_eq_false hlist]
    simp
  without := fun _ => by rw [bare, named, hlength, hprecision, hscale, hvalues]
  reads := by simp
  serial := hserial

theorem isTypeName_of_contains {l : List String} {w : String} (hl : l.all (fun w =>
      ["character varying", "bit varying"].contains w ||
        (!w.toList.isEmpty && w.toList.all isWord && lower w == w)) = true)
    (hw : l.contains w = true) : IsTypeName w true := by
  have hname := eq_true_of_contains hl hw
  simp only [Bool.or_eq_true, Bool.and_eq_true, Bool.not_eq_true', List.isEmpty_eq_false_iff,
    beq_iff_eq] at hname
  rcases hname with hvarying | ⟨⟨hne, hall⟩, hlower⟩
  · exact .varying (List.contains_iff_mem.1 hvarying)
  · exact .word (isWordText_of_all hne hall) hlower

theorem serialBase?_of_contains {l : List String} {w : String}
    (hl : l.all (fun w => (TypeName.serialBase? w).isNone) = true) (hw : l.contains w = true) :
    TypeName.serialBase? w = none :=
  Option.isNone_iff_eq_none.1 (eq_true_of_contains (P := fun w => (TypeName.serialBase? w).isNone)
    hl hw)

theorem ofChars_arguments (w : String) (x : Chars) :
    ofChars (w.toList ++ argumentsText (some x)) = w ++ "(" ++ ofChars x ++ ")" := by
  apply String.toList_injective
  simp [ofChars, argumentsText]

theorem typeWithArguments_length (hw : TypeName.takesLength c.typeName = true)
    (hlength : c.length = some n) (hpos : n ≠ 0) :
    typeWithArguments c = .ok (ofChars (c.typeName.toList ++
      argumentsText (some (toString n).toList))) := by
  have hne : (n != 0) = true := by simpa using hpos
  unfold typeWithArguments
  simp only [hlength, Option.getD_some, hw, hne, Bool.and_self, if_true]
  rw [ofChars_arguments, ofChars, String.ofList_toList]
  rfl

theorem typeWithArguments_digits {p : Int} (hw : TypeName.takesPrecision c.typeName = true)
    (hprecision : c.precision = some p) (hpos : p ≠ 0) :
    typeWithArguments c = .ok (ofChars (c.typeName.toList ++
      argumentsText (some (digitsText p c.scale)))) := by
  have hne : (p != 0) = true := by simpa using hpos
  have hlength := eq_true_of_contains (P := fun w => !TypeName.takesLength w) (by decide) hw
  rw [Bool.not_eq_true'] at hlength
  unfold typeWithArguments
  simp only [hlength, hprecision, Option.getD_some, Bool.false_and, hw, hne, Bool.and_self, if_true,
    Bool.false_eq_true, if_false]
  cases c.scale with
  | none =>
    rw [digitsText, ofChars_arguments, ofChars, String.ofList_toList]
    rfl
  | some s =>
    have htext : ofChars ((toString p).toList ++ ',' :: (toString s).toList) =
        toString p ++ "," ++ toString s := by
      apply String.toList_injective
      simp [ofChars]
    rw [digitsText, ofChars_arguments, htext]
    simp only [String.append_assoc]
    rfl

/-- Whether neither a length nor a precision is written with a type whose first word is one of
times exactly if `b`. -/
def isTimed (b : Bool) (w : String) : Bool :=
  !TypeName.takesLength w && !TypeName.takesPrecision w &&
    (words w.toList).head?.map (TypeName.takesTimePrecision ∘ String.ofList) == some b

theorem exists_words_of_isTimed {b : Bool} {w : String} (hw : isTimed b w = true) :
    TypeName.takesLength w = false ∧ TypeName.takesPrecision w = false ∧
      ∃ first more, words w.toList = first :: more ∧
        TypeName.takesTimePrecision (String.ofList first) = b := by
  simp only [isTimed, Bool.and_eq_true, Bool.not_eq_true', beq_iff_eq] at hw
  obtain ⟨⟨hlength, hprecision⟩, hfirst⟩ := hw
  refine ⟨hlength, hprecision, ?_⟩
  cases hwords : words w.toList with
  | nil =>
    rw [hwords] at hfirst
    cases hfirst
  | cons first more =>
    rw [hwords] at hfirst
    exact ⟨first, more, rfl, Option.some_inj.1 hfirst⟩

/-- The digits of seconds are written after the first word. -/
theorem typeWithArguments_time {p : Int} (hw : isTimed true c.typeName = true)
    (hprecision : c.precision = some p) : typeWithArguments c =
      let tail := String.ofList ((c.typeName.toList.dropWhile (· != ' ')).drop 1)
      .ok (ofChars (c.typeName.toList.takeWhile (· != ' ') ++
        argumentsText (some (toString p).toList)) ++
          if tail.isEmpty then "" else " " ++ tail) := by
  obtain ⟨hlength, hdigits, first, more, hwords, htime⟩ := exists_words_of_isTimed hw
  unfold typeWithArguments
  simp only [hlength, hdigits, Bool.false_and, Bool.false_eq_true, if_false, hwords, htime,
    hprecision]
  have hhead := ofChars_arguments (String.ofList (c.typeName.toList.takeWhile (· != ' ')))
    (toString p).toList
  have hnumber : ofChars (toString p).toList = toString p := String.ofList_toList
  rw [String.toList_ofList, hnumber] at hhead
  rw [hhead]
  rfl

/-- A type that takes no numbers is written without. -/
theorem typeWithArguments_bare {b : Bool} (hw : isTimed b c.typeName = true)
    (hnone : b = true → c.precision = none) : typeWithArguments c = .ok c.typeName := by
  obtain ⟨hlength, hdigits, first, more, hwords, htime⟩ := exists_words_of_isTimed hw
  unfold typeWithArguments
  simp only [hlength, hdigits, Bool.false_and, Bool.false_eq_true, if_false, hwords, htime]
  cases b with
  | false => rfl
  | true =>
    rw [hnone rfl]
    rfl

theorem spelling_length (hw : TypeName.takesLength c.typeName = true) (hlength : c.length = some n)
    (hn : IsNumber n) (hpos : n ≠ 0) (hprecision : c.precision = none) (hscale : c.scale = none)
    (hvalues : c.enumValues = []) : Spelling d c (some (toString n).toList) where
  name := isTypeName_of_contains (by decide) hw
  isList := by
    rintro x ⟨⟩
    exact .number d n
  written := fun _ => typeWithArguments_length hw hlength hpos
  values := by
    rw [takesValues_of_contains (by decide) hw]
    simp
  without := by simp
  reads := by
    rintro x ⟨⟩
    rw [withArguments_length (c := named c) hw hn, named, bare, hlength, hprecision, hscale,
      hvalues]
  serial := serialBase?_of_contains (by decide) hw

theorem spelling_digits {p : Int} (hw : TypeName.takesPrecision c.typeName = true)
    (hlength : c.length = none) (hprecision : c.precision = some p) (hp : IsNumber p) (hpos : p ≠ 0)
    (hs : ∀ n ∈ c.scale, IsNumber n) (hvalues : c.enumValues = []) :
    Spelling d c (some (digitsText p c.scale)) where
  name := isTypeName_of_contains (by decide) hw
  isList := by
    rintro x ⟨⟩
    cases c.scale with
    | none => exact .number d p
    | some s =>
      have hlist : IsList d ([','].intercalate [(toString p).toList, (toString s).toList]) :=
        .intro (List.forall_mem_cons.2 ⟨.number d p, List.forall_mem_singleton.2 (.number d s)⟩)
          (List.forall_mem_nil _)
      rw [List.intercalate_cons_cons, List.intercalate_singleton, List.append_assoc] at hlist
      exact hlist
  written := fun _ => typeWithArguments_digits hw hprecision hpos
  values := by
    rw [takesValues_of_contains (by decide) hw]
    simp
  without := by simp
  reads := by
    rintro x ⟨⟩
    rw [withArguments_digits (c := named c) hw hp hs rfl, named, bare, hlength, hprecision, hvalues]
  serial := serialBase?_of_contains (by decide) hw

theorem spelling_time {p : Int} (hw : c.typeName ∈ ["time", "timestamp", "datetime"])
    (hlength : c.length = none) (hprecision : c.precision = some p) (hp : IsNumber p)
    (hscale : c.scale = none) (hvalues : c.enumValues = []) :
    Spelling d c (some (toString p).toList) where
  name := isTypeName_of_contains (by decide) (List.contains_iff_mem.2 hw)
  isList := by
    rintro x ⟨⟩
    exact .number d p
  written := fun _ => by
    have hfacts := eq_true_of_contains (P := fun w => isTimed true w &&
      !w.toList.isEmpty && w.toList.all isWord) (by decide) (List.contains_iff_mem.2 hw)
    simp only [Bool.and_eq_true, Bool.not_eq_true', List.isEmpty_eq_false_iff] at hfacts
    have hword : IsWordText c.typeName.toList := isWordText_of_all hfacts.1.2 hfacts.2
    have hspace : ∀ x ∈ c.typeName.toList, (x != ' ') = true := by
      intro x hx
      simpa using hword.ne_of_mem hx (x := ' ') (by decide)
    rw [typeWithArguments_time hfacts.1.1 hprecision, List.takeWhile_eq_self_iff.2 hspace,
      List.dropWhile_eq_nil_iff.2 hspace]
    exact congrArg Except.ok String.append_empty
  values := by
    rw [takesValues_of_contains (by decide) (List.contains_iff_mem.2 hw)]
    simp
  without := by simp
  reads := by
    rintro x ⟨⟩
    rw [withArguments_time (c := named c) hw hp, named, bare, hlength, hprecision, hscale, hvalues]
  serial := serialBase?_of_contains (by decide) (List.contains_iff_mem.2 hw)

theorem spelling_values (hw : c.typeName = "enum" ∨ c.typeName = "set") (hd : d = .mysql)
    (hvs : ∀ v ∈ c.enumValues, IsPlainText v) (hlength : c.length = none)
    (hprecision : c.precision = none) (hscale : c.scale = none) : Spelling d c
      (some ([',', ' '].intercalate (c.enumValues.map fun v => (d.textLiteral v).toList))) where
  name := isTypeName_of_contains (l := ["enum", "set"]) (by decide)
    (List.contains_iff_mem.2 (by simpa using hw))
  isList := by
    rintro x ⟨⟩
    refine .intro ?_ (by simp)
    exact List.forall_mem_map.2 fun v _ => .literal d (.inl hd)
  written := by
    have htakes : takesValues d c.typeName = true := by
      simpa [takesValues, hd] using hw
    rw [htakes]
    simp
  values := fun _ => rfl
  without := by simp
  reads := by
    rintro x ⟨⟩
    rw [withArguments_values (c := named c) hw fun v _ => .inl hd, map_reread d hvs, named, bare,
      hlength, hprecision, hscale]
  serial := serialBase?_of_contains (l := ["enum", "set"]) (by decide)
    (List.contains_iff_mem.2 (by simpa using hw))

/-- Every plain type has a spelling. -/
theorem HasPlainType.exists_spelling (h : HasPlainType d c) :
    ∃ arguments, Spelling d c arguments := by
  obtain ⟨name, w, length, precision, scale, unsigned, nullable, default, automatic, vs, isArray,
    onUpdate, comment⟩ := c
  cases h with
  | word hw hlower hserial hlist =>
    exact ⟨_, spelling_word hw hlower hserial hlist rfl rfl rfl rfl⟩
  | length hw hn hpos => exact ⟨_, spelling_length hw rfl hn hpos rfl rfl rfl⟩
  | digits hw hp hpos hs => exact ⟨_, spelling_digits hw rfl rfl hp hpos hs rfl⟩
  | time hw hp => exact ⟨_, spelling_time hw rfl rfl hp rfl rfl⟩
  | values hw hd hvs => exact ⟨_, spelling_values hw hd hvs rfl rfl rfl⟩

end SqlFerry.Ddl
