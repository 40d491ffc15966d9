import SqlFerry.Proofs.Ddl.Columns
import SqlFerry.Proofs.Ddl.Heads

/-!
# Types with numbers

A type with its length, or with its precision and scale, as a definition may have it. Reading and
writing do not use the same tables of types: which types keep their numbers from the one to the
other is the result here.
-/

namespace SqlFerry.Ddl

open Text Pattern Sql
open Splitter (EndsSolid)

variable {s base : String} {w x y z g n rest : Chars} {c : Char} {d : Dialect}

/-! ## Letters of either case -/

def InCase (s : String) (w : Chars) : Prop :=
  w.map Char.toLower = s.toList

instance (s : String) (w : Chars) : Decidable (InCase s w) :=
  inferInstanceAs (Decidable (_ = _))

def isLettered (s : String) : Bool :=
  s.toList.all fun c => isAsciiLetter c || c == ' '

namespace InCase

theorem isAscii (h : InCase s w) (hs : isLettered s = true) : ∀ c ∈ w, c.toNat < 128 := by
  intro c hc
  have hmem : c.toLower ∈ s.toList := h ▸ List.mem_map_of_mem hc
  have hletter := List.all_eq_true.1 hs _ hmem
  exact toNat_of_toLower (by simpa using hletter)

theorem lowerFrom_append (h : InCase s w) (hs : isLettered s = true) (rest : Chars) :
    lowerFrom [] (w ++ rest) = s.toList ++ lowerFrom (w.reverse ++ []) rest := by
  rw [lowerFrom_append_map (f := Char.toLower), h]
  intro c hc
  have hascii := h.isAscii hs c hc
  refine ⟨by rw [lowerChar, if_pos hascii], ?_⟩
  rintro rfl
  exact absurd hascii (by decide)

theorem lower (h : InCase s w) (hs : isLettered s = true) : lower (ofChars w) = s := by
  have happend := h.lowerFrom_append hs []
  rw [List.append_nil] at happend
  apply String.toList_injective
  rw [toList_lower, ofChars, String.toList_ofList, happend]
  exact List.append_nil _

theorem length_eq (h : InCase s w) : w.length = s.length := by
  rw [← String.length_toList, ← h, List.length_map]

theorem readsAs (h : InCase s w) (hs : s.toList.all isAsciiLetter = true) : ReadsAs s w := by
  refine ⟨?_, h.length_eq⟩
  have hopens (l v : Chars) (hl : l.all isAsciiLetter = true) (hv : v.map Char.toLower = l) :
      opensWith l v = true := by
    induction v generalizing l with
    | nil =>
      cases hv
      rfl
    | cons c v ih =>
      subst hv
      rw [List.map_cons, List.all_cons, Bool.and_eq_true] at hl
      have hsame : isAsciiLetter c.toLower = true → sameLetter c.toLower c = true :=
        of_ascii c (toNat_of_toLower (.inl hl.1)) (by decide)
      rw [List.map_cons, opensWith, hsame hl.1, ih _ hl.2 rfl]
      rfl
  exact hopens _ _ hs h

theorem isWordText (h : InCase s w) (hne : s ≠ "") (hs : s.toList.all isAsciiLetter = true) :
    IsWordText w :=
  (h.readsAs hs).isWordText (fun hnil => hne (String.toList_injective hnil)) hs

theorem head_eq (h : InCase s w) : w.head?.map Char.toLower = s.toList.head? := by
  rw [← h, List.head?_map]

theorem upper (h : InCase s w) (hs : isLettered s = true) :
    Text.upper (ofChars w) = ofChars (s.toList.map Char.toUpper) := by
  have hchar (c : Char) (hc : c ∈ w) : upperChar c = [c.toLower.toUpper] := by
    have htwice : c.toUpper = c.toLower.toUpper := of_ascii c (h.isAscii hs c hc) (by decide)
    rw [upperChar, if_pos (h.isAscii hs c hc), htwice]
  have hmap : w.flatMap upperChar = s.toList.map Char.toUpper := by
    rw [← h, List.map_map, List.map_eq_flatMap]
    exact List.flatMap_congr hchar
  apply String.toList_injective
  rw [toList_upper, ofChars, ofChars, String.toList_ofList, String.toList_ofList, hmap]

end InCase

/-! ## Types with numbers -/

structure NumberedType where
  base : String
  first : Int
  second : Option Int := none
  /-- The word before `time zone`. -/
  zone : Option String := none
  deriving DecidableEq, Repr

def zoneWord : List String :=
  ["with", "without"]

inductive IsZoneText : Option String → Chars → Prop where
  | none : IsZoneText none []
  | some {zone : String} {g w g' t g'' z : Chars} (hzone : zone ∈ zoneWord) (hg : IsBlanks g)
      (hw : InCase zone w) (hg' : IsBlanks g') (ht : InCase "time" t) (hg'' : IsBlanks g'')
      (hz : InCase "zone" z) : IsZoneText (some zone) (g ++ (w ++ (g' ++ (t ++ g'' ++ z))))

inductive IsNumerals : Int → Option Int → Chars → Prop where
  | one {n : Int} {x : Chars} (hx : IsNumeral n x) : IsNumerals n none x
  | two {n m : Int} {x y : Chars} (hx : IsNumeral n x) (hy : IsNumeral m y) :
      IsNumerals n (some m) (x ++ ',' :: y)

namespace NumberedType

variable {t : NumberedType}

/-- The types that take a length, those that are read with a precision, and the times. -/
inductive IsForm : NumberedType → Prop where
  | length {base : String} {n : Int} (hbase : TypeName.takesLength base = true) (hn : 0 < n) :
      IsForm { base, first := n }
  | digits {base : String} {p : Int} {second : Option Int} (hbase : base ∈ precisionTypes)
      (hp : 0 < p) (hs : ∀ n ∈ second, 0 ≤ n) : IsForm { base, first := p, second }
  | time {base : String} {p : Int} {zone : Option String}
      (hbase : TypeName.takesTimePrecision base = true) (hp : 0 ≤ p)
      (hzone : ∀ z ∈ zone, z ∈ zoneWord) : IsForm { base, first := p, zone }

def zoneText : Option String → String
  | some zone => " " ++ zone ++ " time zone"
  | none => ""

def headText (t : NumberedType) : String :=
  ofChars (t.base.toList ++ argumentsText (some (digitsText t.first t.second)))

def text (t : NumberedType) : String :=
  t.headText ++ zoneText t.zone

/-- The type in letters of either case, with blanks around its numbers. -/
inductive IsSpelled (t : NumberedType) : Chars → Prop where
  | intro {w g x y : Chars} (hw : InCase t.base w) (hg : ∀ c ∈ g, isBlank c = true)
      (hx : IsNumerals t.first t.second x) (hy : IsZoneText t.zone y) :
      IsSpelled t (w ++ (g ++ ('(' :: x ++ [')']) ++ y))

/-- Whether the numbers are where the type has them: as its length, or as its digits. -/
def Fills (t : NumberedType) (c : Column) : Prop :=
  if TypeName.takesLength t.base then
    c.length = some t.first ∧ c.precision = none ∧ c.scale = none
  else c.length = none ∧ c.precision = some t.first ∧ c.scale = t.second

def bareBases : List String :=
  ["float", "double", "real", "double precision", "timetz"]

def takesZone (base : String) : Bool :=
  base == "timestamp" || base == "time"

def HasFewDigits (t : NumberedType) : Prop :=
  Value.HasFewDigits t.first ∧ ∀ n ∈ t.second, Value.HasFewDigits n

instance (t : NumberedType) : Decidable t.HasFewDigits :=
  inferInstanceAs (Decidable (_ ∧ _))

/-- Whether the type is written with its numbers and its zone, and the numbers can be read. -/
structure IsKept (t : NumberedType) : Prop where
  base : t.base ∉ bareBases
  zone : t.zone ≠ none → takesZone t.base = true
  few : t.HasFewDigits

end NumberedType

/-! ## How a type is read -/

def numberedTypes : List String :=
  ["char", "varchar", "character", "character varying", "binary", "varbinary", "bit",
    "bit varying", "nchar", "nvarchar", "decimal", "numeric", "float", "double", "real",
    "double precision", "time", "timestamp", "datetime", "timestamptz", "timetz"]

theorem NumberedType.IsForm.mem {t : NumberedType} (h : t.IsForm) : t.base ∈ numberedTypes := by
  cases h with
  | length hbase =>
    have hall := eq_true_of_contains (P := numberedTypes.contains) (by decide) hbase
    exact List.contains_iff_mem.1 hall
  | digits hbase =>
    have hall : ∀ base ∈ precisionTypes, base ∈ numberedTypes := by decide
    exact hall _ hbase
  | time hbase =>
    have hall := eq_true_of_contains (P := numberedTypes.contains) (by decide) hbase
    exact List.contains_iff_mem.1 hall

theorem typeName?_numbered (hbase : base ∈ numberedTypes) (hw : InCase base w)
    (hrest : Behind nameMarks rest) : typeName? (w ++ rest) = some (base, rest) := by
  have hall : ∀ base ∈ numberedTypes, base ∈ severalWords ∨
      base ≠ "" ∧ base.toList.all isAsciiLetter = true ∧ isLettered base = true := by decide
  rcases hall base hbase with hseveral | ⟨hne, hletters, hlettered⟩
  · exact typeName?_several hseveral hw hrest
  · have hword := hw.isWordText hne hletters
    rw [typeName?_name (.word hword) hrest, hword.unquote]
    exact congrArg (fun name => some (name, rest)) (hw.lower hlettered)

theorem IsNumeral.single {n : Int} (h : IsNumeral n x) : Single x := by
  obtain ⟨hg, hg'⟩ := h
  exact ((single_of_blanks hg).append (Phrase.number .mysql n).single).append (single_of_blanks hg')

theorem IsNumerals.balanced {n : Int} {m : Option Int} (h : IsNumerals n m x) : Balanced x := by
  cases h with
  | one hx => exact hx.single.toBalanced
  | two hx hy =>
    exact hx.single.toBalanced.append ((Balanced.one (c := ',') (by decide)).append
      hy.single.toBalanced)

/-- What a zone ends with is no blank. -/
theorem trim_zone {w g' t g'' z : Chars} (hg : IsBlanks g) (hw : IsWordText w)
    (hz : IsWordText z) : trim (g ++ (w ++ (g' ++ (t ++ g'' ++ z)))) =
      w ++ (g' ++ (t ++ g'' ++ z)) := by
  have hends : EndsSolid (w ++ (g' ++ (t ++ g'' ++ z))) :=
    (((endsSolid_word hz).behind _).behind _).behind _
  have htrim := trim_of_blanks hg.isBlank (List.forall_mem_nil _)
    (hw.beginsSolid (g' ++ (t ++ g'' ++ z))) hends.not_isBlank
  rwa [List.append_nil] at htrim

/-- Behind what ends solid a zone ends solid. -/
theorem IsZoneText.endsSolid {zone : Option String} (hy : IsZoneText zone y) (hx : EndsSolid x) :
    EndsSolid (x ++ y) := by
  cases hy with
  | none => rwa [List.append_nil]
  | some hzone hg hw hg' ht hg'' hz =>
    have hlast : IsWordText _ := hz.isWordText (by decide) (by decide)
    exact (((((endsSolid_word hlast).behind _).behind _).behind _).behind _).behind _

theorem readAttribute_word {text : Chars} {t : Token} {ts : List Token} {c : Column}
    {extras : List Extra} (h : t.word ∈ ["WITH", "WITHOUT", "TIME", "ZONE"]) :
    readAttribute text t ts c extras = .ok (c, extras, some 0) := by
  unfold readAttribute
  simp only [List.mem_cons, List.not_mem_nil, or_false] at h
  rcases h with h | h | h | h <;>
  · rw [h]
    rfl

/-- Three words with blanks between them are three tokens. -/
theorem exists_tokens_words {w g' t g'' z : Chars} (hw : IsWordText w) (hg' : IsBlanks g')
    (ht : IsWordText t) (hg'' : IsBlanks g'') (hz : IsWordText z) :
    ∃ t₁ t₂ t₃ : Token, tokens (w ++ (g' ++ (t ++ g'' ++ z))) = [t₁, t₂, t₃] ∧
      t₁.word = Text.upper (ofChars w) ∧ t₂.word = Text.upper (ofChars t) ∧
        t₃.word = Text.upper (ofChars z) := by
  have hnone : ∀ c ∈ ([] : Chars), isBlank c = true := List.forall_mem_nil _
  obtain ⟨t₁, ht₁, -, hcut₁⟩ := tokensAt_word 0 hnone hw
    (endsName_gap (x := t ++ (g'' ++ z)) hg').isRunChar rfl
  obtain ⟨t₂, ht₂, -, hcut₂⟩ := tokensAt_word (0 + ([] : Chars).length + w.length)
    hg'.isBlank ht
    (endsName_gap (x := z) hg'').isRunChar rfl
  have hend : ∀ c ∈ ([] : Chars).head?, isRunChar c = false := by simp
  obtain ⟨t₃, ht₃, -, hcut₃⟩ := tokensAt_word
    (0 + ([] : Chars).length + w.length + g'.length + t.length) hg''.isBlank hz hend rfl
  refine ⟨t₁, t₂, t₃, ?_, ht₁, ht₂, ht₃⟩
  have hwhole : tokens (w ++ (g' ++ (t ++ (g'' ++ z)))) =
      tokensAt 0 ([] ++ w ++ (g' ++ (t ++ (g'' ++ z)))) := rfl
  rw [List.append_nil] at hcut₃
  rw [List.append_assoc t, hwhole, hcut₁, ← List.append_assoc g', hcut₂, hcut₃]
  rfl

/-- A zone behind another type than a time says nothing. -/
theorem readAll_zone {zone : Option String} (hy : IsZoneText zone y) (c : Column) :
    readAll (trim y) (tokens (trim y)) c [] = .ok (c, []) := by
  cases hy with
  | none => rfl
  | @some zone g w g' t g'' z hzone hg hw hg' ht hg'' hz =>
    have hletters : ∀ zone ∈ zoneWord, zone ≠ "" ∧ zone.toList.all isAsciiLetter = true ∧
        isLettered zone = true ∧
          ofChars (zone.toList.map Char.toUpper) ∈ ["WITH", "WITHOUT", "TIME", "ZONE"] := by decide
    obtain ⟨hne, hall, hlettered, hupper⟩ := hletters zone hzone
    have hword := hw.isWordText hne hall
    have htime : IsWordText t := ht.isWordText (by decide) (by decide)
    have hlast : IsWordText z := hz.isWordText (by decide) (by decide)
    obtain ⟨t₁, t₂, t₃, htokens, ht₁, ht₂, ht₃⟩ :=
      exists_tokens_words hword hg' htime hg'' hlast
    rw [hw.upper hlettered] at ht₁
    rw [ht.upper (by decide)] at ht₂
    rw [hz.upper (by decide)] at ht₃
    rw [trim_zone hg hword hlast, htokens, readAll_cons (readAttribute_word (ht₁ ▸ hupper)),
      List.drop_zero, readAll_cons (readAttribute_word (ht₂ ▸ by decide)), List.drop_zero,
      readAll_cons (readAttribute_word (ht₃ ▸ by decide))]
    rfl

theorem zonePattern_nil : zonePattern.match? [] = none :=
  zonePattern_behind ⟨by simp, by simp [trimLeft]⟩

theorem arrayPattern_nil : arrayPattern.match? [] = none :=
  arrayPattern_behind ⟨by simp, by simp [trimLeft]⟩

/-- Neither nothing nor a zone is a dimension. -/
theorem arrayPattern_zone {zone : Option String} (hy : IsZoneText zone y) :
    arrayPattern.match? y = none := by
  cases hy with
  | none => exact arrayPattern_nil
  | @some zone g w g' t g'' z hzone hg hw hg' ht hg'' hz =>
    have hletters : ∀ zone ∈ zoneWord, zone ≠ "" ∧ zone.toList.all isAsciiLetter = true := by
      decide
    have hword := hw.isWordText (hletters zone hzone).1 (hletters zone hzone).2
    refine Refuses.match? (refuses_blanks_seq (fun before c y hc => ?_) fun before => ?_)
    · refine .seq_left (refuses_dimension ?_)
      rintro ⟨⟩
      exact absurd hc (by decide)
    · refine .seq_left (refuses_dimension fun hc => ?_)
      rw [trimLeft_append hg.isBlank, trimLeft_eq_self (hword.beginsSolid _)] at hc
      rw [List.head?_append_of_ne_nil _ hword.ne_nil] at hc
      exact absurd (hword.isWord _ (List.mem_of_mem_head? hc)) (by decide)

namespace NumberedType

variable {t : NumberedType} {name : String}

def nameOf (base : String) (zone : Option String) : String :=
  if takesZone base then base ++ zoneText zone else base

def typeName (t : NumberedType) : String :=
  nameOf t.base t.zone

/-- The type is read with its name, and what is behind it is left unless it is the zone of a
time. -/
theorem IsForm.exists_written (h : t.IsForm) (hw : InCase t.base w)
    (hg : ∀ c ∈ g, isBlank c = true) (hx : Balanced x) (hy : IsZoneText t.zone y) :
    ∃ left zone, IsZoneText zone left ∧
      WrittenType.ofChars (w ++ (g ++ ('(' :: x ++ [')']) ++ y)) =
        ⟨t.typeName, some x, false, trim left⟩ := by
  have hgroup : Behind nameMarks (g ++ ('(' :: x ++ [')']) ++ y) := by
    rw [List.append_assoc]
    exact .of_mark hg (by decide) (by decide)
  have htakes : (t.base == "timestamp" || t.base == "time") = takesZone t.base := rfl
  rw [WrittenType.ofChars, typeName?_numbered h.mem hw hgroup]
  dsimp only
  rw [typeArguments_gap hg hx, htakes, typeName, nameOf]
  dsimp only
  cases hzone : t.zone with
  | none =>
    rw [hzone] at hy
    cases hy
    rw [zonePattern_nil]
    dsimp only
    rw [arrayPattern_nil, zoneText, String.append_empty, ite_self]
    exact ⟨[], none, .none, rfl⟩
  | some zone =>
    rw [hzone] at hy
    have harray := arrayPattern_zone hy
    have hleft := hy
    cases hy with
    | @some _ g₁ w₁ g₂ t₁ g₃ z₁ hmem hg₁ hw₁ hg₂ ht₁ hg₃ hz₁ =>
      have hletters : ∀ zone ∈ zoneWord, zone.toList.all isAsciiLetter = true ∧
          isLettered zone = true := by decide
      have hzoned : ReadsAs "with" w₁ ∨ ReadsAs "without" w₁ := by
        have hreads := hw₁.readsAs (hletters zone hmem).1
        simp only [zoneWord, List.mem_cons, List.not_mem_nil, or_false] at hmem
        rcases hmem with rfl | rfl
        · exact .inl hreads
        · exact .inr hreads
      have hnone : Behind ['['] [] := ⟨by simp, by simp [trimLeft]⟩
      obtain ⟨m, hm, hgroup, hrest⟩ := exists_zone_match hg₁ hzoned hg₂ (ht₁.readsAs (by decide))
        hg₃ (hz₁.readsAs (by decide)) hnone
      rw [List.append_nil] at hm
      rw [hm]
      dsimp only
      rw [hgroup, hw₁.lower (hletters zone hmem).2, hrest, zoneText]
      cases htakes : takesZone t.base with
      | true =>
        rw [if_pos rfl, if_pos rfl]
        dsimp only
        rw [arrayPattern_nil, ← String.append_assoc, ← String.append_assoc]
        exact ⟨[], none, .none, rfl⟩
      | false =>
        rw [if_neg Bool.false_ne_true, if_neg Bool.false_ne_true]
        dsimp only
        rw [harray]
        exact ⟨_, _, hleft, rfl⟩

/-! ## What a column gets -/

def numerals (t : NumberedType) : List Chars :=
  match t.second with
  | some n => [(toString t.first).toList, (toString n).toList]
  | none => [(toString t.first).toList]

def read (t : NumberedType) (name : String) : Column :=
  if countsCharacters t.typeName then { name, typeName := t.typeName, length := some t.first }
  else { name, typeName := t.typeName, precision := some t.first, scale := t.second }

theorem typeName_of_none {base : String} {p : Int} {second : Option Int} :
    typeName { base, first := p, second } = base := by
  rw [typeName, nameOf, zoneText, String.append_empty, ite_self]

def zones : List (Option String) :=
  none :: zoneWord.map some

theorem mem_zones {zone : Option String} (hzone : ∀ z ∈ zone, z ∈ zoneWord) : zone ∈ zones := by
  cases zone with
  | none => exact List.mem_cons_self
  | some z => exact List.mem_cons_of_mem _ (List.mem_map_of_mem (hzone z rfl))

structure IsPlainName (w : String) : Prop where
  takes : takesNumbers w = true
  normal : TypeName.normal w = w
  serial : TypeName.serialBase? w = none

def isSplit (base : String) (zone : Option String) : Bool :=
  let name := (nameOf base zone).toList
  let tail := String.ofList ((name.dropWhile (· != ' ')).drop 1)
  name.takeWhile (· != ' ') == base.toList &&
    (if tail.isEmpty then "" else " " ++ tail) == if takesZone base then zoneText zone else ""

structure IsTimeName (base : String) (zone : Option String) : Prop where
  plain : IsPlainName (nameOf base zone)
  timed : isTimed true (nameOf base zone) = true
  counts : countsSeconds (nameOf base zone) = !countsCharacters (nameOf base zone)
  bare : base ∈ bareBases → countsCharacters (nameOf base zone) = true ∧ nameOf base zone = base
  split : base ∉ bareBases → countsCharacters (nameOf base zone) = false ∧
    TypeName.takesLength base = false ∧ isSplit base zone = true

theorem isTimeName {base : String} {zone : Option String}
    (hbase : TypeName.takesTimePrecision base = true) (hzone : ∀ z ∈ zone, z ∈ zoneWord) :
    IsTimeName base zone := by
  have hall : ∀ base ∈ ["time", "timestamp", "datetime", "timestamptz", "timetz"], ∀ zone ∈ zones,
      (takesNumbers (nameOf base zone) = true ∧
        TypeName.normal (nameOf base zone) = nameOf base zone ∧
          TypeName.serialBase? (nameOf base zone) = none) ∧
      isTimed true (nameOf base zone) = true ∧
      countsSeconds (nameOf base zone) = (!countsCharacters (nameOf base zone)) ∧
      (base ∈ bareBases → countsCharacters (nameOf base zone) = true ∧ nameOf base zone = base) ∧
      (base ∉ bareBases → countsCharacters (nameOf base zone) = false ∧
        TypeName.takesLength base = false ∧ isSplit base zone = true) := by decide +kernel
  obtain ⟨⟨htakes, hnormal, hserial⟩, htimed, hcounts, hbare, hsplit⟩ :=
    hall base (List.contains_iff_mem.1 hbase) zone (mem_zones hzone)
  exact ⟨⟨htakes, hnormal, hserial⟩, htimed, hcounts, hbare, hsplit⟩

theorem IsForm.isPlainName (h : t.IsForm) : IsPlainName t.typeName := by
  have hall : ∀ base ∈ numberedTypes, takesNumbers base = true ∧ TypeName.normal base = base ∧
      TypeName.serialBase? base = none := by decide +kernel
  have hbase : IsPlainName t.base := by
    obtain ⟨htakes, hnormal, hserial⟩ := hall _ h.mem
    exact ⟨htakes, hnormal, hserial⟩
  cases h with
  | length | digits =>
    rw [typeName_of_none]
    exact hbase
  | time htime _ hzone => exact (isTimeName htime hzone).plain

/-- How the numbers behind a type are taken: as digits, as the digits of seconds or as a length. -/
theorem IsForm.withNumbers_eq (h : t.IsForm) :
    withNumbers { name, typeName := t.typeName } t.numerals = do
      let first ← number (toString t.first).toList
      match t.second with
      | some n =>
        let second ← number (toString n).toList
        return { t with first, second := some second }.read name
      | none => return { t with first, second := none }.read name := by
  cases h with
  | @length base n hbase =>
    have hcounts := eq_true_of_contains (P := countsCharacters) (by decide) hbase
    rw [numerals, typeName_of_none]
    dsimp only
    rw [withNumbers_length (c := { name, typeName := base }) hcounts]
    cases number (toString n).toList with
    | error e => rfl
    | ok n =>
      dsimp only [bind, Except.bind, Except.map]
      rw [read, typeName_of_none, if_pos hcounts]
      rfl
  | @digits base p second hbase =>
    have hcontains := List.contains_iff_mem.2 hbase
    have hcounts : ¬countsCharacters base = true := by
      rw [countsCharacters, hcontains]
      exact Bool.false_ne_true
    have hread {p : Int} {second : Option Int} :
        NumberedType.read { base, first := p, second } name =
          { name, typeName := base, precision := some p, scale := second } := by
      rw [read, typeName_of_none, if_neg hcounts]
    rw [typeName_of_none, numerals]
    cases second with
    | none =>
      dsimp only
      rw [withNumbers_digits (c := { name, typeName := base }) hcontains]
      cases number (toString p).toList with
      | error e => rfl
      | ok p => exact congrArg Except.ok hread.symm
    | some n =>
      dsimp only
      rw [withNumbers_scale (c := { name, typeName := base }) hcontains]
      simp only [hread]
      generalize number (toString p).toList = first
      generalize number (toString n).toList = second
      cases first <;> cases second <;> rfl
  | @time base p zone hbase _ hzone =>
    have hcounts := (isTimeName hbase hzone).counts
    have hread (p : Int) : NumberedType.read { base, first := p, zone } name =
        if countsCharacters (nameOf base zone) then
          { name, typeName := nameOf base zone, length := some p }
        else { name, typeName := nameOf base zone, precision := some p } := rfl
    simp only [numerals, hread]
    rw [typeName]
    dsimp only
    generalize nameOf base zone = w at hcounts ⊢
    cases hlength : countsCharacters w with
    | true =>
      rw [withNumbers_length (c := { name, typeName := w }) hlength]
      cases number (toString p).toList <;> rfl
    | false =>
      rw [hlength, Bool.not_false] at hcounts
      rw [withNumbers_time (c := { name, typeName := w }) hcounts]
      cases number (toString p).toList <;> rfl

theorem IsForm.nonneg (h : t.IsForm) : 0 ≤ t.first ∧ ∀ n ∈ t.second, 0 ≤ n := by
  cases h with
  | length _ hn => exact ⟨Int.le_of_lt hn, by simp⟩
  | digits _ hp hs => exact ⟨Int.le_of_lt hp, hs⟩
  | time _ hp => exact ⟨hp, by simp⟩

theorem IsForm.withArguments_eq (h : t.IsForm) (hx : IsNumerals t.first t.second x) :
    withArguments { name, typeName := t.typeName } x =
      withNumbers { name, typeName := t.typeName } t.numerals := by
  have htakes := h.isPlainName.takes
  obtain ⟨hfirst, hsecond⟩ := h.nonneg
  rw [numerals]
  cases htwo : t.second with
  | none =>
    rw [htwo] at hx
    cases hx with
    | one hx => exact withArguments_numeral htakes hx hfirst
  | some n =>
    rw [htwo] at hx
    cases hx with
    | two hx hy => exact withArguments_numerals htakes hx hfirst hy (hsecond n htwo)

/-- A type is read with its numbers, or fails because they are too long. -/
theorem IsForm.withArguments_read (h : t.IsForm) (hx : IsNumerals t.first t.second x)
    (hfew : t.HasFewDigits) :
    withArguments { name, typeName := t.typeName } x = .ok (t.read name) := by
  obtain ⟨hfirst, hsecond⟩ := hfew
  rw [h.withArguments_eq hx, h.withNumbers_eq, number_toString hfirst]
  obtain ⟨base, first, second, zone⟩ := t
  cases second with
  | none => rfl
  | some n =>
    dsimp only [bind, Except.bind]
    rw [number_toString (hsecond n rfl)]
    rfl

theorem IsForm.exists_withArguments_error (h : t.IsForm) (hx : IsNumerals t.first t.second x)
    (hmany : ¬t.HasFewDigits) :
    ∃ e, withArguments { name, typeName := t.typeName } x = .error e := by
  rw [h.withArguments_eq hx, h.withNumbers_eq]
  by_cases hfirst : Value.HasFewDigits t.first
  · have hsecond : ∃ n ∈ t.second, ¬Value.HasFewDigits n := by
      simpa [HasFewDigits, hfirst] using hmany
    obtain ⟨n, hn, hlong⟩ := hsecond
    obtain ⟨e, he⟩ := exists_number_error hlong
    rw [number_toString hfirst, hn]
    dsimp only [bind, Except.bind]
    rw [he]
    exact ⟨e, rfl⟩
  · obtain ⟨e, he⟩ := exists_number_error hfirst
    rw [he]
    exact ⟨e, rfl⟩

/-! ## Columns with numbered types -/

/-- A definition is read up to the arguments of its type. -/
theorem IsForm.exists_readTyped (h : t.IsForm) (hn : IsName n) (hg : IsBlanks g)
    (hz : t.IsSpelled z) : ∃ x left zone, IsNumerals t.first t.second x ∧ IsZoneText zone left ∧
      readColumn (n ++ (g ++ z)) =
        readTyped (unquote n) ⟨t.typeName, some x, false, trim left⟩ := by
  obtain @⟨w, g', x, y, hw, hg', hx, hy⟩ := hz
  obtain ⟨left, zone, hleft, hwritten⟩ := h.exists_written hw hg' hx.balanced hy
  have hletter : ∀ base ∈ numberedTypes, base.toList.head?.any isAsciiLetter = true := by decide
  have hfirst := hletter _ h.mem
  rw [← hw.head_eq, Option.any_map] at hfirst
  obtain ⟨a, ha, hlower⟩ := (Option.any_eq_true _ _).1 hfirst
  have hne : w ≠ [] := by
    rintro rfl
    cases ha
  have hbegins : BeginsSolid w := by
    intro c hc
    rw [ha] at hc
    cases hc
    exact not_isBlank_of_toLower hlower
  have hends : EndsSolid (w ++ (g' ++ ('(' :: x ++ [')']) ++ y)) :=
    (hy.endsSolid ((endsSolid_concat ('(' :: x) (by decide)).behind g')).behind w
  refine ⟨x, left, zone, hx, hleft, ?_⟩
  rw [← hwritten]
  exact readColumn_eq (hn.reads_ident_end (endsName_gap hg))
    (hn.beginsSolid.append hn.ne_nil _) hg.ne_nil hg.isBlank (hbegins.append hne _)
    hends.not_isBlank (by simp [hne])

@[simp]
theorem read_typeName : (t.read name).typeName = t.typeName := by
  unfold read
  split <;> rfl

@[simp]
theorem read_default : (t.read name).default = none := by
  unfold read
  split <;> rfl

@[simp]
theorem read_autoIncrement : (t.read name).autoIncrement = false := by
  unfold read
  split <;> rfl

@[simp]
theorem read_unsigned : (t.read name).unsigned = false := by
  unfold read
  split <;> rfl

@[simp]
theorem read_isArray : (t.read name).isArray = false := by
  unfold read
  split <;> rfl

theorem IsForm.normalizeSerial_read (h : t.IsForm) :
    normalizeSerial (t.read name) = t.read name :=
  normalizeSerial_eq_self (d := .mysql) (by rw [read_typeName, h.isPlainName.serial]) (by simp)

/-- A column is read with the numbers of its type. -/
theorem IsForm.readColumn_read (h : t.IsForm) (hn : IsName n) (hg : IsBlanks g)
    (hz : t.IsSpelled z) (hfew : t.HasFewDigits) :
    readColumn (n ++ (g ++ z)) = .ok (some (t.read (unquote n), [])) := by
  obtain ⟨x, left, zone, hx, hleft, hread⟩ := h.exists_readTyped hn hg hz
  rw [hread, readTyped]
  dsimp only
  rw [h.isPlainName.normal, h.withArguments_read hx hfew]
  dsimp only [bind, Except.bind]
  rw [readAll_zone hleft]
  dsimp only
  rw [h.normalizeSerial_read]
  rfl

theorem IsForm.exists_readColumn_error (h : t.IsForm) (hn : IsName n) (hg : IsBlanks g)
    (hz : t.IsSpelled z) (hmany : ¬t.HasFewDigits) :
    ∃ e, readColumn (n ++ (g ++ z)) = .error e := by
  obtain ⟨x, left, zone, hx, hleft, hread⟩ := h.exists_readTyped hn hg hz
  obtain ⟨e, he⟩ : ∃ e, withArguments { name := unquote n, typeName := t.typeName } x =
      .error e := h.exists_withArguments_error hx hmany
  rw [hread, readTyped]
  dsimp only
  rw [h.isPlainName.normal, he]
  exact ⟨e, rfl⟩

/-! ## What is written -/

def written (t : NumberedType) : String :=
  if t.base ∈ bareBases then t.base
  else t.headText ++ if takesZone t.base then zoneText t.zone else ""

theorem IsForm.columnType_read (h : t.IsForm) :
    columnType d (t.read name) = (typeWithArguments (t.read name)).map (· ++ "" ++ "") := by
  have htakes := h.isPlainName.takes
  rw [takesNumbers, Bool.and_eq_true, Bool.not_eq_true'] at htakes
  simp only [columnType, read_typeName, read_autoIncrement, read_unsigned, read_isArray,
    htakes.1, Bool.false_and, Bool.false_eq_true, if_false]
  rfl

theorem IsForm.typeWithArguments_read (h : t.IsForm) :
    typeWithArguments (t.read name) = .ok t.written := by
  cases h with
  | @length base n hbase hn =>
    have hfacts := eq_true_of_contains
      (P := fun w => countsCharacters w && !bareBases.contains w && !takesZone w) (by decide) hbase
    simp only [Bool.and_eq_true, Bool.not_eq_true'] at hfacts
    have hbare : base ∉ bareBases := by simpa using hfacts.1.2
    let c : Column := { name, typeName := base, length := some n }
    have hread : NumberedType.read { base, first := n } name = c := by
      rw [read, typeName_of_none, if_pos hfacts.1.1]
    rw [hread, typeWithArguments_length (c := c) hbase rfl (Int.ne_of_gt hn), written, if_neg hbare,
      zoneText, ite_self, String.append_empty]
    rfl
  | @digits base p second hbase hp hs =>
    let c : Column := { name, typeName := base, precision := some p, scale := second }
    have hread : NumberedType.read { base, first := p, second } name = c := by
      rw [read, typeName_of_none, countsCharacters, List.contains_iff_mem.2 hbase]
      rfl
    have hwritten : ∀ base ∈ precisionTypes, TypeName.takesPrecision base = true ∧
        base ∉ bareBases ∨ isTimed false base = true ∧ base ∈ bareBases := by decide
    rw [hread, written, zoneText, ite_self, String.append_empty]
    rcases hwritten base hbase with ⟨htakes, hbare⟩ | ⟨htimed, hbare⟩
    · rw [typeWithArguments_digits (c := c) htakes rfl (Int.ne_of_gt hp), if_neg hbare]
      rfl
    · rw [typeWithArguments_bare (c := c) htimed (by simp), if_pos hbare]
  | @time base p zone hbase hp hzone =>
    have hname := isTimeName hbase hzone
    rw [written]
    split
    · next hbare =>
      obtain ⟨hcounts, hsame⟩ := hname.bare hbare
      let c : Column := { name, typeName := nameOf base zone, length := some p }
      have hread : NumberedType.read { base, first := p, zone } name = c := by
        rw [read, typeName, hcounts]
        rfl
      rw [hread, typeWithArguments_bare (c := c) hname.timed fun _ => rfl]
      exact congrArg Except.ok hsame
    · next hbare =>
      obtain ⟨hcounts, -, hsplit⟩ := hname.split hbare
      rw [isSplit, Bool.and_eq_true, beq_iff_eq, beq_iff_eq] at hsplit
      let c : Column := { name, typeName := nameOf base zone, precision := some p }
      have hread : NumberedType.read { base, first := p, zone } name = c := by
        rw [read, typeName, hcounts]
        rfl
      rw [hread, typeWithArguments_time (c := c) hname.timed rfl]
      dsimp only
      rw [hsplit.1, hsplit.2]
      rfl

theorem IsForm.columnType_eq (h : t.IsForm) : columnType d (t.read name) = .ok t.written := by
  rw [h.columnType_read, h.typeWithArguments_read]
  simp [Except.map]

theorem headText_ne_base (w : String) : t.headText ++ w ≠ t.base := by
  intro h
  have hlength := congrArg (fun s => s.toList.length) h
  simp [headText, ofChars, argumentsText] at hlength

theorem written_eq_text_iff :
    t.written = t.text ↔ t.base ∉ bareBases ∧ (t.zone ≠ none → takesZone t.base = true) := by
  rw [written, text]
  split
  · next hbare =>
    exact iff_of_false (headText_ne_base _).symm fun h => h.1 hbare
  · next hbare =>
    rw [String.append_right_inj, and_iff_right hbare]
    cases t.zone with
    | none => simp [zoneText]
    | some zone =>
      have hne : zoneText (some zone) ≠ "" := by
        intro h
        have hlength := congrArg (fun s => s.toList.length) h
        simp [zoneText] at hlength
      cases takesZone t.base with
      | true => simp
      | false => simpa using hne.symm

/-- The numbers are where the column has them. -/
theorem IsForm.fills (h : t.IsForm) (hbare : t.base ∉ bareBases) : t.Fills (t.read name) := by
  rw [Fills, read]
  cases h with
  | @length base n hbase hn =>
    have hcounts := eq_true_of_contains (P := countsCharacters) (by decide) hbase
    rw [typeName_of_none, if_pos hcounts, if_pos hbase]
    exact ⟨rfl, rfl, rfl⟩
  | @digits base p second hbase hp hs =>
    have hfacts := eq_true_of_contains (l := precisionTypes)
      (P := fun w => !countsCharacters w && !TypeName.takesLength w) (by decide)
      (List.contains_iff_mem.2 hbase)
    rw [Bool.and_eq_true, Bool.not_eq_true', Bool.not_eq_true'] at hfacts
    rw [typeName_of_none, hfacts.1, hfacts.2]
    exact ⟨rfl, rfl, rfl⟩
  | @time base p zone hbase hp hzone =>
    obtain ⟨hcounts, hlength, -⟩ := (isTimeName hbase hzone).split hbare
    rw [typeName, hcounts, hlength]
    exact ⟨rfl, rfl, rfl⟩

/-- Whatever column is read, its type is written so. -/
theorem IsForm.columnType_of_readColumn {c : Column} {extras : List Extra} (d : Dialect)
    (h : t.IsForm) (hn : IsName n) (hg : IsBlanks g) (hz : t.IsSpelled z)
    (hread : readColumn (n ++ (g ++ z)) = .ok (some (c, extras))) :
    t.HasFewDigits ∧ columnType d c = .ok t.written := by
  have hfew : t.HasFewDigits := by
    by_contra hmany
    obtain ⟨e, he⟩ := h.exists_readColumn_error hn hg hz hmany
    rw [he] at hread
    cases hread
  rw [h.readColumn_read hn hg hz hfew] at hread
  cases hread
  exact ⟨hfew, h.columnType_eq⟩

/-- A type with numbers is read and written again as it was, with its numbers where the column has
them, exactly if it is kept. -/
theorem numbers_kept_iff (d : Dialect) (h : t.IsForm) (hn : IsName n) (hg : IsBlanks g)
    (hz : t.IsSpelled z) :
    (∃ c extras, readColumn (n ++ (g ++ z)) = .ok (some (c, extras)) ∧
      columnType d c = .ok t.text ∧ t.Fills c) ↔ t.IsKept := by
  constructor
  · rintro ⟨c, extras, hread, htype, -⟩
    obtain ⟨hfew, hwritten⟩ := h.columnType_of_readColumn d hn hg hz hread
    rw [hwritten] at htype
    obtain ⟨hbase, hzone⟩ := written_eq_text_iff.1 (Except.ok.inj htype)
    exact ⟨hbase, hzone, hfew⟩
  · rintro ⟨hbase, hzone, hfew⟩
    refine ⟨_, [], h.readColumn_read hn hg hz hfew, ?_, h.fills hbase⟩
    rw [h.columnType_eq, written_eq_text_iff.2 ⟨hbase, hzone⟩]

theorem decimal_numbers_kept :
    let t : NumberedType := { base := "decimal", first := 10, second := some 2 }
    t.IsForm ∧ IsName "price".toList ∧ IsBlanks [' '] ∧ t.IsSpelled "DECIMAL( 10, 2 )".toList ∧
      ∃ c extras, readColumn "price DECIMAL( 10, 2 )".toList = .ok (some (c, extras)) ∧
        columnType .postgresql c = .ok "decimal(10,2)" ∧ t.Fills c := by
  have hform : IsForm { base := "decimal", first := 10, second := some 2 } :=
    .digits (by decide) (by decide) (by decide)
  have hname : IsName "price".toList := .word ⟨by decide, by decide⟩
  have hgap : IsBlanks [' '] := .singleton (by decide)
  have hfirst : IsNumeral 10 ([' '] ++ (toString (10 : Int)).toList ++ []) :=
    .intro (by decide) (by decide)
  have hsecond : IsNumeral 2 ([' '] ++ (toString (2 : Int)).toList ++ [' ']) :=
    .intro (by decide) (by decide)
  have hspelled : IsSpelled { base := "decimal", first := 10, second := some 2 }
      ("DECIMAL".toList ++ ([] ++ ('(' :: (([' '] ++ (toString (10 : Int)).toList ++ []) ++
        ',' :: ([' '] ++ (toString (2 : Int)).toList ++ [' '])) ++ [')']) ++ [])) :=
    .intro (by decide) (List.forall_mem_nil _) (.two hfirst hsecond) .none
  exact ⟨hform, hname, hgap, hspelled,
    (numbers_kept_iff .postgresql hform hname hgap hspelled).2 ⟨by decide, by decide, by decide⟩⟩

/-- The digits of `timetz` and those of the types of reals are read but not written. -/
theorem not_numbers_kept :
    (¬∀ (d : Dialect) (t : NumberedType) (n g z : Chars),
      TypeName.takesTimePrecision t.base = true → t.IsForm → IsName n → IsBlanks g →
        t.IsSpelled z → ∃ c extras, readColumn (n ++ (g ++ z)) = .ok (some (c, extras)) ∧
          columnType d c = .ok t.text ∧ t.Fills c) ∧
    ¬∀ (d : Dialect) (t : NumberedType) (n g z : Chars),
      t.base ∈ precisionTypes → t.IsForm → IsName n → IsBlanks g →
        t.IsSpelled z → ∃ c extras, readColumn (n ++ (g ++ z)) = .ok (some (c, extras)) ∧
          columnType d c = .ok t.text ∧ t.Fills c := by
  have hname : IsName "c".toList := .word ⟨by decide, by decide⟩
  have hgap : IsBlanks [' '] := .singleton (by decide)
  constructor
  · intro hall
    have hform : IsForm { base := "timetz", first := 3 } :=
      .time (by decide) (by decide) (by simp)
    have hspelled : IsSpelled { base := "timetz", first := 3 }
        ("timetz".toList ++ ([] ++ ('(' :: (toString (3 : Int)).toList ++ [')']) ++ [])) :=
      .intro (by decide) (List.forall_mem_nil _) (.one (isNumeral_self 3)) .none
    obtain ⟨c, extras, hread, htype, -⟩ :=
      hall .postgresql _ _ _ _ (by decide) hform hname hgap hspelled
    rw [(hform.columnType_of_readColumn _ hname hgap hspelled hread).2] at htype
    exact (written_eq_text_iff.1 (Except.ok.inj htype)).1 (by decide)
  · intro hall
    have hform : IsForm { base := "float", first := 7, second := some 3 } :=
      .digits (by decide) (by decide) (by decide)
    have hspelled : IsSpelled { base := "float", first := 7, second := some 3 }
        ("float".toList ++ ([] ++ ('(' :: ((toString (7 : Int)).toList ++
          ',' :: (toString (3 : Int)).toList) ++ [')']) ++ [])) :=
      .intro (by decide) (List.forall_mem_nil _) (.two (isNumeral_self 7) (isNumeral_self 3)) .none
    obtain ⟨c, extras, hread, htype, -⟩ :=
      hall .mysql _ _ _ _ (by decide) hform hname hgap hspelled
    rw [(hform.columnType_of_readColumn _ hname hgap hspelled hread).2] at htype
    exact (written_eq_text_iff.1 (Except.ok.inj htype)).1 (by decide)

end NumberedType

end SqlFerry.Ddl
