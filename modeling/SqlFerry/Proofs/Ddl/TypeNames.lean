import SqlFerry.Proofs.Ddl.Attributes

/-!
# Names of types

The name of a column's type and what it takes in parentheses are read back from where they are
written, before the attributes of the column.
-/

namespace SqlFerry.Ddl

open Text Pattern Sql

variable {d : Dialect} {w x rest name : Chars} {as : List Attribute} {before : List Char}

def argumentsText : (arguments : Option Chars) → Chars
  | none => []
  | some x => '(' :: x ++ [')']

inductive Follows : Chars → Prop where
  | tail (arguments : Option Chars) (as : List Attribute) :
      Follows (argumentsText arguments ++ Attribute.tail as)

theorem Follows.head? (h : Follows rest) : ∀ c ∈ rest.head?, c = ' ' ∨ c = '(' := by
  cases h with
  | tail arguments as =>
    cases arguments with
    | none => exact fun c hc => .inl (head?_tail as c hc)
    | some x =>
      rintro c ⟨⟩
      exact .inr rfl

/-! ## The name -/

def laterWords : List String :=
  ["precision", "varying", "with time zone", "without time zone"]

theorem not_startsWith_keyword (before : Chars) {kw v : String} (hkw : kw ∈ Attribute.keywords)
    (hv : v ∈ laterWords) (more : Chars) :
    startsWith v.toList (lowerFrom before (kw.toList ++ more)) = false := by
  simp only [Attribute.keywords, List.mem_cons, List.not_mem_nil, or_false] at hkw
  simp only [laterWords, List.mem_cons, List.not_mem_nil, or_false] at hv
  rcases hkw with rfl | rfl | rfl | rfl | rfl | rfl <;>
  rcases hv with rfl | rfl | rfl | rfl <;> rfl

/-- A type of several words: its first word and the others. -/
theorem exists_laterWords {name : String} (h : name ∈ severalWords) :
    ∃ first later, name.toList = first ++ ' ' :: later.toList ∧ ' ' ∉ first ∧ '(' ∉ first ∧
      later ∈ laterWords := by
  have split (first later : String) (hlater : later ∈ laterWords)
      (hspace : ' ' ∉ first.toList) (hopen : '(' ∉ first.toList) :
      ∃ first' later', first.toList ++ ' ' :: later.toList = first' ++ ' ' :: later'.toList ∧
        ' ' ∉ first' ∧ '(' ∉ first' ∧ later' ∈ laterWords :=
    ⟨_, _, rfl, hspace, hopen, hlater⟩
  simp only [severalWords, List.mem_cons, List.not_mem_nil, or_false] at h
  rcases h with rfl | rfl | rfl | rfl | rfl | rfl | rfl
  · exact split "double" "precision" (by decide) (by decide) (by decide)
  · exact split "character" "varying" (by decide) (by decide) (by decide)
  · exact split "bit" "varying" (by decide) (by decide) (by decide)
  · exact split "timestamp" "with time zone" (by decide) (by decide) (by decide)
  · exact split "timestamp" "without time zone" (by decide) (by decide) (by decide)
  · exact split "time" "with time zone" (by decide) (by decide) (by decide)
  · exact split "time" "without time zone" (by decide) (by decide) (by decide)

/-- A type of one word is not taken for the beginning of one of several words. -/
theorem not_startsWith_several (hw : ' ' ∉ w) (hrest : Follows rest) {name : String}
    (hname : name ∈ severalWords) :
    startsWith name.toList (lowerFrom [] (w ++ rest)) = false := by
  obtain ⟨first, later, hsplit, hspace, hopen, hlater⟩ := exists_laterWords hname
  obtain ⟨z, hz, hlower⟩ := exists_lowerFrom_append [] rest hw
  rw [Bool.eq_false_iff, Ne, startsWith_iff, hsplit, hlower]
  rintro ⟨after, hafter⟩
  have notSpace {cs : Chars} (hcs : ' ' ∉ cs) : ∀ c ∈ cs, (c != ' ') = true := by
    intro c hc
    rw [bne_iff_ne]
    rintro rfl
    exact hcs hc
  -- up to the first space stands the first word, from there on what follows it
  have hfirst := congrArg (List.takeWhile (· != ' ')) hafter
  have hbehind := congrArg (List.dropWhile (· != ' ')) hafter
  rw [List.append_assoc, List.takeWhile_append_of_pos (notSpace hspace),
    List.takeWhile_append_of_pos (notSpace hz), List.cons_append,
    List.takeWhile_cons_of_neg (by simp), List.append_nil] at hfirst
  rw [List.append_assoc, List.dropWhile_append_of_pos (notSpace hspace),
    List.dropWhile_append_of_pos (notSpace hz), List.cons_append,
    List.dropWhile_cons_of_neg (by simp)] at hbehind
  obtain @⟨arguments, as⟩ := hrest
  cases arguments with
  | some x =>
    have hgroup (cs : Chars) : lowerFrom (w.reverse ++ []) ('(' :: cs) =
        '(' :: lowerFrom ('(' :: (w.reverse ++ [])) cs := rfl
    refine hopen ?_
    rw [hfirst, argumentsText, List.cons_append, List.cons_append, hgroup,
      List.takeWhile_cons_of_pos (by decide)]
    simp
  | none =>
    cases as with
    | nil => cases hbehind
    | cons a as =>
      obtain ⟨more, htext, -⟩ := exists_text_eq a
      have htail : argumentsText none ++ Attribute.tail (a :: as) =
          ' ' :: (a.keyword.toList ++ (more ++ Attribute.tail as)) := by
        simp [argumentsText, Attribute.tail, htext]
      have hblank (cs : Chars) : lowerFrom (w.reverse ++ []) (' ' :: cs) =
          ' ' :: lowerFrom (' ' :: (w.reverse ++ [])) cs := rfl
      rw [htail, hblank, List.dropWhile_cons_of_neg (by decide)] at hbehind
      have hstarts := not_startsWith_keyword (' ' :: (w.reverse ++ [])) a.keyword_mem hlater
        (more ++ Attribute.tail as)
      rw [Bool.eq_false_iff, Ne, startsWith_iff] at hstarts
      exact hstarts ⟨after, (List.cons.inj hbehind).2⟩

theorem typeName?_word (hw : IsWordText w) (hrest : Follows rest) :
    typeName? (w ++ rest) = some (lower (ofChars w), rest) := by
  have hspace : ' ' ∉ w := fun hc => hw.ne_of_mem hc (by decide) rfl
  have hknown : severalWords.find? (fun name =>
      startsWith name.toList (lower (ofChars (w ++ rest))).toList &&
        !(((w ++ rest).drop name.length).head?.map isLetterOrNumber).getD false) = none := by
    refine List.find?_eq_none.2 fun name hname => ?_
    rw [toList_lower, ofChars, String.toList_ofList, not_startsWith_several hspace hrest hname,
      Bool.false_and]
    exact Bool.false_ne_true
  have hbare : ∀ c ∈ rest.head?, isBare c = false := by
    intro c hc
    rcases hrest.head? c hc with rfl | rfl <;> decide
  have hreads : Reads ident none w rest [] := hw.reads_ident hbare
  obtain ⟨m, hm, -, his⟩ := hreads.exists_match?
  rw [typeName?, hknown]
  dsimp only
  rw [hm, Option.map_some, his.text, his.rest, hw.unquote]
  rfl

theorem typeName?_varying {w : String} (hw : w ∈ ["character varying", "bit varying"])
    (x : Chars) : typeName? (w.toList ++ '(' :: x) = some (w, '(' :: x) := by
  rw [typeName?, ofChars]
  simp only [toList_lower, String.toList_ofList]
  simp only [List.mem_cons, List.not_mem_nil, or_false] at hw
  rcases hw with rfl | rfl <;> rfl

/-! ## Arguments and what follows them -/

/-- Attributes without the space before them begin with a keyword. -/
theorem exists_trimLeft_tail (a : Attribute) (as : List Attribute) :
    ∃ more, trimLeft (Attribute.tail (a :: as)) = a.keyword.toList ++ more := by
  obtain ⟨more, htext, -⟩ := exists_text_eq a
  have hword := isWordText_keyword a
  have hfirst : BeginsSolid (a.keyword.toList ++ (more ++ Attribute.tail as)) :=
    hword.beginsSolid _
  have htail : Attribute.tail (a :: as) =
      [' '] ++ (a.keyword.toList ++ (more ++ Attribute.tail as)) := by
    simp [Attribute.tail, htext]
  rw [htail, trimLeft_append (List.forall_mem_singleton.2 (by decide)), trimLeft_eq_self hfirst]
  exact ⟨_, rfl⟩

theorem head?_trimLeft_tail (as : List Attribute) :
    ∀ c ∈ (trimLeft (Attribute.tail as)).head?, isWord c = true := by
  cases as with
  | nil => simp [Attribute.tail, trimLeft]
  | cons a as =>
    obtain ⟨more, htail⟩ := exists_trimLeft_tail a as
    have hword := isWordText_keyword a
    intro c hc
    rw [htail, List.head?_append_of_ne_nil _ hword.ne_nil] at hc
    exact hword.isWord c (List.mem_of_mem_head? hc)

theorem typeArguments_tail (as : List Attribute) :
    typeArguments (Attribute.tail as) = (none, Attribute.tail as) := by
  have hopen : ((trimLeft (Attribute.tail as)).head? == some '(') = false := by
    rw [beq_eq_false_iff_ne]
    intro h
    exact absurd (head?_trimLeft_tail as _ h) (by decide)
  rw [typeArguments, hopen]
  rfl

theorem typeArguments_group (hx : Balanced x) (rest : Chars) :
    typeArguments ('(' :: x ++ ')' :: rest) = (some x, rest) := by
  have hleft : trimLeft ('(' :: x ++ ')' :: rest) = '(' :: x ++ ')' :: rest :=
    List.dropWhile_cons_of_neg (by decide)
  have hslice : slice ('(' :: x ++ ')' :: rest) 1 (x.length + 1) = x := by
    rw [slice, List.cons_append, List.drop_succ_cons, List.drop_zero, Nat.add_sub_cancel,
      List.take_left]
  have hdrop : ('(' :: x ++ ')' :: rest).drop (x.length + 1 + 1) = rest := by
    rw [List.cons_append, List.drop_succ_cons, ← List.singleton_append, ← List.append_assoc,
      List.drop_left' (by simp)]
  rw [typeArguments, hleft, closing?_group hx]
  dsimp only
  rw [hslice, hdrop]
  rfl

theorem typeArguments_text {arguments : Option Chars} (h : ∀ x ∈ arguments, Balanced x)
    (as : List Attribute) :
    typeArguments (argumentsText arguments ++ Attribute.tail as) =
      (arguments, Attribute.tail as) := by
  cases arguments with
  | none => exact typeArguments_tail as
  | some x =>
    have hsplit : argumentsText (some x) ++ Attribute.tail as =
        '(' :: x ++ ')' :: Attribute.tail as := by
      simp [argumentsText]
    rw [hsplit, typeArguments_group (h x rfl)]

theorem zonePattern_tail (as : List Attribute) :
    zonePattern.match? (Attribute.tail as) = none := by
  have hkeyword : opensWith "with".toList (trimLeft (Attribute.tail as)) = false := by
    cases as with
    | nil => rfl
    | cons a as =>
      obtain ⟨more, htail⟩ := exists_trimLeft_tail a as
      have hall : ∀ kw ∈ Attribute.keywords,
          opensWith "with".toList (kw.toList ++ more) = false := by
        simp only [Attribute.keywords, List.forall_mem_cons, List.not_mem_nil, false_implies,
          implies_true, and_true]
        exact ⟨rfl, rfl, rfl, rfl, rfl, rfl⟩
      rw [htail]
      exact hall _ a.keyword_mem
  have hwithout : opensWith "without".toList (trimLeft (Attribute.tail as)) = false := by
    rw [Bool.eq_false_iff] at hkeyword ⊢
    exact fun h => hkeyword (opensWith_of_append (y := "out".toList) h)
  refine Refuses.match? (.seq_left (.seq_left (.seq_left (refuses_blanks1_seq ?_ ?_))))
  · intro before c y hc
    exact .capture 1 (.alt (refuses_word_blank (by decide) hc) (refuses_word_blank (by decide) hc))
  · intro before
    exact .capture 1 (.alt (refuses_word hkeyword) (refuses_word hwithout))

theorem arrayPattern_tail (as : List Attribute) :
    arrayPattern.match? (Attribute.tail as) = none := by
  have hbracket (before : Option Char) (cs : Chars) (h : ∀ c ∈ cs.head?, (c == '[') = false) :
      Refuses (plus (char '[' ++ blanks ++ star digit ++ blanks ++ char ']')) before cs :=
    .seq_left (.seq_left (.seq_left (.seq_left (.seq_left (.one h)))))
  refine Refuses.match? (refuses_blanks_seq ?_ ?_)
  · intro before c y hc
    refine hbracket before _ ?_
    rintro x ⟨⟩
    rw [beq_eq_false_iff_ne]
    rintro rfl
    exact absurd hc (by decide)
  · intro before
    refine hbracket before _ fun c hc => ?_
    rw [beq_eq_false_iff_ne]
    rintro rfl
    exact absurd (head?_trimLeft_tail as _ hc) (by decide)

/-- A type before attributes is read as its name and its arguments. -/
theorem ofChars_typeText {arguments : Option Chars} {name : String} {as : List Attribute}
    (hname : typeName? (w ++ (argumentsText arguments ++ Attribute.tail as)) =
      some (name, argumentsText arguments ++ Attribute.tail as))
    (harguments : ∀ x ∈ arguments, Balanced x) :
    WrittenType.ofChars (w ++ (argumentsText arguments ++ Attribute.tail as)) =
      ⟨name, arguments, false, trim (Attribute.tail as)⟩ := by
  rw [WrittenType.ofChars, hname]
  dsimp only
  rw [typeArguments_text harguments]
  dsimp only
  rw [zonePattern_tail]
  dsimp only
  rw [arrayPattern_tail]

/-! ## Names of types -/

theorem words_of_isWordText (h : IsWordText w) : words w = [w] := by
  have hfold (cs : Chars) (hcs : ∀ c ∈ cs, isBlank c = false) : cs.foldr
      (fun c acc => if isBlank c then
        (([] : Chars), if acc.1.isEmpty then acc.2 else acc.1 :: acc.2) else (c :: acc.1, acc.2))
      (([] : Chars), ([] : List Chars)) = (cs, []) := by
    induction cs with
    | nil => rfl
    | cons c cs ih =>
      rw [List.foldr_cons, ih fun x hx => hcs x (List.mem_cons_of_mem _ hx),
        hcs c List.mem_cons_self]
      rfl
  rw [words, hfold w h.not_isBlank]
  dsimp only
  rw [List.isEmpty_eq_false_iff.2 h.ne_nil]
  rfl

/-- The name of a type in lower case: a word, or one of the types of two words that take a
length. -/
inductive IsTypeName : (w : String) → (hasArguments : Bool) → Prop where
  | word {w : String} {b : Bool} (hw : IsWordText w.toList) (hlower : lower w = w) : IsTypeName w b
  | varying {w : String} (hw : w ∈ ["character varying", "bit varying"]) : IsTypeName w true

theorem IsTypeName.normal {w : String} {b : Bool} (h : IsTypeName w b) : TypeName.normal w = w := by
  cases h with
  | word hw hlower =>
    rw [TypeName.normal, hlower, oneLine, words_of_isWordText hw, List.map_singleton,
      String.ofList_toList]
    exact String.intercalate_singleton
  | varying hw =>
    simp only [List.mem_cons, List.not_mem_nil, or_false] at hw
    rcases hw with rfl | rfl <;> decide

theorem IsTypeName.phrase {w : String} {b : Bool} (h : IsTypeName w b) : Phrase d w.toList := by
  cases h with
  | word hw => exact .word hw
  | varying hw =>
    have hvarying : Phrase d "varying".toList := .keyword "varying" (by decide) (by decide)
    have hcharacter : Phrase d "character".toList := .keyword "character" (by decide) (by decide)
    have hbit : Phrase d "bit".toList := .keyword "bit" (by decide) (by decide)
    simp only [List.mem_cons, List.not_mem_nil, or_false] at hw
    rcases hw with rfl | rfl
    · exact hcharacter.space hvarying
    · exact hbit.space hvarying

theorem IsTypeName.reads {w : String} {arguments : Option Chars}
    (h : IsTypeName w arguments.isSome) (as : List Attribute) :
    typeName? (w.toList ++ (argumentsText arguments ++ Attribute.tail as)) =
      some (w, argumentsText arguments ++ Attribute.tail as) := by
  generalize hb : arguments.isSome = b at h
  cases h with
  | word hw hlower =>
    rw [typeName?_word hw (.tail arguments as), ofChars, String.ofList_toList, hlower]
  | varying hw =>
    obtain ⟨x, rfl⟩ := Option.isSome_iff_exists.1 hb
    exact typeName?_varying hw _

end SqlFerry.Ddl
