import SqlFerry.Proofs.Ddl.Clauses

/-!
# Types before clauses

The types of columns as people write them: a word, a name in quotes or one of the types of several
words, then arguments, a time zone and dimensions. A type is read as the same type whichever clauses
stand behind it.
-/

namespace SqlFerry.Ddl

open Text Pattern Sql
open Splitter (EndsSolid)

variable {marks : List Char} {w n g x y z ds rest cs : Chars} {c : Char} {before : Option Char}

/-! ## What stands behind a type -/

/-- What may stand behind a part of a type: nothing, one of the marks, or a clause, with blanks
before it. -/
structure Behind (marks : List Char) (rest : Chars) : Prop where
  head : ∀ c ∈ rest.head?, isBlank c = true ∨ c ∈ marks
  solid : ∀ c ∈ (trimLeft rest).head?, c ∈ marks ∨ c.toUpper ∈ clauseInitials

theorem Behind.mono {marks' : List Char} (h : Behind marks rest) (hmarks : marks ⊆ marks') :
    Behind marks' rest :=
  ⟨fun c hc => (h.head c hc).imp_right (hmarks ·), fun c hc => (h.solid c hc).imp_left (hmarks ·)⟩

theorem Behind.of_mark (hg : ∀ c ∈ g, isBlank c = true) (hc : c ∈ marks)
    (hsolid : isBlank c = false) : Behind marks (g ++ c :: y) where
  head := by
    cases g with
    | nil =>
      rintro c ⟨⟩
      exact .inr hc
    | cons b g =>
      rintro b ⟨⟩
      exact .inl (hg b List.mem_cons_self)
  solid := by
    rw [trimLeft_append hg, trimLeft_eq_self (by rintro c ⟨⟩; exact hsolid)]
    rintro c ⟨⟩
    exact .inl hc

theorem behind_clausesText (bs : List WrittenClause) : Behind [] (clausesText bs) := by
  cases bs with
  | nil => exact ⟨by simp [clausesText], by simp [clausesText, trimLeft]⟩
  | cons b bs =>
    obtain ⟨z, y, htext, hz⟩ := b.spelled.exists_cons
    rw [clausesText_cons, htext]
    refine ⟨?_, ?_⟩
    · obtain ⟨c, g, hgap, hc⟩ := b.isBlanks.exists_cons
      rw [hgap]
      rintro c ⟨⟩
      exact .inl hc
    · rw [trimLeft_append b.isBlanks.isBlank, List.cons_append,
        trimLeft_eq_self (by rintro c ⟨⟩; exact not_isBlank_of_initial hz)]
      rintro c ⟨⟩
      exact .inr hz

/-- No type of several words goes on as a part of a type or a clause does. -/
theorem Behind.exists_lowerChar (h : Behind nameMarks (' ' :: c :: y)) :
    ∃ z, lowerChar c = [z] ∧ c ≠ 'Σ' ∧ z ∉ ['p', 'v', 'w'] := by
  by_cases hc : isBlank c = true
  · refine ⟨c, lowerChar_of_isBlank hc, ?_, ?_⟩
    · rintro rfl
      exact absurd hc (by decide)
    · intro hmem
      have hall : ∀ c ∈ ['p', 'v', 'w'], isBlank c = false := by decide
      rw [hall c hmem] at hc
      cases hc
  · have htrim : trimLeft (' ' :: c :: y) = c :: y :=
      (trimLeft_append (x := [' ']) isBlank_of_mem_space).trans
        (trimLeft_eq_self (by rintro c ⟨⟩; simpa using hc))
    have hsolid := h.solid c (by rw [htrim]; rfl)
    rcases hsolid with hmark | hinitial
    · have hall : ∀ c ∈ nameMarks, lowerChar c = [c] ∧ c ≠ 'Σ' ∧ c ∉ ['p', 'v', 'w'] := by decide
      exact ⟨c, hall c hmark⟩
    · have hascii := toNat_of_toUpper (isAsciiLetter_of_initial hinitial)
      have hlower : c.toUpper ∈ clauseInitials → c.toLower ∉ ['p', 'v', 'w'] :=
        of_ascii c hascii (by decide)
      refine ⟨c.toLower, by rw [lowerChar, if_pos hascii], ?_, hlower hinitial⟩
      rintro rfl
      exact absurd hascii (by decide)

/-! ## Names of types -/

inductive IsTypeWords : Chars → Prop where
  | name {n : Chars} (hn : IsName n) : IsTypeWords n
  | several {name : String} {z : Chars} (hname : name ∈ severalWords)
      (hz : z.map Char.toLower = name.toList) : IsTypeWords z

theorem isLetterOrSpace_of_mem {name : String} (hname : name ∈ severalWords) :
    ∀ c ∈ name.toList, isAsciiLetter c = true ∨ c = ' ' := by
  have hall : ∀ name ∈ severalWords,
      name.toList.all (fun c => isAsciiLetter c || c == ' ') = true := by decide
  intro c hc
  simpa using List.all_eq_true.1 (hall name hname) c hc

/-- A mark or a blank stays what it is in lower case and is in no type of several words. -/
theorem lowerChar_of_head (hc : isBlank c = true ∨ c ∈ nameMarks) :
    lowerChar c = [c] ∧ c ≠ 'Σ' ∧ isAsciiLetter c = false := by
  rcases hc with hc | hc
  · refine ⟨lowerChar_of_isBlank hc, ?_, ?_⟩
    · rintro rfl
      exact absurd hc (by decide)
    · rw [Bool.eq_false_iff]
      intro hletter
      rw [isBlank_of_isAsciiLetter hletter] at hc
      cases hc
  · have hall : ∀ c ∈ nameMarks, lowerChar c = [c] ∧ c ≠ 'Σ' ∧ isAsciiLetter c = false := by
      decide
    exact hall c hc

/-- Behind a space stands no later word of a type of several words. -/
theorem not_later {later : String} {after before : List Char} (hlater : later ∈ laterWords)
    (hrest : Behind nameMarks (' ' :: y)) : later.toList ++ after ≠ lowerFrom before y := by
  have hall : ∀ later ∈ laterWords, later.toList.head?.any (['p', 'v', 'w'].contains ·) = true := by
    decide
  obtain ⟨a, ha, hinitial⟩ := (Option.any_eq_true _ _).1 (hall later hlater)
  obtain ⟨more, hmore⟩ : ∃ more, later.toList = a :: more := List.head?_eq_some_iff.1 ha
  intro h
  cases y with
  | nil =>
    rw [hmore] at h
    cases h
  | cons c y =>
    obtain ⟨z, hz, hsigma, hnot⟩ := hrest.exists_lowerChar
    have hcons : lowerFrom before ([c] ++ y) = [c].map (fun _ => z) ++ lowerFrom _ y :=
      lowerFrom_append_map (List.forall_mem_singleton.2 ⟨hz, hsigma⟩)
    rw [List.singleton_append] at hcons
    rw [hmore, hcons] at h
    have haz : a = z := (List.cons.inj h).1
    exact hnot (haz ▸ List.contains_iff_mem.1 hinitial)

/-- A word is not taken for the beginning of a type of several words. -/
theorem not_startsWith_word (hn : ' ' ∉ n) (hrest : Behind nameMarks rest) {name : String}
    (hname : name ∈ severalWords) :
    startsWith name.toList (lowerFrom [] (n ++ rest)) = false := by
  obtain ⟨first, later, hsplit, hspace, -, hlater⟩ := exists_laterWords hname
  obtain ⟨z, hz, hlower⟩ := exists_lowerFrom_append [] rest hn
  rw [Bool.eq_false_iff, Ne, startsWith_iff, hsplit, hlower]
  rintro ⟨after, hafter⟩
  have notSpace {cs : Chars} (hcs : ' ' ∉ cs) : ∀ c ∈ cs, (c != ' ') = true := by
    intro c hc
    rw [bne_iff_ne]
    rintro rfl
    exact hcs hc
  -- up to the first space stands the first word, from there on what follows it
  have hfirst := congrArg (List.takeWhile (· != ' ')) hafter
  have hbehind := congrArg (List.dropWhile (· != ' ')) hafter
  rw [List.append_assoc, List.takeWhile_append_of_pos (notSpace hspace),
    List.takeWhile_append_of_pos (notSpace hz), List.cons_append,
    List.takeWhile_cons_of_neg (by simp), List.append_nil] at hfirst
  rw [List.append_assoc, List.dropWhile_append_of_pos (notSpace hspace),
    List.dropWhile_append_of_pos (notSpace hz), List.cons_append,
    List.dropWhile_cons_of_neg (by simp)] at hbehind
  cases rest with
  | nil => cases hbehind
  | cons c y =>
    obtain ⟨hself, hsigma, hletter⟩ := lowerChar_of_head (hrest.head c rfl)
    have hcons : lowerFrom (n.reverse ++ []) ([c] ++ y) =
        [c] ++ lowerFrom ([c].reverse ++ (n.reverse ++ [])) y :=
      lowerFrom_append (List.forall_mem_singleton.2 ⟨hself, hsigma⟩)
    rw [List.singleton_append, List.singleton_append] at hcons
    rw [hcons] at hfirst hbehind
    by_cases hc : c = ' '
    · subst hc
      rw [List.dropWhile_cons_of_neg (by simp)] at hbehind
      exact not_later hlater hrest (List.cons.inj hbehind).2
    · have hmem : c ∈ name.toList := by
        rw [hsplit, hfirst, List.takeWhile_cons_of_pos (by simpa using hc)]
        simp
      rcases isLetterOrSpace_of_mem hname c hmem with h | h
      · rw [h] at hletter
        cases hletter
      · exact hc h

/-- A name in quotes is not taken for the beginning of a type of several words. -/
theorem not_startsWith_quoted {q : Char} (hq : q = '"' ∨ q = '\x60') (y : Chars) {name : String}
    (hname : name ∈ severalWords) : startsWith name.toList (lowerFrom [] (q :: y)) = false := by
  have hcons : lowerFrom [] ([q] ++ y) = [q] ++ lowerFrom ([q].reverse ++ []) y :=
    lowerFrom_append (by rcases hq with rfl | rfl <;> decide)
  have hfirst : ∀ name ∈ severalWords, name.toList.head?.any isAsciiLetter = true := by decide
  obtain ⟨a, ha, hletter⟩ := (Option.any_eq_true _ _).1 (hfirst name hname)
  obtain ⟨more, hmore⟩ : ∃ more, name.toList = a :: more := List.head?_eq_some_iff.1 ha
  rw [List.singleton_append] at hcons
  rw [Bool.eq_false_iff, Ne, startsWith_iff, hmore, hcons]
  intro h
  have haq : a = q := (List.cons_prefix_cons.1 h).1
  rw [haq] at hletter
  rcases hq with rfl | rfl <;> cases hletter

/-- A name is read as the type in lower case. -/
theorem typeName?_name (hn : IsName n) (hrest : Behind nameMarks rest) :
    typeName? (n ++ rest) = some (lower (unquote n), rest) := by
  have hstarts : ∀ name ∈ severalWords,
      startsWith name.toList (lowerFrom [] (n ++ rest)) = false := by
    cases hn with
    | word hn => exact fun _ => not_startsWith_word (fun h => hn.ne_of_mem h (by decide) rfl) hrest
    | quoted d n =>
      rw [Dialect.toList_quote, List.cons_append, List.cons_append]
      exact fun _ => not_startsWith_quoted (nameQuote_cases d) _
  have hknown : severalWords.find? (fun name =>
      startsWith name.toList (lower (ofChars (n ++ rest))).toList &&
        !(((n ++ rest).drop name.length).head?.map isLetterOrNumber).getD false) = none := by
    refine List.find?_eq_none.2 fun name hname => ?_
    rw [toList_lower, ofChars, String.toList_ofList, hstarts name hname, Bool.false_and]
    exact Bool.false_ne_true
  have hreads : Reads ident none n rest [] := hn.reads_ident_end hrest.head
  obtain ⟨m, hm, -, his⟩ := hreads.exists_match?
  rw [typeName?, hknown]
  dsimp only
  rw [hm, Option.map_some, his.text, his.rest]

theorem toNat_of_toLower (h : isAsciiLetter c.toLower = true ∨ c.toLower = ' ') :
    c.toNat < 128 := by
  unfold Char.toLower at h
  split at h
  · next hupper =>
    have hn : c.val.toNat = c.toNat := rfl
    simp only [UInt32.le_iff_toNat_le, hn] at hupper
    simp at hupper
    omega
  · rcases h with h | rfl
    · exact toNat_of_isAsciiLetter h
    · decide

theorem not_isBlank_of_toLower (h : isAsciiLetter c.toLower = true) : isBlank c = false := by
  have hall : isAsciiLetter c.toLower = true → isBlank c = false :=
    of_ascii c (toNat_of_toLower (.inl h)) (by decide)
  exact hall h

/-- None of the types of several words begins another. -/
theorem eq_of_begins {a b : String} (ha : a ∈ severalWords) (hb : b ∈ severalWords)
    (h : a.toList <+: b.toList ∨ b.toList <+: a.toList) : a = b := by
  have hall : ∀ a ∈ severalWords, ∀ b ∈ severalWords,
      a.toList.isPrefixOf b.toList = true → a = b := by decide
  rcases h with h | h
  · exact hall a ha b hb (List.isPrefixOf_iff_prefix.2 h)
  · exact (hall b hb a ha (List.isPrefixOf_iff_prefix.2 h)).symm

theorem isLetterOrNumber_of_head (hc : isBlank c = true ∨ c ∈ nameMarks) :
    isLetterOrNumber c = false := by
  rcases hc with hc | hc
  · have hword := isWord_of_isBlank hc
    rw [isWord, Bool.or_eq_false_iff] at hword
    exact hword.1
  · have hall : ∀ c ∈ nameMarks, isLetterOrNumber c = false := by decide
    exact hall c hc

/-- Several words are read as the type. -/
theorem typeName?_several {name : String} (hname : name ∈ severalWords)
    (hz : z.map Char.toLower = name.toList) (hrest : Behind nameMarks rest) :
    typeName? (z ++ rest) = some (name, rest) := by
  have hchar : ∀ c ∈ z, lowerChar c = [c.toLower] ∧ c ≠ 'Σ' := by
    intro c hc
    have hmem : c.toLower ∈ name.toList := hz ▸ List.mem_map_of_mem hc
    have hascii := toNat_of_toLower (isLetterOrSpace_of_mem hname _ hmem)
    refine ⟨by rw [lowerChar, if_pos hascii], ?_⟩
    rintro rfl
    exact absurd hascii (by decide)
  have hlength : z.length = name.length := by
    rw [← String.length_toList, ← hz, List.length_map]
  have hprefix : name.toList <+: (lower (ofChars (z ++ rest))).toList := by
    rw [toList_lower, ofChars, String.toList_ofList, lowerFrom_append_map hchar, hz]
    exact List.prefix_append _ _
  have hdrop : (z ++ rest).drop name.length = rest := List.drop_left' hlength
  have hfree : ((rest.head?.map isLetterOrNumber).getD false) = false := by
    cases rest with
    | nil => rfl
    | cons c rest => exact isLetterOrNumber_of_head (hrest.head c rfl)
  have hknown : severalWords.find? (fun name =>
      startsWith name.toList (lower (ofChars (z ++ rest))).toList &&
        !(((z ++ rest).drop name.length).head?.map isLetterOrNumber).getD false) = some name := by
    cases hfind : severalWords.find? (fun name =>
      startsWith name.toList (lower (ofChars (z ++ rest))).toList &&
        !(((z ++ rest).drop name.length).head?.map isLetterOrNumber).getD false) with
    | none =>
      have hnot := List.find?_eq_none.1 hfind name hname
      rw [startsWith_iff.2 hprefix, hdrop, hfree] at hnot
      exact absurd rfl hnot
    | some other =>
      have hother := List.find?_some hfind
      rw [Bool.and_eq_true, startsWith_iff] at hother
      have halike := List.prefix_or_prefix_of_prefix hother.1 hprefix
      rw [eq_of_begins (List.mem_of_find?_eq_some hfind) hname halike]
  rw [typeName?, hknown]
  dsimp only
  rw [hdrop]

theorem IsTypeWords.exists_name (h : IsTypeWords n) : ∃ name, ∀ rest, Behind nameMarks rest →
    typeName? (n ++ rest) = some (name, rest) := by
  cases h with
  | name hn => exact ⟨_, fun _ => typeName?_name hn⟩
  | several hname hz => exact ⟨_, fun _ => typeName?_several hname hz⟩

/-! ## Arguments -/

inductive IsArguments : Chars → Prop where
  | nil : IsArguments []
  | group {g x : Chars} (hg : ∀ c ∈ g, isBlank c = true) (hx : Balanced x) :
      IsArguments (g ++ ('(' :: x ++ [')']))

theorem typeArguments_behind (hrest : Behind ['['] rest) : typeArguments rest = (none, rest) := by
  have hopen : ((trimLeft rest).head? == some '(') = false := by
    rw [beq_eq_false_iff_ne]
    intro h
    have hsolid := hrest.solid '(' h
    exact absurd hsolid (by decide)
  rw [typeArguments, hopen]
  rfl

theorem typeArguments_gap (hg : ∀ c ∈ g, isBlank c = true) (hx : Balanced x) (rest : Chars) :
    typeArguments (g ++ ('(' :: x ++ [')']) ++ rest) = (some x, rest) := by
  have htrim : trimLeft (g ++ ('(' :: x ++ ')' :: rest)) = trimLeft ('(' :: x ++ ')' :: rest) :=
    trimLeft_append hg
  have hgroup := typeArguments_group hx rest
  have hwhole : g ++ ('(' :: x ++ [')']) ++ rest = g ++ ('(' :: x ++ ')' :: rest) := by simp
  have hleft : trimLeft ('(' :: x ++ ')' :: rest) = '(' :: x ++ ')' :: rest :=
    List.dropWhile_cons_of_neg (by decide)
  rw [typeArguments, hleft] at hgroup
  rw [hwhole, typeArguments, htrim, hleft]
  simpa using hgroup

theorem IsArguments.exists_arguments (h : IsArguments x) : ∃ arguments, ∀ rest,
    Behind ['['] rest → typeArguments (x ++ rest) = (arguments, rest) := by
  cases h with
  | nil => exact ⟨_, fun _ => typeArguments_behind⟩
  | group hg hx => exact ⟨_, fun rest _ => typeArguments_gap hg hx rest⟩

theorem IsArguments.behind (h : IsArguments x) (hrest : Behind ['['] rest) :
    Behind nameMarks (x ++ rest) := by
  cases h with
  | nil => exact hrest.mono (by decide)
  | group hg =>
    rw [List.append_assoc]
    exact .of_mark hg (by decide) (by decide)

/-! ## Time zones -/

theorem zonePattern_behind (hrest : Behind ['['] rest) : zonePattern.match? rest = none := by
  have hhead : ∀ c ∈ (trimLeft rest).head?, sameLetter 'w' c = false := by
    intro c hc
    rcases hrest.solid c hc with hmark | hinitial
    · rw [List.mem_singleton.1 hmark]
      decide
    · have hall : c.toUpper ∈ clauseInitials → sameLetter 'w' c = false :=
        of_ascii c (toNat_of_toUpper (isAsciiLetter_of_initial hinitial)) (by decide)
      exact hall hinitial
  have hwords {s : String} {l : List Char} (hs : s.toList = 'w' :: l) :
      opensWith s.toList (trimLeft rest) = false := by
    rw [hs]
    cases htrim : trimLeft rest with
    | nil => rfl
    | cons c y => rw [opensWith, hhead c (by rw [htrim]; rfl), Bool.false_and]
  refine Refuses.match? (.seq_left (.seq_left (.seq_left (refuses_blanks1_seq ?_ ?_))))
  · intro before c y hc
    exact .capture 1 (.alt (refuses_word_blank (by decide) hc) (refuses_word_blank (by decide) hc))
  · intro before
    exact .capture 1 (.alt (refuses_word (hwords rfl)) (refuses_word (hwords rfl)))

def ReadsAs (s : String) (w : Chars) : Prop :=
  opensWith s.toList w = true ∧ w.length = s.length

inductive IsZone : Chars → Prop where
  | intro {g w g' t g'' z : Chars} (hg : IsBlanks g) (hw : ReadsAs "with" w ∨ ReadsAs "without" w)
      (hg' : IsBlanks g') (ht : ReadsAs "time" t) (hg'' : IsBlanks g'') (hz : ReadsAs "zone" z) :
      IsZone (g ++ (w ++ (g' ++ (t ++ g'' ++ z))))

theorem ReadsAs.isWordText {s : String} (h : ReadsAs s w) (hne : s.toList ≠ [])
    (hs : s.toList.all isAsciiLetter = true) : IsWordText w := by
  obtain ⟨hopens, hlength⟩ := h
  rw [← String.length_toList] at hlength
  have hwords (l v : Chars) (hl : l.all isAsciiLetter = true) (hopens : opensWith l v = true)
      (hlength : v.length = l.length) : ∀ c ∈ v, isWord c = true := by
    induction l generalizing v with
    | nil => simp [List.length_eq_zero_iff.1 hlength]
    | cons a l ih =>
      cases v with
      | nil => cases hlength
      | cons c v =>
        rw [List.all_cons, Bool.and_eq_true] at hl
        rw [opensWith, Bool.and_eq_true] at hopens
        exact List.forall_mem_cons.2 ⟨isWord_of_sameLetter hl.1 hopens.1,
          ih v hl.2 hopens.2 (Nat.succ.inj hlength)⟩
  refine ⟨fun hw => hne ?_, hwords s.toList w hs hopens hlength⟩
  rw [hw, List.length_nil] at hlength
  exact List.length_eq_zero_iff.1 hlength.symm

theorem exists_append_of_opensWith (h : opensWith (x ++ y) w = true) :
    ∃ u v, w = u ++ v ∧ u.length = x.length ∧ opensWith y v = true := by
  induction x generalizing w with
  | nil => exact ⟨[], w, rfl, rfl, h⟩
  | cons a x ih =>
    cases w with
    | nil => cases h
    | cons c w =>
      rw [List.cons_append, opensWith, Bool.and_eq_true] at h
      obtain ⟨u, v, rfl, hu, hv⟩ := ih h.2
      exact ⟨c :: u, v, rfl, congrArg Nat.succ hu, hv⟩

def zoneWords : Pattern :=
  blanks1 ++ (phrase ["time", "zone"] ++ edge)

theorem not_isWord_behind (hrest : Behind ['['] rest) :
    (rest.head?.map isWord).getD false = false := by
  cases rest with
  | nil => rfl
  | cons c rest =>
    rcases hrest.head c rfl with hc | hc
    · exact isWord_of_isBlank hc
    · rw [List.mem_singleton.1 hc]
      rfl

/-- A word ends where a part of a type ends. -/
theorem reads_edge_behind (hw : IsWordText w) (x : Chars) (hrest : Behind ['['] rest) :
    Reads edge ((x ++ w).getLast?.or before) [] rest [] := by
  obtain ⟨c, hc⟩ := Option.isSome_iff_exists.1 (List.getLast?_isSome.2 hw.ne_nil)
  have hword : isWord c = true := hw.isWord c (List.mem_of_mem_getLast? hc)
  refine .edge ?_
  rw [Cursor.atEdge, List.getLast?_append, hc, not_isWord_behind hrest, Option.some_or,
    Option.some_or, Option.map_some, Option.getD_some, hword]
  rfl

theorem reads_zoneWords {g' t : Chars} (hg : IsBlanks g) (ht : ReadsAs "time" t)
    (hg' : IsBlanks g') (hz : ReadsAs "zone" z) (hrest : Behind ['['] rest) :
    Reads zoneWords before (g ++ (t ++ g' ++ z)) rest [] := by
  have htime : IsWordText t := ht.isWordText (by decide) (by decide)
  have hzone : IsWordText z := hz.isWordText (by decide) (by decide)
  have hfirst : Reads blanks1 before g (t ++ g' ++ z ++ rest) [] := by
    refine reads_blanks1 hg.ne_nil hg.isBlank ?_
    rw [List.append_assoc, List.append_assoc]
    exact htime.beginsSolid _
  have hsecond (before : Option Char) : Reads blanks1 before g' (z ++ rest) [] :=
    reads_blanks1 hg'.ne_nil hg'.isBlank (hzone.beginsSolid _)
  have hphrase (before : Option Char) :
      Reads (phrase ["time", "zone"]) before (t ++ g' ++ z) ([] ++ rest) [] :=
    ((reads_word ht.1 ht.2).seq (hsecond _)).seq (reads_word hz.1 hz.2)
  have hedged (before : Option Char) :
      Reads (phrase ["time", "zone"] ++ edge) before (t ++ g' ++ z ++ []) rest [] :=
    (hphrase before).seq (reads_edge_behind hzone _ hrest)
  simp only [List.append_nil] at hedged
  exact hfirst.seq (hedged _)

/-- `WITHOUT` is not read as `WITH`, because no blank stands behind its first letters. -/
theorem refuses_with (hw : ReadsAs "without" w) (y : Chars) :
    Refuses (capture 1 (word "with") ++ zoneWords) before (w ++ y) := by
  obtain ⟨u, v, rfl, hu, hv⟩ := exists_append_of_opensWith (x := "with".toList) hw.1
  have hnext : ∀ c ∈ (v ++ y).head?, isBlank c = false := by
    cases v with
    | nil => cases hv
    | cons o v =>
      rw [opensWith, Bool.and_eq_true] at hv
      rintro c ⟨⟩
      exact isBlank_of_sameLetter (by decide) (by decide) hv.1
  have hrefuse : Refuses zoneWords (u.getLast?.or before) (v ++ y) :=
    .seq_left (refuses_blanks1 hnext)
  rw [List.append_assoc]
  exact .after ((only_word (s := "with") hu).capture 1) hrefuse

/-- A time zone is read up to what follows it. -/
theorem exists_zone_match {t g'' : Chars} (hg : IsBlanks g)
    (hw : ReadsAs "with" w ∨ ReadsAs "without" w) {g' : Chars} (hg' : IsBlanks g')
    (ht : ReadsAs "time" t) (hg'' : IsBlanks g'') (hz : ReadsAs "zone" z)
    (hrest : Behind ['['] rest) :
    ∃ m, zonePattern.match? (g ++ (w ++ (g' ++ (t ++ g'' ++ z))) ++ rest) = some m ∧
      m.group 1 = w ∧ m.rest = rest := by
  have hword : IsWordText w := by
    rcases hw with hw | hw <;> exact hw.isWordText (by decide) (by decide)
  have hwords (before : Option Char) : Reads zoneWords before (g' ++ (t ++ g'' ++ z)) rest [] :=
    reads_zoneWords hg' ht hg'' hz hrest
  have hwith (before : Option Char) : Reads (capture 1 (choice [word "with", word "without"]) ++
      zoneWords) before (w ++ (g' ++ (t ++ g'' ++ z))) rest ([] ++ [(1, w)]) := by
    rcases hw with hw | hw
    · exact (Reads.capture 1 (.left (reads_word hw.1 hw.2))).seq (hwords _)
    · refine .capture_alt_seq 1 ?_ (reads_word hw.1 hw.2) (hwords _)
      rw [List.append_assoc]
      exact refuses_with hw _
  have hgap : Reads blanks1 none g (w ++ (g' ++ (t ++ g'' ++ z)) ++ rest) [] := by
    refine reads_blanks1 hg.ne_nil hg.isBlank ?_
    rw [List.append_assoc]
    exact hword.beginsSolid _
  have hwhole : Reads zonePattern none (g ++ (w ++ (g' ++ (t ++ g'' ++ z)))) rest
      ([] ++ [(1, w)] ++ []) := .assoc (.assoc (.assoc (hgap.seq (hwith _))))
  obtain ⟨m, hm, -, his⟩ := hwhole.exists_match?
  exact ⟨m, hm, his.group 1, his.rest⟩

theorem IsZone.exists_match (h : IsZone y) : ∃ word, ∀ rest, Behind ['['] rest →
    ∃ m, zonePattern.match? (y ++ rest) = some m ∧ m.group 1 = word ∧ m.rest = rest := by
  obtain @⟨g, w, g', t, g'', z, hg, hw, hg', ht, hg'', hz⟩ := h
  exact ⟨w, fun rest hrest => exists_zone_match hg hw hg' ht hg'' hz hrest⟩

/-! ## Dimensions -/

def dimensionText (digits : Chars) : Chars :=
  '[' :: digits ++ [']']

inductive IsDimensions : Chars → Prop where
  | nil : IsDimensions []
  | brackets {g first : Chars} {others : List Chars} (hg : ∀ c ∈ g, isBlank c = true)
      (h : ∀ d ∈ first :: others, ∀ c ∈ d, isDecimal c = true) :
      IsDimensions (g ++ (dimensionText first ++ others.flatMap dimensionText))

def dimensionPattern : Pattern :=
  char '[' ++ blanks ++ star digit ++ blanks ++ char ']'

theorem reads_dimension (hx : ∀ c ∈ x, isDecimal c = true) :
    Reads dimensionPattern before (dimensionText x) rest [] := by
  have hsolid (c : Char) (hc : isDecimal c = true) : isBlank c = false := by
    rw [Bool.eq_false_iff]
    intro hblank
    rw [isDecimal_of_isBlank hblank] at hc
    cases hc
  have hfirst : ∀ c ∈ (x ++ ([']'] ++ rest)).head?, isBlank c = false := by
    cases x with
    | nil =>
      rintro c ⟨⟩
      decide
    | cons c x =>
      rintro c ⟨⟩
      exact hsolid c (hx c List.mem_cons_self)
  have hnone : ∀ c ∈ ([] : Chars), isBlank c = true := List.forall_mem_nil _
  have hopen : Reads (char '[') before ['['] ([] ++ (x ++ ([] ++ ([']'] ++ rest)))) [] := .one rfl
  have hlead : Reads (char '[' ++ blanks) before (['['] ++ []) (x ++ ([] ++ ([']'] ++ rest))) [] :=
    hopen.seq (reads_blanks hnone hfirst)
  have hdigits : Reads (star digit) ((['['] ++ ([] : Chars)).getLast?.or before) x
      ([] ++ ([']'] ++ rest)) [] := .star_one hx (by rintro c ⟨⟩; decide)
  have hgap (before : Option Char) : Reads blanks before [] ([']'] ++ rest) [] :=
    reads_blanks hnone (by rintro c ⟨⟩; decide)
  have hwhole := ((hlead.seq hdigits).seq (hgap _)).seq (.one (f := (· == ']')) (c := ']') rfl)
  have htext : ['['] ++ [] ++ x ++ [] ++ [']'] = dimensionText x := by simp [dimensionText]
  rwa [htext] at hwhole

theorem refuses_dimension (h : rest.head? ≠ some '[') : Refuses dimensionPattern before rest := by
  refine .seq_left (.seq_left (.seq_left (.seq_left (.one fun c hc => ?_))))
  rw [beq_eq_false_iff_ne]
  rintro rfl
  exact h hc

theorem Behind.ne_open (h : Behind [] rest) : rest.head? ≠ some '[' := by
  intro hc
  rcases h.head _ hc with hblank | hmark
  · exact absurd hblank (by decide)
  · cases hmark

theorem arrayPattern_behind (hrest : Behind [] rest) : arrayPattern.match? rest = none := by
  refine Refuses.match? (refuses_blanks_seq (fun before c y hc => ?_) fun before => ?_)
  · refine .seq_left (refuses_dimension ?_)
    rintro ⟨⟩
    exact absurd hc (by decide)
  · refine .seq_left (refuses_dimension fun hc => ?_)
    rcases hrest.solid _ hc with hmark | hinitial
    · cases hmark
    · exact absurd hinitial (by decide)

/-- The dimensions behind a type make it an array. -/
theorem IsDimensions.exists_isArray (h : IsDimensions ds) : ∃ isArray, ∀ rest, Behind [] rest →
    ∀ name arguments, (match arrayPattern.match? (ds ++ rest) with
      | some m => (⟨name, arguments, true, trim m.rest⟩ : WrittenType)
      | none => ⟨name, arguments, false, trim (ds ++ rest)⟩) =
        ⟨name, arguments, isArray, trim rest⟩ := by
  cases h with
  | nil =>
    refine ⟨false, fun rest hrest name arguments => ?_⟩
    rw [List.nil_append, arrayPattern_behind hrest]
  | @brackets g first others hg hdigits =>
    refine ⟨true, fun rest hrest name arguments => ?_⟩
    obtain ⟨hfirst, hothers⟩ := List.forall_mem_cons.1 hdigits
    have hmore (before : Option Char) : Reads (star dimensionPattern) before
        (others.flatMap dimensionText) rest [] :=
      .star_flatMap (fun d hd _ _ => reads_dimension (hothers d hd)) (by simp [dimensionText])
        fun _ => refuses_dimension hrest.ne_open
    have hgap : Reads blanks none g
        (dimensionText first ++ others.flatMap dimensionText ++ rest) [] :=
      reads_blanks hg (by rintro c ⟨⟩; decide)
    have hwhole : Reads arrayPattern none (g ++ (dimensionText first ++
        others.flatMap dimensionText)) rest [] :=
      hgap.seq ((reads_dimension hfirst).seq (hmore _))
    obtain ⟨m, hm, -, his⟩ := hwhole.exists_match?
    rw [hm]
    dsimp only
    rw [his.rest]

theorem IsDimensions.behind (h : IsDimensions ds) (hrest : Behind [] rest) :
    Behind ['['] (ds ++ rest) := by
  cases h with
  | nil => exact hrest.mono (List.nil_subset _)
  | brackets hg =>
    rw [List.append_assoc]
    exact .of_mark hg (List.mem_singleton.2 rfl) (by decide)

/-! ## Types -/

/-- A type as it may be written. -/
inductive IsTypeText : Chars → Prop where
  | plain {n x ds : Chars} (hn : IsTypeWords n) (hx : IsArguments x) (hds : IsDimensions ds) :
      IsTypeText (n ++ (x ++ ds))
  | zoned {n g x y ds : Chars} (hn : IsWordText n)
      (htime : lower (ofChars n) ∈ ["timestamp", "time"]) (hg : ∀ c ∈ g, isBlank c = true)
      (hx : Balanced x) (hy : IsZone y) (hds : IsDimensions ds) :
      IsTypeText (n ++ (g ++ ('(' :: x ++ [')']) ++ (y ++ ds)))

/-- A type is read as the same type whatever clauses follow. -/
theorem IsTypeText.exists_written (h : IsTypeText w) : ∃ name arguments isArray, ∀ rest,
    Behind [] rest → WrittenType.ofChars (w ++ rest) = ⟨name, arguments, isArray, trim rest⟩ := by
  cases h with
  | @plain n x ds hn hx hds =>
    obtain ⟨name, hname⟩ := hn.exists_name
    obtain ⟨arguments, harguments⟩ := hx.exists_arguments
    obtain ⟨isArray, harray⟩ := hds.exists_isArray
    refine ⟨name, arguments, isArray, fun rest hrest => ?_⟩
    have hbehind := hds.behind hrest
    rw [List.append_assoc, List.append_assoc, WrittenType.ofChars,
      hname _ (hx.behind hbehind)]
    dsimp only
    rw [harguments _ hbehind]
    dsimp only
    rw [zonePattern_behind hbehind]
    exact harray rest hrest name arguments
  | @zoned n g x y ds hn htime hg hx hy hds =>
    obtain ⟨isArray, harray⟩ := hds.exists_isArray
    obtain ⟨zone, hzone⟩ := hy.exists_match
    refine ⟨lower (unquote n) ++ " " ++ lower (ofChars zone) ++ " time zone", some x, isArray,
      fun rest hrest => ?_⟩
    have hgroup : Behind nameMarks (g ++ ('(' :: x ++ [')']) ++ (y ++ ds ++ rest)) := by
      rw [List.append_assoc]
      exact .of_mark hg (by decide) (by decide)
    obtain ⟨m, hm, hword, hm'⟩ := hzone _ (hds.behind hrest)
    have hname : (lower (unquote n) == "timestamp" || lower (unquote n) == "time") = true := by
      rw [hn.unquote]
      simpa [ofChars] using htime
    rw [List.append_assoc, List.append_assoc, WrittenType.ofChars,
      typeName?_name (.word hn) hgroup]
    dsimp only
    rw [typeArguments_gap hg hx]
    dsimp only
    rw [List.append_assoc, hm]
    dsimp only
    rw [hname, if_pos rfl, hword, hm']
    exact harray rest hrest _ _

/-! ## Where types begin and end -/

theorem IsTypeWords.spec (h : IsTypeWords n) :
    n ≠ [] ∧ BeginsSolid n ∧ EndsSolid n := by
  cases h with
  | name hn => exact ⟨hn.ne_nil, hn.beginsSolid, endsSolid_name hn⟩
  | @several name z hname hz =>
    have hends : ∀ name ∈ severalWords, name.toList.head?.any isAsciiLetter = true ∧
        name.toList.getLast?.any isAsciiLetter = true := by decide
    have hfirst := (hends name hname).1
    have hlast := (hends name hname).2
    rw [← hz, List.head?_map, Option.any_map] at hfirst
    rw [← hz, List.getLast?_map, Option.any_map] at hlast
    obtain ⟨a, ha, hletter⟩ := (Option.any_eq_true _ _).1 hfirst
    obtain ⟨b, hb, hletter'⟩ := (Option.any_eq_true _ _).1 hlast
    have hne : n ≠ [] := by
      rintro rfl
      cases ha
    refine ⟨hne, fun c hc => ?_, endsSolid_of_last hne fun c hc => ?_⟩
    · rw [ha] at hc
      cases hc
      exact not_isBlank_of_toLower hletter
    · rw [hb] at hc
      cases hc
      exact not_isBlank_of_toLower hletter'

theorem IsDimensions.endsSolid (h : IsDimensions ds) (hx : EndsSolid x) : EndsSolid (x ++ ds) := by
  cases h with
  | nil => rwa [List.append_nil]
  | @brackets g first others =>
    have hmore (ds : List Chars) (l : Chars) (hl : EndsSolid l) :
        EndsSolid (l ++ ds.flatMap dimensionText) := by
      induction ds generalizing l with
      | nil => rwa [List.flatMap_nil, List.append_nil]
      | cons d ds ih =>
        rw [List.flatMap_cons, ← List.append_assoc]
        exact ih _ ((endsSolid_concat ('[' :: d) (by decide)).behind l)
    exact ((hmore others _ (endsSolid_concat ('[' :: first) (by decide))).behind g).behind x

theorem IsTypeText.beginsSolid (h : IsTypeText w) (rest : Chars) : BeginsSolid (w ++ rest) := by
  cases h with
  | plain hn =>
    rw [List.append_assoc]
    exact hn.spec.2.1.append hn.spec.1 _
  | zoned hn =>
    rw [List.append_assoc]
    exact hn.beginsSolid _

theorem IsTypeText.endsSolid (h : IsTypeText w) : EndsSolid w := by
  cases h with
  | plain hn hx hds =>
    rw [← List.append_assoc]
    refine hds.endsSolid ?_
    cases hx with
    | nil =>
      rw [List.append_nil]
      exact hn.spec.2.2
    | group => exact ((endsSolid_concat _ (by decide)).behind _).behind _
  | zoned hn _ _ _ hy hds =>
    obtain @⟨g, w, g', t, g'', z, -, -, -, -, -, hz⟩ := hy
    have hzone := endsSolid_word (hz.isWordText (by decide) (by decide))
    exact ((hds.endsSolid (((((hzone.behind _).behind _).behind _).behind _))).behind _).behind _

end SqlFerry.Ddl
