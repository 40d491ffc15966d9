import SqlFerry.Proofs.Sql.Names
import SqlFerry.Proofs.Sql.Spacing
import SqlFerry.Restore.Screen

/-!
# Conditions that hold for every row

What the screen takes for such a condition is a constant or an equation of a term with itself. The
term is written twice, so that such a condition has an even number of quotes, and a name of a column
before a string is none.
-/

namespace SqlFerry

namespace Text.Pattern

open Reached

variable {a b : Pattern} {f g : Char → Bool} {r e : Reached} {s : String} {n : Nat} {t : Chars}

/-! ## What a pattern takes -/

def Within (f : Char → Bool) (p : Pattern) : Prop :=
  ∀ r, ∀ e ∈ p.ends r, ∃ t, (∀ c ∈ t, f c = true) ∧ r.Adds e t []

theorem exists_adds_of_mem_ends_one (h : e ∈ (Pattern.one f).ends r) :
    ∃ c, f c = true ∧ r.Adds e [c] [] := by
  obtain ⟨⟨before, rest, n⟩, captures⟩ := r
  cases rest with
  | nil => cases h
  | cons c rest =>
    simp only [ends, List.mem_ite_nil_right, List.mem_singleton] at h
    obtain ⟨hc, rfl⟩ := h
    exact ⟨c, hc, rfl, rfl, rfl, rfl⟩

namespace Within

theorem one (h : ∀ c, g c = true → f c = true) : Within f (.one g) := by
  intro r e he
  obtain ⟨c, hc, hadds⟩ := exists_adds_of_mem_ends_one he
  exact ⟨[c], List.forall_mem_singleton.2 (h c hc), hadds⟩

theorem star_one (h : ∀ c, g c = true → f c = true) : Within f (star (.one g)) := by
  intro r e he
  obtain ⟨⟨before, rest, n⟩, captures⟩ := r
  obtain ⟨t, y, rfl, ht, rfl⟩ := of_mem_ends_star_one he
  exact ⟨t, fun c hc => h c (ht c hc), rfl, rfl, rfl, rfl⟩

theorem seq (ha : Within f a) (hb : Within f b) : Within f (a ++ b) := by
  intro r e he
  obtain ⟨e', he', he⟩ := List.mem_flatMap.1 he
  obtain ⟨t, ht, hadds⟩ := ha r e' he'
  obtain ⟨u, hu, hadds'⟩ := hb e' e he
  exact ⟨t ++ u, List.forall_mem_append.2 ⟨ht, hu⟩, hadds.trans hadds'⟩

theorem alt (ha : Within f a) (hb : Within f b) : Within f (.alt a b) := by
  intro r e he
  rcases List.mem_append.1 he with he | he
  · exact ha r e he
  · exact hb r e he

theorem word (h : ∀ a ∈ s.toList, ∀ c, sameLetter a c = true → f c = true) :
    Within f (word s) := by
  rw [Pattern.word]
  generalize s.toList = w at h
  induction w with
  | nil => exact fun r e he => ⟨[], by simp, List.mem_singleton.1 he ▸ .refl r⟩
  | cons a w ih =>
    obtain ⟨ha, hw⟩ := List.forall_mem_cons.1 h
    intro r e he
    rw [List.map_cons, ends_ofList_cons] at he
    exact Within.seq (.one ha) (ih hw) r e he

end Within

theorem adds_of_mem_ends_capture (h : e ∈ (capture n a).ends r) :
    ∃ e' ∈ a.ends r, ∀ t, r.Adds e' t [] → r.Adds e t [⟨n, r.cursor.offset, t⟩] := by
  obtain ⟨e', he', rfl⟩ := List.mem_map.1 h
  refine ⟨e', he', fun t ht => ⟨ht.rest, ht.before, ht.offset, ?_⟩⟩
  rw [ht.captures, ht.offset, ht.rest]
  simp

/-- Whether two characters begin alike in lower case. -/
def SameInLower (a c : Char) : Prop :=
  (lowerChar a).head? = (lowerChar c).head?

theorem exists_of_afterAnyCase? {c c' : Cursor} (h : afterAnyCase? t c = some c') :
    ∃ u, List.Forall₂ SameInLower t u ∧ c.rest = u ++ c'.rest := by
  induction t generalizing c with
  | nil =>
    cases h
    exact ⟨[], .nil, rfl⟩
  | cons a t ih =>
    obtain ⟨before, rest, n⟩ := c
    cases rest with
    | nil => simp [afterAnyCase?] at h
    | cons x rest =>
      simp only [afterAnyCase?, Option.ite_none_right_eq_some, beq_iff_eq] at h
      obtain ⟨u, hu, hrest⟩ := ih h.2
      exact ⟨x :: u, .cons h.1 hu, by simpa using hrest⟩

theorem exists_of_mem_ends_again {k : Capture} (hk : r.captures.find? (·.number == n) = some k)
    (h : e ∈ (again n).ends r) :
    ∃ u, List.Forall₂ SameInLower k.text u ∧ r.cursor.rest = u ++ e.cursor.rest := by
  rw [ends, hk] at h
  obtain ⟨c', hc', rfl⟩ := List.mem_map.1 h
  exact exists_of_afterAnyCase? (Option.mem_toList.1 hc')

end Text.Pattern

namespace Restore

open Text Pattern Sql

variable {c q : Char} {x y z u v : Chars} {r e : Reached}

/-! ## What is taken for such a condition -/

def isOperand (c : Char) : Bool :=
  isWord c || ['.', '\'', '"', '\x60'].contains c

def isInert (c : Char) : Bool :=
  c != '\'' && c != '='

/-- A constant, or an equation of a term with itself. -/
inductive IsTrueTerm : Chars → Prop
  | constant {t : Chars} (h : ∀ c ∈ t, isInert c = true) : IsTrueTerm t
  | equation {t g g' u : Chars} (ht : t ≠ []) (hoperand : ∀ c ∈ t, isOperand c = true)
      (hg : ∀ c ∈ g, isBlank c = true) (hg' : ∀ c ∈ g', isBlank c = true)
      (h : List.Forall₂ SameInLower t u) : IsTrueTerm (t ++ g ++ '=' :: (g' ++ u))

def constant : Pattern :=
  choice [word "true", char '1', word "not" ++ blanks1 ++ word "false",
    char '1' ++ blanks ++ Pattern.text "<>" ++ blanks ++ char '0']

def equation : Pattern :=
  capture 1 operand ++ blanks ++ char '=' ++ blanks ++ again 1

theorem isInert_of_sameLetter {a : Char} (ha : isAsciiLetter a = true)
    (h : sameLetter a c = true) : isInert c = true := by
  have hmarks : isAsciiLetter a = true → sameLetter a '\'' = false ∧ sameLetter a '=' = false :=
    of_ascii a (toNat_of_isAsciiLetter ha) (by decide)
  rw [isInert, Bool.and_eq_true, bne_iff_ne, bne_iff_ne]
  constructor
  · rintro rfl
    rw [(hmarks ha).1] at h
    cases h
  · rintro rfl
    rw [(hmarks ha).2] at h
    cases h

theorem within_constant : Within isInert constant := by
  have hblank (c : Char) (hc : isBlank c = true) : isInert c = true := by
    rw [isInert, Bool.and_eq_true, bne_iff_ne, bne_iff_ne]
    exact ⟨by rintro rfl; exact absurd hc (by decide), by rintro rfl; exact absurd hc (by decide)⟩
  have hword {s : String} (hs : ∀ a ∈ s.toList, isAsciiLetter a = true) :
      Within isInert (word s) :=
    .word fun a ha c hc => isInert_of_sameLetter (hs a ha) hc
  have hchar {q : Char} (hq : isInert q = true) : Within isInert (char q) :=
    .one fun c hc => beq_iff_eq.1 hc ▸ hq
  have hblanks : Within isInert blanks := .star_one hblank
  exact .alt (hword (by decide)) (.alt (hchar (by decide)) (.alt
    (.seq (.seq (hword (by decide)) (.seq (.one hblank) hblanks)) (hword (by decide)))
    (.seq (.seq (.seq (.seq (hchar (by decide)) hblanks)
      (.seq (hchar (by decide)) (hchar (by decide)))) hblanks) (hchar (by decide)))))

theorem isTrueTerm_of_equation (h : e ∈ equation.ends r) :
    ∃ t, IsTrueTerm t ∧ r.cursor.rest = t ++ e.cursor.rest := by
  have hblanks : Within isBlank blanks := .star_one fun _ hc => hc
  obtain ⟨r₄, h, hagain⟩ := List.mem_flatMap.1 h
  obtain ⟨r₃, h, hgap'⟩ := List.mem_flatMap.1 h
  obtain ⟨r₂, h, hsign⟩ := List.mem_flatMap.1 h
  obtain ⟨r₁, hterm, hgap⟩ := List.mem_flatMap.1 h
  obtain ⟨e', he', hadds⟩ := adds_of_mem_ends_capture hterm
  obtain ⟨e₁, hfirst, hmore⟩ := List.mem_flatMap.1 he'
  obtain ⟨c, hc, hadds₁⟩ := exists_adds_of_mem_ends_one hfirst
  obtain ⟨t, ht, hadds₂⟩ := (Within.star_one fun _ hc => hc : Within isOperand _) _ _ hmore
  have hadds := hadds _ (hadds₁.trans hadds₂)
  obtain ⟨g, hg, hgap⟩ := hblanks _ _ hgap
  obtain ⟨c', hsign, hadds'⟩ := exists_adds_of_mem_ends_one hsign
  obtain rfl := beq_iff_eq.1 hsign
  obtain ⟨g', hg', hgap'⟩ := hblanks _ _ hgap'
  have hkept : r₄.captures.find? (·.number == 1) = some ⟨1, r.cursor.offset, [c] ++ t⟩ := by
    rw [hgap'.captures, hadds'.captures, hgap.captures, hadds.captures]
    rfl
  obtain ⟨u, hu, hrest⟩ := exists_of_mem_ends_again hkept hagain
  refine ⟨[c] ++ t ++ g ++ '=' :: (g' ++ u), .equation (List.cons_ne_nil _ _)
    (List.forall_mem_cons.2 ⟨hc, ht⟩) hg hg' hu, ?_⟩
  rw [hadds.rest, hgap.rest, hadds'.rest, hgap'.rest, hrest]
  simp

theorem mem_ends_term_iff (r e : Reached) : e ∈ (choice [word "true", char '1',
      word "not" ++ blanks1 ++ word "false",
      char '1' ++ blanks ++ Pattern.text "<>" ++ blanks ++ char '0', equation]).ends r ↔
    e ∈ constant.ends r ∨ e ∈ equation.ends r := by
  simp only [choice, constant, ends, List.mem_append, or_assoc]

/-- What is taken for a condition that holds for every row is a constant or such an equation, but
for blanks and parentheses around it. -/
theorem exists_of_tautology (h : (tautology.match? x).isSome = true) : ∃ u t v, x = u ++ t ++ v ∧
    (∀ c ∈ u, (c == '(' || isBlank c) = true) ∧ IsTrueTerm t ∧
      ∀ c ∈ v, (c == ')' || isBlank c) = true := by
  obtain ⟨e, he⟩ := List.exists_mem_of_ne_nil _ (isSome_match?_iff.1 h)
  obtain ⟨r₅, h, hfinish⟩ := List.mem_flatMap.1 he
  obtain ⟨r₄, h, hclose⟩ := List.mem_flatMap.1 h
  obtain ⟨r₃, h, hgap'⟩ := List.mem_flatMap.1 h
  obtain ⟨r₂, h, hterm⟩ := List.mem_flatMap.1 h
  obtain ⟨r₁, hopen, hgap⟩ := List.mem_flatMap.1 h
  have hblank {q : Char} : Within (fun c => c == q || isBlank c) blanks :=
    .star_one fun c hc => by rw [hc, Bool.or_true]
  have hparen {q : Char} : Within (fun c => c == q || isBlank c) (star (char q)) :=
    .star_one fun c hc => by rw [hc, Bool.true_or]
  obtain ⟨u₁, hu₁, hadds₁⟩ := hparen _ _ hopen
  obtain ⟨u₂, hu₂, hadds₂⟩ := hblank (q := '(') _ _ hgap
  obtain ⟨v₁, hv₁, hadds₄⟩ := hblank (q := ')') _ _ hgap'
  obtain ⟨v₂, hv₂, hadds₅⟩ := hparen _ _ hclose
  obtain ⟨t, ht, hrest⟩ : ∃ t, IsTrueTerm t ∧ r₂.cursor.rest = t ++ r₃.cursor.rest := by
    rcases (mem_ends_term_iff r₂ r₃).1 hterm with hconstant | hequation
    · obtain ⟨t, ht, hadds⟩ := within_constant _ _ hconstant
      exact ⟨t, .constant ht, hadds.rest⟩
    · exact isTrueTerm_of_equation hequation
  have hend : ∀ c ∈ r₅.cursor.rest, (c == ')' || isBlank c) = true := by
    simp only [ends, List.mem_ite_nil_right, Bool.or_eq_true, List.isEmpty_iff, beq_iff_eq]
      at hfinish
    rcases hfinish.1 with hnil | hfeed
    · simp [hnil]
    · rw [hfeed]
      decide
  refine ⟨u₁ ++ u₂, t, v₁ ++ v₂ ++ r₅.cursor.rest, ?_, List.forall_mem_append.2 ⟨hu₁, hu₂⟩, ht,
    List.forall_mem_append.2 ⟨List.forall_mem_append.2 ⟨hv₁, hv₂⟩, hend⟩⟩
  have hx := hadds₁.rest
  rw [hadds₂.rest, hrest, hadds₄.rest, hadds₅.rest] at hx
  simpa [Cursor.atStart] using hx

/-! ## An even number of quotes -/

theorem count_quote_eq (h : List.Forall₂ SameInLower x y) : x.count '\'' = y.count '\'' := by
  induction h with
  | nil => rfl
  | cons h _ ih =>
    have hquote := eq_iff_of_head?_lowerChar_eq (c := '\'') (by decide) (by decide) h
    rw [List.count_cons, List.count_cons, ih]
    simp only [beq_iff_eq, hquote]

theorem count_quote_of_isBlank (hx : ∀ c ∈ x, isBlank c = true) : x.count '\'' = 0 :=
  List.count_eq_zero.2 fun hquote => absurd (hx _ hquote) (by decide)

theorem two_dvd_count_of_isTrueTerm (h : IsTrueTerm x) : 2 ∣ x.count '\'' := by
  cases h with
  | constant h =>
    rw [List.count_eq_zero.2 fun hquote => absurd (h _ hquote) (by decide)]
    exact Nat.dvd_zero 2
  | @equation t g g' u _ _ hg hg' h =>
    refine ⟨u.count '\'', ?_⟩
    rw [List.count_append, List.count_append, List.count_cons, List.count_append,
      count_quote_of_isBlank hg, count_quote_of_isBlank hg', count_quote_eq h]
    simp only [beq_iff_eq, Char.reduceEq, if_false]
    omega

theorem two_dvd_count_of_tautology (h : (tautology.match? x).isSome = true) :
    2 ∣ x.count '\'' := by
  obtain ⟨u, t, v, rfl, hu, ht, hv⟩ := exists_of_tautology h
  have hu' : u.count '\'' = 0 :=
    List.count_eq_zero.2 fun hquote => absurd (hu _ hquote) (by decide)
  have hv' : v.count '\'' = 0 :=
    List.count_eq_zero.2 fun hquote => absurd (hv _ hquote) (by decide)
  rw [List.count_append, List.count_append, hu', hv', Nat.zero_add, Nat.add_zero]
  exact two_dvd_count_of_isTrueTerm ht

/-! ## A column before a string -/

theorem isOperand_of_isBlank (h : isBlank c = true) : isOperand c = false := by
  rw [isOperand, isWord_of_isBlank h, Bool.false_or, Bool.eq_false_iff]
  intro hmem
  have hmarks : ∀ q ∈ ['.', '\'', '"', '\x60'], isBlank q = false := by decide
  rw [hmarks c (List.contains_iff_mem.1 hmem)] at h
  cases h

theorem isOperand_of_isWord (h : isWord c = true) : isOperand c = true := by
  rw [isOperand, h, Bool.true_or]

/-- The characters of a class at the beginning of a text are told apart from what follows them. -/
theorem append_inj_of_class {f : Char → Bool} (h : x ++ y = u ++ v) (hx : ∀ c ∈ x, f c = true)
    (hu : ∀ c ∈ u, f c = true) (hy : ∀ c ∈ y.head?, f c = false)
    (hv : ∀ c ∈ v.head?, f c = false) : x = u ∧ y = v := by
  have htake {x y : Chars} (hx : ∀ c ∈ x, f c = true) (hy : ∀ c ∈ y.head?, f c = false) :
      (x ++ y).takeWhile f = x := by
    rw [List.takeWhile_append_of_pos hx]
    cases y with
    | nil => simp
    | cons c y => simp [hy c rfl]
  have hxu : x = u := by rw [← htake hx hy, h, htake hu hv]
  subst hxu
  exact ⟨rfl, List.append_cancel_left h⟩

/-- A name before a string is no condition that holds for every row. -/
theorem not_tautology_of_word {w : Chars} (hw : IsWordText w) :
    (tautology.match? (w ++ ([' ', '=', ' ', '\''] ++ z))).isSome = false := by
  rw [Bool.eq_false_iff]
  intro h
  obtain ⟨u, t, v, hx, hu, ht, hv⟩ := exists_of_tautology h
  obtain ⟨a, ha⟩ : ∃ a, w.head? = some a := ⟨_, List.head?_eq_some_head hw.ne_nil⟩
  have hmem : a ∈ w := List.mem_of_mem_head? ha
  have hhead : (w ++ ([' ', '=', ' ', '\''] ++ z)).head? = some a := by
    rw [List.head?_append, ha, Option.some_or]
  -- Blanks and parentheses may stand before a condition, and the word has none.
  obtain rfl : u = [] := by
    cases u with
    | nil => rfl
    | cons b u =>
      rw [hx] at hhead
      cases hhead
      have hopen := hu a List.mem_cons_self
      rw [hw.not_isBlank a hmem, Bool.or_false, beq_iff_eq] at hopen
      exact absurd hopen (hw.ne_of_mem hmem (by decide))
  cases ht with
  | constant ht =>
    have hquote : '\'' ∈ t ++ v := by
      rw [List.nil_append] at hx
      rw [← hx]
      simp
    rcases List.mem_append.1 hquote with hquote | hquote
    · exact absurd (ht _ hquote) (by decide)
    · exact absurd (hv _ hquote) (by decide)
  | @equation t g g' t' hne ht hg hg' hsame =>
    have hterm : w = t ∧ [' ', '=', ' ', '\''] ++ z = g ++ '=' :: (g' ++ t' ++ v) := by
      refine append_inj_of_class (f := isOperand) (by simpa using hx)
        (fun c hc => isOperand_of_isWord (hw.isWord c hc)) ht ?_ fun c hc => ?_
      · rintro c ⟨⟩
        rfl
      · cases g with
        | nil => cases hc; rfl
        | cons b g => cases hc; exact isOperand_of_isBlank (hg _ List.mem_cons_self)
    obtain ⟨rfl, hbehind⟩ := hterm
    -- The other side begins like the word, while a blank and then the quote stand there.
    obtain ⟨b, t', rfl, hab⟩ : ∃ b t₁, t' = b :: t₁ ∧ SameInLower a b := by
      cases hsame with
      | nil => exact absurd rfl hne
      | cons hab _ =>
        cases ha
        exact ⟨_, _, rfl, hab⟩
    have hgap : [' '] = g ∧ '=' :: ' ' :: '\'' :: z = '=' :: (g' ++ b :: t' ++ v) := by
      refine append_inj_of_class (f := isBlank) hbehind isBlank_of_mem_space hg ?_ ?_ <;>
        rintro c ⟨⟩ <;> rfl
    have hne {q : Char} (hq : isWord q = false) (hpos : 0 < q.toNat) (hsmall : q.toNat ≤ 64) :
        b ≠ q := fun hbq =>
      hw.ne_of_mem hmem hq ((eq_iff_of_head?_lowerChar_eq hpos hsmall hab).2 hbq)
    cases g' with
    | nil =>
      obtain ⟨hspace, -⟩ : ' ' = b ∧ '\'' :: z = t' ++ v := by simpa using hgap.2
      exact hne (by decide) (by decide) (by decide) hspace.symm
    | cons q g' =>
      obtain ⟨rfl, hquote⟩ : ' ' = q ∧ '\'' :: z = g' ++ b :: t' ++ v := by simpa using hgap.2
      cases g' with
      | nil =>
        obtain ⟨hquote, -⟩ : '\'' = b ∧ z = t' ++ v := by simpa using hquote
        exact hne (by decide) (by decide) (by decide) hquote.symm
      | cons q g' =>
        cases hquote
        have hblank : isBlank '\'' = true := hg' _ (by simp)
        exact absurd hblank (by decide)

theorem not_tautology_of_equals (z : Chars) : (tautology.match? ('=' :: z)).isSome = false := by
  rw [Bool.eq_false_iff]
  intro h
  obtain ⟨u, t, v, hx, hu, ht, hv⟩ := exists_of_tautology h
  have hfirst : '=' ∈ (u ++ t ++ v).head? := hx ▸ rfl
  cases u with
  | cons b u =>
    cases hfirst
    exact absurd (hu _ List.mem_cons_self) (by decide)
  | nil =>
    cases ht with
    | @constant t ht =>
      cases t with
      | cons b t =>
        cases hfirst
        exact absurd (ht _ List.mem_cons_self) (by decide)
      | nil => exact absurd (hv _ (List.mem_of_mem_head? hfirst)) (by decide)
    | @equation t g g' t' hne ht =>
      obtain ⟨b, t, rfl⟩ := List.exists_cons_of_ne_nil hne
      cases hfirst
      exact absurd (ht _ List.mem_cons_self) (by decide)

end Restore

end SqlFerry
