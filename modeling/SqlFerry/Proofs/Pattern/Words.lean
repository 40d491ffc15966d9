import SqlFerry.Proofs.Pattern.Reads
import SqlFerry.Proofs.Text.Blanks
import SqlFerry.Proofs.Text.Case

/-!
# Words in patterns

A word of a pattern is read where it stands in either case, and refused where another text stands.
A search passes over a text at no place of which a match begins.
-/

namespace SqlFerry.Text.Pattern

variable {a b p : Pattern} {before : Option Char} {x y taken pre rest cs : Chars} {c : Char}
  {gs : List (Nat × Chars)} {f : Char → Bool} {s : String} {n : Nat}

def opensWith : Chars → Chars → Bool
  | [], _ => true
  | _ :: _, [] => false
  | a :: w, c :: cs => sameLetter a c && opensWith w cs

/-! ## The only place reached -/

/-- After the character `before`, whatever `p` matches where `x` and then `rest` follow is `x`. -/
def Only (p : Pattern) (before : Option Char) (x rest : Chars) : Prop :=
  ∀ n captures, ∀ r ∈ p.ends ⟨⟨before, x ++ rest, n⟩, captures⟩,
    r.cursor = ⟨x.getLast?.or before, rest, n + x.length⟩

namespace Only

theorem one : Only (.one f) before [c] rest := by
  intro n captures r hr
  simp only [ends, List.singleton_append, List.mem_ite_nil_right, List.mem_singleton] at hr
  rw [hr.2]
  rfl

theorem empty : Only .empty before [] rest := by
  intro n captures r hr
  rw [ends, List.mem_singleton] at hr
  rw [hr]
  rfl

theorem seq (ha : Only a before x (y ++ rest)) (hb : Only b (x.getLast?.or before) y rest) :
    Only (a ++ b) before (x ++ y) rest := by
  intro n captures r hr
  rw [List.append_assoc] at hr
  obtain ⟨⟨cursor, captures'⟩, h₁, h₂⟩ := List.mem_flatMap.1 hr
  obtain rfl := ha n captures _ h₁
  rw [hb _ _ r h₂, List.getLast?_append, Option.or_assoc, List.length_append, Nat.add_assoc]

theorem capture (n : Nat) (ha : Only a before x rest) : Only (capture n a) before x rest := by
  intro offset captures r hr
  obtain ⟨r', hr', rfl⟩ := List.mem_map.1 hr
  exact ha offset captures r' hr'

theorem skip (h : Refuses a before rest) : Only (opt a) before [] rest := by
  intro n captures r hr
  rcases List.mem_append.1 hr with hr | hr
  · rw [List.nil_append, h n captures] at hr
    cases hr
  · exact empty n captures r hr

theorem star_nil (h : Refuses a before rest) : Only (star a) before [] rest := by
  intro n captures r hr
  have hnone : a.ends ⟨⟨before, rest, n⟩, captures⟩ = [] := h n captures
  rw [List.nil_append, star, ends_many, hnone] at hr
  simp only [List.flatMap_nil, List.nil_append, if_true, List.mem_singleton] at hr
  rw [hr]
  rfl

end Only

/-- Where what `a` matches is known, `b` may refuse what follows it. -/
theorem Refuses.after (ha : Only a before x rest) (hb : Refuses b (x.getLast?.or before) rest) :
    Refuses (a ++ b) before (x ++ rest) := by
  intro n captures
  refine .seq fun r hr => ?_
  obtain ⟨cursor, captures'⟩ := r
  obtain rfl := ha n captures _ hr
  exact hb _ _

/-! ## Words -/

theorem ends_ofList_cons (a : Pattern) (as : List Pattern) :
    (ofList (a :: as)).ends = (a ++ ofList as).ends := by
  cases as with
  | nil =>
    funext r
    change a.ends r = (a.ends r).flatMap fun r' => [r']
    rw [List.flatMap_singleton']
  | cons b as => rfl

theorem Reads.congr (h : a.ends = b.ends) (hb : Reads b before taken rest gs) :
    Reads a before taken rest gs := by
  intro n captures
  obtain ⟨found, ht, hgs⟩ := hb n captures
  exact ⟨found, by rwa [Takes, h], hgs⟩

theorem reads_word (hx : opensWith s.toList x = true) (hlength : x.length = s.length) :
    Reads (word s) before x rest [] := by
  rw [← String.length_toList] at hlength
  rw [word]
  generalize s.toList = w at hx hlength
  induction w generalizing before x with
  | nil =>
    rw [List.length_eq_zero_iff.1 hlength]
    exact .empty
  | cons a w ih =>
    cases x with
    | nil => cases hlength
    | cons c x =>
      simp only [opensWith, Bool.and_eq_true] at hx
      refine .congr (ends_ofList_cons _ _) ?_
      exact .seq (x := [c]) (.one hx.1) (ih hx.2 (by simpa using hlength))

theorem refuses_word (h : opensWith s.toList rest = false) : Refuses (word s) before rest := by
  rw [word]
  generalize s.toList = w at h
  induction w generalizing before rest with
  | nil => cases h
  | cons a w ih =>
    intro n captures
    rw [List.map_cons, Fails, ends_ofList_cons]
    cases rest with
    | nil => rfl
    | cons c rest =>
      refine Refuses.seq_one (f := sameLetter a) (fun hc => ih ?_) n captures
      simpa [opensWith, hc] using h

theorem only_word (hlength : x.length = s.length) : Only (word s) before x rest := by
  rw [← String.length_toList] at hlength
  rw [word]
  generalize s.toList = w at hlength
  induction w generalizing before x with
  | nil =>
    rw [List.length_eq_zero_iff.1 hlength]
    exact .empty
  | cons a w ih =>
    cases x with
    | nil => cases hlength
    | cons c x =>
      intro n captures
      rw [List.map_cons, ends_ofList_cons]
      exact Only.seq (x := [c]) .one (ih (by simpa using hlength)) n captures

theorem opensWith_of_append (h : opensWith (x ++ y) cs = true) :
    opensWith x cs = true := by
  induction x generalizing cs with
  | nil => rfl
  | cons a x ih =>
    cases cs with
    | nil => cases h
    | cons c cs =>
      simp only [List.cons_append, opensWith, Bool.and_eq_true] at h ⊢
      exact ⟨h.1, ih h.2⟩

/-- Where the text goes on with another character, a word that it opens with stands in it. -/
theorem exists_of_opensWith_append {w : Chars} (h : opensWith w (x ++ y) = true)
    (hy : ∀ c ∈ y.head?, ∀ a ∈ w, sameLetter a c = false) :
    ∃ d z, x = d ++ z ∧ d.length = w.length ∧ opensWith w d = true := by
  induction w generalizing x with
  | nil => exact ⟨[], x, rfl, rfl, rfl⟩
  | cons a w ih =>
    cases x with
    | nil =>
      cases y with
      | nil => cases h
      | cons c y =>
        rw [List.nil_append, opensWith, hy c rfl a List.mem_cons_self] at h
        cases h
    | cons c x =>
      rw [List.cons_append, opensWith, Bool.and_eq_true] at h
      obtain ⟨d, z, rfl, hlength, hd⟩ :=
        ih h.2 fun c hc a ha => hy c hc a (List.mem_cons_of_mem _ ha)
      refine ⟨c :: d, z, rfl, by rw [List.length_cons, List.length_cons, hlength], ?_⟩
      rw [opensWith, h.1, hd]
      rfl

theorem isBlank_of_sameLetter {a : Char} (ha : a.toNat < 128) (hsolid : isBlank a = false)
    (h : sameLetter a c = true) : isBlank c = false := by
  have hlower : isBlank a = false → isBlank a.toLower = false := of_ascii a ha (by decide)
  rw [Bool.eq_false_iff]
  intro hblank
  rw [sameLetter] at h
  split at h
  · next hc =>
    have hkeep : isBlank c = true → c.toLower = c := of_ascii c hc (by decide)
    rw [beq_iff_eq.1 h, hkeep hblank] at hlower
    exact absurd hblank (by simp [hlower hsolid])
  · next hc =>
    rw [isBlank, if_neg hc] at hblank
    simp only [Bool.or_eq_true, Bool.and_eq_true, beq_iff_eq, decide_eq_true_eq] at hblank
    split at h <;> simp only [Bool.or_eq_true, beq_iff_eq, Bool.false_eq_true] at h <;> omega

theorem isBlank_of_isAsciiLetter (hc : isAsciiLetter c = true) : isBlank c = false :=
  not_isBlank_of_isWord <| by
    rw [isWord, isLetterOrNumber, if_pos (toNat_of_isAsciiLetter hc), hc]
    rfl

theorem isWord_of_sameLetter {a : Char} (ha : isAsciiLetter a = true)
    (h : sameLetter a c = true) : isWord c = true := by
  by_cases hc : c.toNat < 128
  · have hlower : isAsciiLetter a = true → isAsciiLetter a.toLower = true :=
      of_ascii a (toNat_of_isAsciiLetter ha) (by decide)
    have hupper : isAsciiLetter c.toLower = true → isAsciiLetter c = true :=
      of_ascii c hc (by decide)
    rw [sameLetter, if_pos hc, beq_iff_eq] at h
    rw [isWord, isLetterOrNumber, if_pos hc, hupper (h ▸ hlower ha)]
    rfl
  · have hspelled : ∀ n ∈ [0x130, 0x131, 0x17F, 0x212A], c.toNat = n → isWord c = true := by
      intro n hn hcn
      have hchars : [0x130, 0x131, 0x17F, 0x212A].all (fun n => isWord (Char.ofNat n)) = true := by
        decide +kernel
      rw [← Char.ofNat_toNat c, hcn]
      exact List.all_eq_true.1 hchars n hn
    rw [sameLetter, if_neg hc] at h
    split at h <;> simp only [Bool.or_eq_true, beq_iff_eq, Bool.false_eq_true] at h
    · rcases h with h | h
      · exact hspelled _ (by simp) h
      · exact hspelled _ (by simp) h
    · exact hspelled _ (by simp) h
    · exact hspelled _ (by simp) h

/-- No word begins with a blank. -/
theorem refuses_word_blank (hs : s.toList.head?.any isAsciiLetter = true) (hc : isBlank c = true) :
    Refuses (word s) before (c :: y) := by
  refine refuses_word ?_
  cases hchars : s.toList with
  | nil =>
    rw [hchars] at hs
    cases hs
  | cons a w =>
    rw [hchars] at hs
    rw [opensWith, Bool.and_eq_false_iff, Bool.eq_false_iff]
    refine .inl fun hsame => ?_
    rw [isBlank_of_sameLetter (toNat_of_isAsciiLetter hs) (isBlank_of_isAsciiLetter hs) hsame] at hc
    cases hc

/-! ## Blanks -/

theorem reads_plus_one (hne : x ≠ []) (hx : ∀ c ∈ x, f c = true)
    (hrest : ∀ c ∈ rest.head?, f c = false) : Reads (plus (.one f)) before x rest [] := by
  obtain ⟨c, x, rfl⟩ := List.exists_cons_of_ne_nil hne
  exact .seq (x := [c]) (.one (hx c List.mem_cons_self))
    (.star_one (fun c hc => hx c (List.mem_cons_of_mem _ hc)) hrest)

theorem reads_blanks (hx : ∀ c ∈ x, isBlank c = true)
    (hrest : ∀ c ∈ rest.head?, isBlank c = false) :
    Reads blanks before x rest [] :=
  .star_one hx hrest

theorem reads_blanks1 (hne : x ≠ []) (hx : ∀ c ∈ x, isBlank c = true)
    (hrest : ∀ c ∈ rest.head?, isBlank c = false) : Reads blanks1 before x rest [] :=
  reads_plus_one hne hx hrest

theorem reads_space (hrest : ∀ c ∈ rest.head?, isBlank c = false) :
    Reads blanks before [' '] rest [] :=
  reads_blanks isBlank_of_mem_space hrest

theorem reads_space1 (hrest : ∀ c ∈ rest.head?, isBlank c = false) :
    Reads blanks1 before [' '] rest [] :=
  reads_blanks1 (List.cons_ne_nil _ _) isBlank_of_mem_space hrest

theorem refuses_blanks1 (h : ∀ c ∈ rest.head?, isBlank c = false) : Refuses blanks1 before rest :=
  .seq_left (.one h)

theorem only_blanks1 (h : ∀ c ∈ rest.head?, isBlank c = false) : Only blanks1 before [c] rest :=
  .seq (x := [c]) .one (.star_nil (.one h))

/-- Blanks before something are refused if it begins with no blank and is refused after all of
them. -/
theorem refuses_blanks_seq (hblank : ∀ before c y, isBlank c = true → Refuses b before (c :: y))
    (h : ∀ before, Refuses b before (trimLeft rest)) : Refuses (blanks ++ b) before rest := by
  refine .star_seq fun u v before huv hu => ?_
  by_cases hv : ∀ c ∈ v.head?, isBlank c = false
  · have hrest : trimLeft rest = v := by rw [huv, trimLeft_append hu, trimLeft_eq_self hv]
    exact hrest ▸ h before
  · cases v with
    | nil => simp at hv
    | cons c v => exact hblank before c v (by simpa using hv)

theorem refuses_blanks_one (h : ∀ c ∈ (trimLeft rest).head?, f c = false)
    (hf : ∀ c, isBlank c = true → f c = false) : Refuses (blanks ++ .one f) before rest :=
  refuses_blanks_seq (fun _ c _ hc => .one (by simpa using hf c hc)) fun _ => .one h

theorem refuses_blanks1_seq (hblank : ∀ before c y, isBlank c = true → Refuses b before (c :: y))
    (h : ∀ before, Refuses b before (trimLeft rest)) : Refuses (blanks1 ++ b) before rest := by
  refine .assoc ?_
  cases rest with
  | nil => exact .seq_left (.one (by simp))
  | cons c rest =>
    refine .seq_one fun hc => refuses_blanks_seq hblank fun before => ?_
    have hskip : trimLeft (c :: rest) = trimLeft rest :=
      trimLeft_append (x := [c]) (by simpa using hc)
    rw [← hskip]
    exact h before

/-! ## Behind a blank -/

theorem Refuses.alt_seq (ha : Refuses (a ++ p) before rest) (hb : Refuses (b ++ p) before rest) :
    Refuses (Pattern.alt a b ++ p) before rest := by
  intro n captures
  refine .seq fun r hr => ?_
  rcases List.mem_append.1 hr with hr | hr
  · exact List.flatMap_eq_nil_iff.1 (ha n captures) r hr
  · exact List.flatMap_eq_nil_iff.1 (hb n captures) r hr

/-- What the first of two alternatives leaves is refused, so that the second is read. -/
theorem Reads.capture_alt_seq {q : Pattern} (n : Nat)
    (ha : Refuses (Pattern.capture n a ++ q) before (x ++ y ++ rest))
    (hb : Reads b before x (y ++ rest) []) (hq : Reads q (x.getLast?.or before) y rest gs) :
    Reads (Pattern.capture n (Pattern.alt a b) ++ q) before (x ++ y) rest (gs ++ [(n, x)]) := by
  have hends : (Pattern.capture n (Pattern.alt a b) ++ q).ends =
      (Pattern.alt (Pattern.capture n a ++ q) (Pattern.capture n b ++ q)).ends := by
    funext r
    change (((a.ends r ++ b.ends r).map _).flatMap q.ends) =
      ((a.ends r).map _).flatMap q.ends ++ ((b.ends r).map _).flatMap q.ends
    rw [List.map_append, List.flatMap_append]
  exact .congr hends (.right ha ((hb.capture n).seq hq))

/-- A word is refused where it goes on. -/
theorem refuses_word_edge (hlength : x.length = s.length) (hx : x.getLast?.any isWord = true)
    (hrest : rest.head?.any isWord = true) : Refuses (word s ++ edge) before (x ++ rest) := by
  refine .after (only_word hlength) fun n captures => ?_
  obtain ⟨c, hc, hcword⟩ := (Option.any_eq_true _ _).1 hx
  obtain ⟨c', hc', hcword'⟩ := (Option.any_eq_true _ _).1 hrest
  simp [Fails, ends, Cursor.atEdge, hc, hc', hcword, hcword']

def EndsBlank (p : Pattern) : Prop :=
  ∀ r, ∀ r' ∈ p.ends r, ∃ c, r'.cursor.before = some c ∧ isBlank c = true

theorem endsBlank_blanks1 : EndsBlank blanks1 := by
  intro r r' hr'
  obtain ⟨⟨⟨before, rest, n⟩, captures⟩, hone, hstar⟩ := List.mem_flatMap.1 hr'
  obtain ⟨c, hc, hcblank⟩ : ∃ c, before = some c ∧ isBlank c = true := by
    rw [blank, ends] at hone
    split at hone
    · next c rest' hrest =>
      simp only [List.mem_ite_nil_right, List.mem_singleton] at hone
      exact ⟨c, by rw [Reached.mk.injEq, Cursor.mk.injEq] at hone; exact hone.2.1.1, hone.1⟩
    · cases hone
  obtain ⟨x, y, -, hx, rfl⟩ := of_mem_ends_star_one hstar
  cases hlast : x.getLast? with
  | none => exact ⟨c, hc, hcblank⟩
  | some c' => exact ⟨c', rfl, hx c' (List.mem_of_getLast? hlast)⟩

theorem EndsBlank.seq (h : EndsBlank b) : EndsBlank (a ++ b) := by
  intro r r' hr'
  obtain ⟨r'', -, hr'⟩ := List.mem_flatMap.1 hr'
  exact h r'' r' hr'

theorem EndsBlank.opt (ha : EndsBlank a) (hb : EndsBlank b) : EndsBlank (a ++ Pattern.opt b) := by
  intro r r' hr'
  obtain ⟨r'', hr'', hr'⟩ := List.mem_flatMap.1 hr'
  rcases List.mem_append.1 hr' with hr' | hr'
  · exact hb r'' r' hr'
  · obtain rfl := List.mem_singleton.1 hr'
    exact ha r _ hr''

theorem EndsBlank.refuses (ha : EndsBlank a)
    (h : ∀ x c y, rest = x ++ c :: y → isBlank c = true → Refuses b (some c) y) :
    Refuses (a ++ b) none rest := by
  intro n captures
  refine .seq fun r hr => ?_
  obtain ⟨c, hbefore, hc⟩ := ha _ r hr
  obtain ⟨taken, hrest, -, hlast⟩ := leads_of_mem_ends hr
  rw [hbefore, Option.or_none] at hlast
  obtain ⟨x, rfl⟩ := List.getLast?_eq_some_iff.1 hlast.symm
  have hrefuses := h x c r.cursor.rest (by simpa using hrest) hc
  obtain ⟨⟨before, rest', n'⟩, captures'⟩ := r
  cases hbefore
  exact hrefuses n' captures'

/-! ## Matches and searches -/

structure Match.Is (m : Match) (taken rest : Chars) (gs : List (Nat × Chars)) : Prop where
  text : m.text = taken
  rest : m.rest = rest
  stop : m.stop = m.start + taken.length
  group? : ∀ i, m.group? i = gs.lookup i

theorem Match.Is.group {m : Match} (h : m.Is taken rest gs) (i : Nat) :
    m.group i = (gs.lookup i).getD [] := by
  rw [Match.group, h.group?]

theorem Reads.exists_matchAt? (h : Reads p before taken rest gs) (n : Nat) :
    ∃ m, p.matchAt? ⟨before, taken ++ rest, n⟩ = some m ∧ m.start = n ∧ m.Is taken rest gs := by
  obtain ⟨m, hm, rfl, hgs⟩ := h.matchAt? n
  obtain ⟨hrest, hstart, hstop⟩ := spec_of_matchAt? hm
  exact ⟨m, hm, hstart, rfl, (List.append_cancel_left hrest).symm, by rw [hstop, hstart], hgs⟩

theorem Reads.exists_match? (h : Reads p none taken rest gs) :
    ∃ m, p.match? (taken ++ rest) = some m ∧ m.stop = taken.length ∧ m.Is taken rest gs := by
  obtain ⟨m, hm, hstart, his⟩ := h.exists_matchAt? 0
  exact ⟨m, hm, by rw [his.stop, hstart, Nat.zero_add], his⟩

theorem Refuses.match? (h : Refuses p none cs) : p.match? cs = none :=
  h.matchAt? 0

theorem searchIn_of_matchAt? {m : Match} (h : p.matchAt? ⟨before, cs, n⟩ = some m) :
    p.searchIn before n cs = some m := by
  cases cs with
  | nil => exact h
  | cons c cs => rw [searchIn, h]

/-- A search passes over a text at no place of which a match begins. -/
theorem searchIn_append (h : ∀ x y, pre = x ++ y → y ≠ [] →
      Refuses p (x.getLast?.or before) (y ++ rest)) :
    p.searchIn before n (pre ++ rest) =
      p.searchIn (pre.getLast?.or before) (n + pre.length) rest := by
  induction pre generalizing before n with
  | nil => rfl
  | cons c pre ih =>
    have hhere : Refuses p before (c :: pre ++ rest) := h [] (c :: pre) rfl (by simp)
    rw [List.cons_append] at hhere ⊢
    rw [searchIn, hhere.matchAt? n]
    dsimp only
    rw [ih fun x y hxy hy => ?_, List.length_cons, Nat.add_right_comm, Nat.add_assoc]
    · cases pre <;> rfl
    · have := h (c :: x) y (by rw [hxy, List.cons_append]) hy
      cases x <;> exact this

theorem search?_eq_none (h : ∀ x y, cs = x ++ y → Refuses p x.getLast? y) :
    p.search? cs = none := by
  have hskip : ∀ x y, cs = x ++ y → y ≠ [] → Refuses p (x.getLast?.or none) (y ++ []) := by
    intro x y hxy _
    rw [Option.or_none, List.append_nil]
    exact h x y hxy
  have hend := (h cs [] (by simp)).matchAt? cs.length
  have hsearch := searchIn_append (n := 0) hskip
  rw [List.append_nil, Option.or_none, Nat.zero_add] at hsearch
  exact hsearch.trans hend

end SqlFerry.Text.Pattern
