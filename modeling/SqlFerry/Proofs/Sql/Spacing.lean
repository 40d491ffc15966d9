import SqlFerry.Proofs.Pattern.Spacing
import SqlFerry.Proofs.Text.Case
import SqlFerry.Sql.Name

/-!
# Names with other blanks

Where names stand in no quotes, blanks may stand around their dots and within brackets. With other
blanks the same names are matched, and their last parts differ in no more than blanks.
-/

namespace SqlFerry.Sql

open Text Pattern

variable {u v x y : Chars} {c : Char}

/-! ## Matching names -/

theorem ne_of_isBlank {a : Char} (ha : isBlank a = false) (hc : isBlank c = true) : c ≠ a := by
  rintro rfl
  rw [ha] at hc
  cases hc

theorem beq_of_isBlank {a : Char} (ha : isBlank a = false) (c : Char) (hc : isBlank c = true) :
    (c == a) = false :=
  beq_eq_false_iff_ne.2 (ne_of_isBlank ha hc)

theorem isBare_of_isBlank (hc : isBlank c = true) : isBare c = false := by
  rw [isBare, isWord_of_isBlank hc, Bool.false_or, beq_of_isBlank rfl c hc]

theorem startsSolid_quotedIdent : StartsSolid quotedIdent := by
  refine .choice fun p hp => ?_
  simp only [List.mem_cons, List.not_mem_nil, or_false] at hp
  rcases hp with rfl | rfl | rfl
  · exact (StartsSolid.one (beq_of_isBlank rfl)).seq.seq
  · exact (StartsSolid.one (beq_of_isBlank rfl)).seq.seq
  · exact (StartsSolid.one (beq_of_isBlank rfl)).seq.seq

theorem ignoresSpacing_quotedIdent : IgnoresSpacing quotedIdent := by
  refine .choice fun p hp => ?_
  simp only [List.mem_cons, List.not_mem_nil, or_false] at hp
  rcases hp with rfl | rfl | rfl
  · exact .assoc (.quote_seq rfl)
  · exact .assoc (.quote_seq rfl)
  · have hbracket : ∀ c, isBlank c = true → (!("]".toList).contains c) = true := by
      intro c hc
      simp [ne_of_isBlank (a := ']') rfl hc]
    exact .assoc (.seq (.one (beq_of_isBlank rfl))
      (.many_seq hbracket (.one (beq_of_isBlank rfl)) (.one (beq_of_isBlank rfl))))

theorem startsSolid_ident : StartsSolid ident :=
  .alt startsSolid_quotedIdent (StartsSolid.one fun _ => isBare_of_isBlank).seq

theorem ignoresSpacing_ident : IgnoresSpacing ident :=
  .alt ignoresSpacing_quotedIdent (.seq (.one fun _ => isBare_of_isBlank)
    (.star (.one fun _ => isBare_of_isBlank)))

theorem ignoresSpacing_qname : IgnoresSpacing qname := by
  have hdot : ∀ c, isBlank c = true → (c == '.') = false := beq_of_isBlank rfl
  have hmore : IgnoresSpacing (blanks ++ (char '.' ++ (blanks ++ ident))) :=
    .blanks_seq (.seq (.one hdot) (.blanks_seq ignoresSpacing_ident startsSolid_ident))
      (StartsSolid.one hdot).seq
  exact .seq ignoresSpacing_ident (.star (.assoc (.assoc hmore)))

/-! ## Unquoting names -/

structure Parts.Alike (p p' : Parts) : Prop where
  until? : p.until? = p'.until?
  solid : ∀ q ∈ p.until?, isBlank q = false
  part : Reflowed p.part.reverse p'.part.reverse

theorem Parts.add_of_isBlank {p : Parts} (hp : ∀ q ∈ p.until?, isBlank q = false)
    (hc : isBlank c = true) : p.add c = { p with part := c :: p.part } := by
  obtain ⟨quote, part, done⟩ := p
  cases quote with
  | some q => simp [Parts.add, beq_of_isBlank (hp q rfl) c hc]
  | none =>
    simp [Parts.add, beq_of_isBlank (a := '"') rfl c hc,
      beq_of_isBlank (a := '\x60') rfl c hc, beq_of_isBlank (a := '[') rfl c hc,
      beq_of_isBlank (a := '.') rfl c hc]

theorem Parts.foldl_add_blanks {g : Chars} {p : Parts} (hp : ∀ q ∈ p.until?, isBlank q = false)
    (hg : ∀ c ∈ g, isBlank c = true) :
    g.foldl Parts.add p = { p with part := g.reverse ++ p.part } := by
  induction g generalizing p with
  | nil => rfl
  | cons c g ih =>
    obtain ⟨hc, hg⟩ := List.forall_mem_cons.1 hg
    rw [List.foldl_cons, Parts.add_of_isBlank hp hc]
    refine (ih (p := { p with part := c :: p.part }) hp hg).trans ?_
    simp

theorem Parts.Alike.add {p p' : Parts} (h : p.Alike p') (hc : isBlank c = false) :
    (p.add c).Alike (p'.add c) := by
  obtain ⟨quote, part, done⟩ := p
  obtain ⟨quote', part', done'⟩ := p'
  obtain ⟨rfl, hsolid, hpart⟩ := h
  have hcons : Reflowed (c :: part).reverse (c :: part').reverse := by
    rw [List.reverse_cons, List.reverse_cons]
    exact hpart.append (.refl [c])
  cases quote with
  | some q =>
    refine ⟨rfl, fun q' hq' => ?_, hcons⟩
    dsimp only [Parts.add] at hq'
    split at hq'
    · cases hq'
    · exact hsolid q' hq'
  | none =>
    unfold Parts.add
    dsimp only
    split
    · exact ⟨rfl, fun q hq => Option.mem_some_iff.1 hq ▸ hc, hcons⟩
    split
    · exact ⟨rfl, fun q hq => Option.mem_some_iff.1 hq ▸ rfl, hcons⟩
    split
    · exact ⟨rfl, hsolid, .nil⟩
    · exact ⟨rfl, hsolid, hcons⟩

theorem Parts.Alike.foldl {p p' : Parts} (hp : p.Alike p') (h : Reflowed x y) :
    (x.foldl Parts.add p).Alike (y.foldl Parts.add p') := by
  induction h generalizing p p' with
  | nil => exact hp
  | solid hc _ ih => exact ih (hp.add hc)
  | blanks hg hg' _ _ _ ih =>
    have hsolid' : ∀ q ∈ p'.until?, isBlank q = false := hp.until? ▸ hp.solid
    rw [List.foldl_append, List.foldl_append, foldl_add_blanks hp.solid hg.isBlank,
      foldl_add_blanks hsolid' hg'.isBlank]
    refine ih ⟨hp.until?, hp.solid, ?_⟩
    simpa using hp.part.append (Reflowed.gap hg hg' .nil)

theorem reflowed_lastPart (h : Reflowed x y) : Reflowed (lastPart x) (lastPart y) :=
  (Parts.Alike.foldl (⟨rfl, by simp, .nil⟩ : Parts.Alike {} {}) h).part

theorem mem_of_mem_part_foldl_add {p : Parts} (hc : c ∈ (x.foldl Parts.add p).part) :
    c ∈ x ∨ c ∈ p.part := by
  induction x generalizing p with
  | nil => exact .inr hc
  | cons c' x ih =>
    rcases ih hc with hx | hpart
    · exact .inl (List.mem_cons_of_mem _ hx)
    have hadd : c ∈ c' :: p.part := by
      unfold Parts.add at hpart
      split at hpart
      · exact hpart
      split at hpart
      · exact hpart
      split at hpart
      · exact hpart
      split at hpart
      · cases hpart
      · exact hpart
    rcases List.mem_cons.1 hadd with rfl | hpart
    · exact .inl List.mem_cons_self
    · exact .inr hpart

theorem mem_of_mem_lastPart (hc : c ∈ lastPart x) : c ∈ x :=
  (mem_of_mem_part_foldl_add (List.mem_reverse.1 hc)).resolve_right List.not_mem_nil

theorem mem_of_mem_trim (hc : c ∈ trim x) : c ∈ x := by
  obtain ⟨pre, post, hx, -, -⟩ := exists_trim x
  rw [hx]
  exact List.mem_append_left _ (List.mem_append_right _ hc)

/-- A name in brackets loses them. -/
theorem unquoteChars_of_brackets {m : Chars} (hx : trim (lastPart (trim x)) = '[' :: (m ++ [']'])) :
    unquoteChars x = m := by
  rw [unquoteChars]
  have hlength : ¬('[' :: (m ++ [']'])).length < 2 := by
    simp
  have hlast : ('[' :: (m ++ [']'])).getLast? = some ']' :=
    List.getLast?_append (l := ['[']  ++ m)
  rw [hx, hlast]
  simp only [List.head?_cons, if_neg hlength]
  simp [inner]

/-- A name in neither brackets nor quotes stays. -/
theorem unquoteChars_of_bare (hbare : ∀ m, trim (lastPart (trim x)) ≠ '[' :: (m ++ [']']))
    (hx : ∀ c ∈ x, isQuote c = false) : unquoteChars x = trim (lastPart (trim x)) := by
  have hunquoted : ∀ c ∈ trim (lastPart (trim x)), isQuote c = false := fun c hc =>
    hx c (mem_of_mem_trim (mem_of_mem_lastPart (mem_of_mem_trim hc)))
  rw [unquoteChars]
  generalize trim (lastPart (trim x)) = u at hbare hunquoted
  cases u with
  | nil => rfl
  | cons a u =>
    have ha : a ≠ '"' ∧ a ≠ '\x60' := by
      have hquote := hunquoted a List.mem_cons_self
      constructor <;> rintro rfl <;> cases hquote
    rcases List.eq_nil_or_concat u with rfl | ⟨m, z, rfl⟩
    · rfl
    · have hbrackets : ¬(a = '[' ∧ z = ']') := by
        rintro ⟨rfl, rfl⟩
        exact hbare m (by rw [List.concat_eq_append])
      simp [List.getLast?_cons, ha, hbrackets]

theorem exists_reflowed_brackets {m v : Chars} (h : Reflowed ('[' :: (m ++ [']'])) v) :
    ∃ m', v = '[' :: (m' ++ [']']) ∧ Reflowed m m' := by
  obtain ⟨w, rfl, hw⟩ := h.of_cons rfl
  have hreverse := hw.reverse
  rw [List.reverse_append] at hreverse
  obtain ⟨m', hm', h⟩ := hreverse.of_cons rfl
  refine ⟨m'.reverse, ?_, ?_⟩
  · rw [List.reverse_eq_iff.1 hm', List.reverse_cons]
  · simpa using h.reverse

theorem reflowed_unquoteChars (h : Reflowed x y) (hx : ∀ c ∈ x, isQuote c = false)
    (hy : ∀ c ∈ y, isQuote c = false) : Reflowed (unquoteChars x) (unquoteChars y) := by
  have hname := (reflowed_lastPart h.trim).trim
  by_cases hbrackets : ∃ m, trim (lastPart (trim x)) = '[' :: (m ++ [']'])
  · obtain ⟨m, hm⟩ := hbrackets
    rw [hm] at hname
    obtain ⟨m', hm', h⟩ := exists_reflowed_brackets hname
    rwa [unquoteChars_of_brackets hm, unquoteChars_of_brackets hm']
  · have hbare := not_exists.1 hbrackets
    have hbare' (m' : Chars) : trim (lastPart (trim y)) ≠ '[' :: (m' ++ [']']) := by
      intro hm'
      rw [hm'] at hname
      obtain ⟨m, hm, -⟩ := exists_reflowed_brackets hname.symm
      exact hbare m hm
    rwa [unquoteChars_of_bare hbare hx, unquoteChars_of_bare hbare' hy]

theorem lower_eq_of_reflowed {w : String} (hw : ∀ c ∈ w.toList, isBlank c = false)
    (h : Reflowed u v) (hu : lower (String.ofList u) = w) : lower (String.ofList v) = w := by
  have hsolid : ∀ c ∈ u, isBlank c = false := by
    intro c hc
    rw [Bool.eq_false_iff]
    intro hblank
    have hmem : c ∈ w.toList := by
      rw [← hu, toList_lower, String.toList_ofList]
      exact mem_lowerFrom_of_isBlank hblank hc
    rw [hw c hmem] at hblank
    cases hblank
  rwa [← h.eq_of_solid hsolid]

/-- A name without blanks is told in lower case whatever blanks there are. -/
theorem lower_unquote_eq_iff {w : String} (hw : ∀ c ∈ w.toList, isBlank c = false)
    (h : Reflowed x y) (hx : ∀ c ∈ x, isQuote c = false) (hy : ∀ c ∈ y, isQuote c = false) :
    lower (unquote x) = w ↔ lower (unquote y) = w := by
  have hname := reflowed_unquoteChars h hx hy
  exact ⟨lower_eq_of_reflowed hw hname, lower_eq_of_reflowed hw hname.symm⟩

end SqlFerry.Sql
