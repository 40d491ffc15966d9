import SqlFerry.Proofs.Splitter.Statements

/-!
# Ends of statements

A statement is put together from texts that are spelled by pieces. It ends with one of them whose
last character is no blank.
-/

namespace SqlFerry.Splitter

open Text

variable {d : Dialect} {a b cs : Chars}

namespace Spelled

theorem joined {sep : String} {xs : List String} (hxs : ∀ x ∈ xs, Spelled d x.toList)
    (hsep : IsLink d sep.toList) : Spelled d (sep.intercalate xs).toList := by
  rw [String.toList_intercalate]
  refine intercalate (fun x hx => ?_) hsep
  obtain ⟨s, hs, rfl⟩ := List.mem_map.1 hx
  exact hxs s hs

theorem quoteAll (d : Dialect) (names : List String) : Spelled d (d.quoteAll names).toList := by
  refine joined (fun x hx => ?_) (by cases d <;> decide)
  obtain ⟨n, -, rfl⟩ := List.mem_map.1 hx
  exact name d n

end Spelled

/-! ## Words -/

structure IsWords (s : String) : Prop where
  chars : ∀ c ∈ s.toList, isWord c = true ∨ c = ' '
  last : s.toList.getLast? ≠ some ' '

instance (s : String) : Decidable (IsWords s) :=
  decidable_of_iff ((s.toList.all fun c => isWord c || c == ' ') ∧ s.toList.getLast? ≠ some ' ')
    ⟨fun h => ⟨by simpa using h.1, h.2⟩, fun h => ⟨by simpa using h.chars, h.last⟩⟩

/-! ## Ends of statements -/

structure Closes (d : Dialect) (cs : Chars) : Prop where
  spelled : Spelled d cs
  ends : EndsSolid cs

def IsTail (d : Dialect) (x : Chars) : Prop :=
  x = [] ∨ ∃ cs b, IsLink d cs ∧ Closes d b ∧ x = cs ++ b

theorem IsTail.ite {p : Prop} [Decidable p] {x y : String} (hx : p → IsTail d x.toList)
    (hy : ¬p → IsTail d y.toList) : IsTail d (if p then x else y).toList := by
  split
  · next hp => exact hx hp
  · next hp => exact hy hp

theorem IsTail.empty (d : Dialect) : IsTail d "".toList :=
  .inl rfl

theorem Closes.isTail {x y : String} (hx : IsLink d x.toList) (hy : Closes d y.toList) :
    IsTail d (x ++ y).toList :=
  .inr ⟨_, _, hx, hy, String.toList_append⟩

namespace Closes

theorem after (ha : Spelled d a) (hcs : IsFlat d cs) (hends : EndsSolid cs) : Closes d (a ++ cs) :=
  ⟨ha.after hcs, hends.behind a⟩

theorem link (ha : Spelled d a) (hcs : IsLink d cs) (hb : Closes d b) : Closes d (a ++ cs ++ b) :=
  ⟨ha.link hcs hb.spelled, hb.ends.behind _⟩

theorem before (hcs : IsLink d cs) (hb : Closes d b) : Closes d (cs ++ b) :=
  ⟨hb.spelled.before hcs, hb.ends.behind _⟩

theorem name (d : Dialect) (n : String) : Closes d (d.quote n).toList where
  spelled := .name d n
  ends := by
    rw [Dialect.toList_quote]
    exact EndsSolid.behind (show EndsSolid [d.nameQuote] by cases d <;> decide) _

theorem literal (d : Dialect) (v : String) : Closes d (d.textLiteral v).toList where
  spelled := .literal d v
  ends := by
    rw [Dialect.toList_textLiteral]
    exact EndsSolid.behind (show EndsSolid ['\''] by decide) _

theorem number (d : Dialect) (n : Int) : Closes d (toString n).toList where
  spelled := .number (Value.isNumberText_toString n)
  ends := by
    have hdigits : EndsSolid (Nat.toDigits 10 n.natAbs) := by
      obtain ⟨cs, c, hcs⟩ := (List.eq_nil_or_concat _).resolve_left
        (Nat.toDigits_ne_nil (n := n.natAbs) (b := 10))
      have hdigit : c.isDigit = true :=
        Value.isDigit_of_mem_toDigits (n := n.natAbs) (by rw [hcs]; simp)
      have hsolid := not_isBlank_of_isWord (Value.isWord_of_isDigit hdigit)
      rw [hcs, List.concat_eq_append]
      have hends : EndsSolid [c] := by simp [EndsSolid, hsolid]
      exact hends.behind cs
    rcases Int.lt_or_le n 0 with hneg | hpos
    · rw [Value.toList_toString_of_neg hneg]
      exact hdigits.behind ['-']
    · rwa [Value.toList_toString_of_nonneg hpos]

theorem tail (ha : Closes d a) (hb : IsTail d b) : Closes d (a ++ b) := by
  rcases hb with rfl | ⟨cs, b, hcs, hb, rfl⟩
  · rwa [List.append_nil]
  · rw [← List.append_assoc]
    exact link ha.spelled hcs hb

theorem words {s : String} (hs : IsWords s) (hne : s.isEmpty = false) : Closes d s.toList where
  spelled := .flat (.of_words hs.chars)
  ends := by
    have hne : s.toList ≠ [] := by
      intro hnil
      rw [String.toList_eq_nil_iff.1 hnil] at hne
      exact absurd hne (by decide)
    obtain ⟨cs, c, hcs⟩ := (List.eq_nil_or_concat s.toList).resolve_left hne
    have hlast : c ≠ ' ' := by
      rintro rfl
      exact hs.last (by rw [hcs]; simp)
    have hword : isWord c = true := (hs.chars c (by rw [hcs]; simp)).resolve_right hlast
    rw [hcs, List.concat_eq_append]
    have hends : EndsSolid [c] := by simp [EndsSolid, not_isBlank_of_isWord hword]
    exact hends.behind _

theorem joined {sep : String} {xs : List String} (hne : xs ≠ [])
    (hxs : ∀ x ∈ xs, Closes d x.toList) (hsep : IsLink d sep.toList) :
    Closes d (sep.intercalate xs).toList where
  spelled := .joined (fun x hx => (hxs x hx).spelled) hsep
  ends := by
    rw [String.toList_intercalate]
    induction xs with
    | nil => exact absurd rfl hne
    | cons x xs ih =>
      cases xs with
      | nil => simpa using (hxs x List.mem_cons_self).ends
      | cons y ys =>
        rw [List.map_cons, List.map_cons, List.intercalate_cons_cons, ← List.map_cons]
        exact (ih (by simp) fun z hz => hxs z (List.mem_cons_of_mem _ hz)).behind _

theorem formed {x : String} (h : Closes d cs) (ws : List String) (hws : ws ∈ openings)
    (hx : x.toList = spaced ws ++ cs) : Formed d x.toList := by
  rw [hx]
  exact .of_opening hws h.spelled h.ends

end Closes

end SqlFerry.Splitter
