import SqlFerry.Proofs.Pattern.Words

/-!
# Lazy gaps

A lazy repetition goes on to the first place where what follows it matches. Where it may take any
character, that place is the one that a search finds.
-/

namespace SqlFerry.Text.Pattern

variable {a b p : Pattern} {before : Option Char} {x y z rest cs : Chars} {n : Nat}
  {gs : List (Nat × Chars)} {m : Match}

namespace Reads

/-- A lazy repetition takes nothing where what follows it is read. -/
theorem few_nil_seq (hb : Reads b before y rest gs) : Reads (few a ++ b) before y rest gs := by
  intro n captures
  obtain ⟨found, ht, hgs⟩ := hb n captures
  obtain ⟨l, hl⟩ := List.head?_eq_some_iff.1 ht
  refine ⟨found, ?_, hgs⟩
  change (((many false a).ends _).flatMap b.ends).head? = _
  rw [ends_many]
  simp [hl]

/-- A lazy repetition takes a round where what follows it is refused. -/
theorem few_cons_seq (hb : Refuses b before (x ++ (y ++ rest)))
    (ha : Reads a before x (y ++ rest) []) (hx : x ≠ [])
    (hy : Reads (few a ++ b) x.getLast? y rest gs) :
    Reads (few a ++ b) before (x ++ y) rest gs := by
  intro n captures
  obtain ⟨found, hx', hnil⟩ := ha n captures
  obtain rfl : found = [] := List.map_eq_nil_iff.1 hnil
  obtain ⟨found, hy', hgs⟩ := hy (n + x.length) captures
  refine ⟨found, ?_, hgs⟩
  have hlast : x.getLast?.or before = x.getLast? := by
    rw [List.getLast?_eq_some_getLast hx, Option.some_or]
  have hpos := List.length_pos_iff.2 hx
  have hnone : b.ends ⟨⟨before, x ++ (y ++ rest), n⟩, captures⟩ = [] := hb n captures
  rw [hlast] at hx'
  obtain ⟨l, hl⟩ := List.head?_eq_some_iff.1 hx'
  change (((many false a).ends _).flatMap b.ends).head? = _ at hy' ⊢
  rw [List.append_assoc, ends_many, hl]
  simp only [Bool.false_eq_true, if_false, List.flatMap_cons, hnone, List.nil_append]
  rw [if_pos (by omega), List.flatMap_append, List.head?_append, hy', List.length_append,
    ← Nat.add_assoc, List.getLast?_append, Option.or_assoc, hlast]
  rfl

end Reads

/-! ## Searches -/

def RefusesWithin (p : Pattern) (before : Option Char) (cs rest : Chars) : Prop :=
  ∀ x y, cs = x ++ y → y ≠ [] → Refuses p (x.getLast?.or before) (y ++ rest)

namespace RefusesWithin

variable {c : Char}

theorem nil : RefusesWithin p before [] rest := by
  intro x y h hy
  exact absurd (List.append_eq_nil_iff.1 h.symm).2 hy

theorem cons (h : Refuses p before (c :: cs ++ rest)) (hcs : RefusesWithin p (some c) cs rest) :
    RefusesWithin p before (c :: cs) rest := by
  intro x y hxy hy
  rcases List.cons_eq_append_iff.1 hxy with ⟨rfl, rfl⟩ | ⟨x, rfl, rfl⟩
  · exact h
  · rw [getLast?_cons_or]
    exact hcs x y rfl hy

theorem append (hx : RefusesWithin p before x (y ++ rest))
    (hy : RefusesWithin p (x.getLast?.or before) y rest) :
    RefusesWithin p before (x ++ y) rest := by
  induction x generalizing before with
  | nil => exact hy
  | cons c x ih =>
    have hhere := hx [] (c :: x) rfl (List.cons_ne_nil _ _)
    refine .cons (by simpa using hhere) (ih (fun u v huv hv => ?_) ?_)
    · rw [← getLast?_cons_or]
      exact hx (c :: u) v (by rw [huv, List.cons_append]) hv
    · rwa [← getLast?_cons_or]

/-- A search goes on behind the text. -/
theorem searchIn (h : RefusesWithin p before cs rest) (n : Nat) :
    p.searchIn before n (cs ++ rest) = p.searchIn (cs.getLast?.or before) (n + cs.length) rest :=
  searchIn_append h

end RefusesWithin

theorem exists_searchIn (h : p.matchAt? ⟨x.getLast?.or before, y, n + x.length⟩ = some m) :
    ∃ m', p.searchIn before n (x ++ y) = some m' := by
  induction x generalizing before n with
  | nil => exact ⟨m, searchIn_of_matchAt? h⟩
  | cons c x ih =>
    rw [List.cons_append, searchIn]
    cases p.matchAt? ⟨before, c :: (x ++ y), n⟩ with
    | some m' => exact ⟨m', rfl⟩
    | none =>
      refine ih ?_
      rw [← h, getLast?_cons_or, List.length_cons, Nat.add_assoc, Nat.add_comm 1]

/-- A lazy gap of any characters is a search. -/
theorem head?_ends_gap (p : Pattern) (before : Option Char) (n : Nat) (cs : Chars) :
    ((few any ++ p).ends ⟨⟨before, cs, n⟩, []⟩).head?.map (·.captures) =
      (p.searchIn before n cs).map (·.captures) := by
  have hhere (c : Cursor) :
      (p.matchAt? c).map (·.captures) = (p.ends ⟨c, []⟩).head?.map (·.captures) := by
    rw [matchAt?, run_some, Option.map_map]
    rfl
  induction cs generalizing before n with
  | nil =>
    rw [few, any, ends_many_one_seq, searchIn, hhere]
    simp [ends]
  | cons c cs ih =>
    have hone : any.ends ⟨⟨before, c :: cs, n⟩, []⟩ = [⟨⟨some c, cs, n + 1⟩, []⟩] := by
      simp [any, ends]
    rw [few, any, ends_many_one_seq, searchIn, ← any, ← few, hone]
    simp only [Bool.false_eq_true, if_false, List.flatMap_singleton, List.head?_append]
    have hthere := hhere ⟨before, c :: cs, n⟩
    cases hm : p.matchAt? ⟨before, c :: cs, n⟩ with
    | some m =>
      rw [hm] at hthere
      cases hends : (p.ends ⟨⟨before, c :: cs, n⟩, []⟩).head? with
      | none =>
        rw [hends] at hthere
        cases hthere
      | some r =>
        rw [hends] at hthere
        exact hthere.symm
    | none =>
      rw [hm, Option.map_none, eq_comm, Option.map_eq_none_iff] at hthere
      rw [hthere, Option.none_or]
      exact ih (some c) (n + 1)

/-- Behind what is read first, a lazy gap finds what a search finds. -/
theorem Reads.exists_match?_gap (ha : Reads a none x z [])
    (hm : p.searchIn x.getLast? x.length z = some m) :
    ∃ m', (a ++ (few any ++ p)).match? (x ++ z) = some m' ∧ m'.captures = m.captures := by
  obtain ⟨found, ht, hnil⟩ := ha 0 []
  obtain rfl : found = [] := List.map_eq_nil_iff.1 hnil
  have hgap := head?_ends_gap p x.getLast? x.length z
  rw [hm] at hgap
  obtain ⟨r, hr, hcaptures⟩ := Option.map_eq_some_iff.1 hgap
  rw [Option.or_none, Nat.zero_add] at ht
  have hall : Takes (a ++ (few any ++ p)) _ r := ht.seq hr
  rw [Pattern.match?, Pattern.matchAt?, run_some, Cursor.atStart, hall]
  exact ⟨_, rfl, hcaptures⟩

end SqlFerry.Text.Pattern
