import SqlFerry.Proofs.Pattern.Ends

/-!
# Reading a token

A pattern reads a text if its preferred match there is exactly the text, wherever the text stands
and whatever was kept before; it refuses where nothing matches. Both are put together from the parts
of a pattern, so that they can be derived along the text.
-/

namespace SqlFerry.Text.Pattern

variable {a b : Pattern} {before : Option Char} {c : Char} {x y taken rest : Chars}
  {gs hs : List (Nat × Chars)} {f : Char → Bool}

/-- After the character `before` and where `rest` follows, `p` prefers to match `taken` and keeps
the texts `groups`, the latest first. -/
def Reads (p : Pattern) (before : Option Char) (taken rest : Chars)
    (groups : List (Nat × Chars)) : Prop :=
  ∀ n captures, ∃ found : List Capture,
    Takes p ⟨⟨before, taken ++ rest, n⟩, captures⟩
      ⟨⟨taken.getLast?.or before, rest, n + taken.length⟩, found ++ captures⟩ ∧
    found.map (fun c => (c.number, c.text)) = groups

/-- After the character `before` nothing that `rest` begins with matches. -/
def Refuses (p : Pattern) (before : Option Char) (rest : Chars) : Prop :=
  ∀ n captures, Fails p ⟨⟨before, rest, n⟩, captures⟩

/-- A repetition of a class ends after characters of the class. -/
theorem of_mem_ends_star_one {r : Reached} {n : Nat} {captures : List Capture}
    (h : r ∈ (star (one f)).ends ⟨⟨before, rest, n⟩, captures⟩) :
    ∃ x y, rest = x ++ y ∧ (∀ c ∈ x, f c = true) ∧
      r = ⟨⟨x.getLast?.or before, y, n + x.length⟩, captures⟩ := by
  induction rest generalizing before n with
  | nil =>
    simp only [star, ends_many, ends, List.flatMap_nil, List.nil_append, if_true,
      List.mem_singleton] at h
    exact ⟨[], [], rfl, by simp, h⟩
  | cons c rest ih =>
    rw [star, ends_many] at h
    simp only [if_true, List.mem_append, List.mem_singleton] at h
    rcases h with h | rfl
    · obtain ⟨r₁, h₁, h⟩ := List.mem_flatMap.1 h
      simp only [ends, List.mem_ite_nil_right, List.mem_singleton] at h₁
      obtain ⟨hc, rfl⟩ := h₁
      simp only [Nat.lt_add_one, if_true] at h
      obtain ⟨x, y, rfl, hx, rfl⟩ := ih h
      refine ⟨c :: x, y, rfl, ?_, ?_⟩
      · simpa [hc] using hx
      · rw [List.length_cons, Nat.add_assoc, Nat.add_comm 1]
        cases x <;> rfl
    · exact ⟨[], c :: rest, rfl, by simp, rfl⟩

namespace Reads

theorem empty : Reads empty before [] rest [] :=
  fun n captures => ⟨[], .empty ⟨⟨before, rest, n⟩, captures⟩, rfl⟩

theorem one (h : f c = true) : Reads (one f) before [c] rest [] :=
  fun _ _ => ⟨[], .one h, rfl⟩

theorem seq (ha : Reads a before x (y ++ rest) gs) (hb : Reads b (x.getLast?.or before) y rest hs) :
    Reads (a ++ b) before (x ++ y) rest (hs ++ gs) := by
  intro n captures
  obtain ⟨found, hx, rfl⟩ := ha n captures
  obtain ⟨found', hy, rfl⟩ := hb (n + x.length) (found ++ captures)
  refine ⟨found' ++ found, ?_, List.map_append⟩
  rw [List.append_assoc, List.getLast?_append, Option.or_assoc, List.length_append, ← Nat.add_assoc,
    List.append_assoc]
  exact hx.seq hy

theorem left (ha : Reads a before taken rest gs) : Reads (alt a b) before taken rest gs := by
  intro n captures
  obtain ⟨found, h, hgs⟩ := ha n captures
  exact ⟨found, h.left, hgs⟩

theorem right (ha : Refuses a before (taken ++ rest)) (hb : Reads b before taken rest gs) :
    Reads (alt a b) before taken rest gs := by
  intro n captures
  obtain ⟨found, h, hgs⟩ := hb n captures
  exact ⟨found, h.right (ha n captures), hgs⟩

theorem opt (ha : Reads a before taken rest gs) : Reads (opt a) before taken rest gs :=
  left ha

theorem skip (h : Refuses a before rest) : Reads (Pattern.opt a) before [] rest [] :=
  right h empty

/-- An optional part that is not there. -/
theorem seq_skip (ha : Reads a before x rest gs) (hb : Refuses b (x.getLast?.or before) rest) :
    Reads (a ++ Pattern.opt b) before x rest gs := by
  have h := seq (y := []) ha (skip hb)
  rwa [List.append_nil] at h

theorem capture (n : Nat) (h : Reads a before taken rest gs) :
    Reads (capture n a) before taken rest ((n, taken) :: gs) := by
  intro offset captures
  obtain ⟨found, ht, hgs⟩ := h offset captures
  refine ⟨⟨n, offset, taken⟩ :: found, ht.capture n, ?_⟩
  rw [List.map_cons, hgs]

theorem edge (h : Cursor.atEdge ⟨before, rest, 0⟩ = true) : Reads edge before [] rest [] :=
  fun _ _ => ⟨[], .edge h, rfl⟩

/-- The end of the text. -/
theorem finish : Reads finish before [] [] [] :=
  fun _ _ => ⟨[], rfl, rfl⟩

theorem star_nil (h : Refuses a before rest) : Reads (star a) before [] rest [] := by
  intro n captures
  have hr : a.ends ⟨⟨before, rest, n⟩, captures⟩ = [] := h n captures
  refine ⟨[], ?_, rfl⟩
  change ((many true a).ends _).head? = _
  rw [ends_many]
  simp [hr]

/-- A repetition that has nothing to take. -/
theorem seq_star_nil (ha : Reads a before x rest gs) (hb : Refuses b (x.getLast?.or before) rest) :
    Reads (a ++ star b) before x rest gs := by
  have h := seq (y := []) ha (star_nil hb)
  rwa [List.append_nil] at h

theorem star_cons (ha : Reads a before x (y ++ rest) gs) (hx : x ≠ [])
    (hy : Reads (star a) x.getLast? y rest hs) :
    Reads (star a) before (x ++ y) rest (hs ++ gs) := by
  intro n captures
  obtain ⟨found, hx', rfl⟩ := ha n captures
  obtain ⟨found', hy', rfl⟩ := hy (n + x.length) (found ++ captures)
  refine ⟨found' ++ found, ?_, List.map_append⟩
  have hlast : x.getLast?.or before = x.getLast? := by
    rw [List.getLast?_eq_some_getLast hx, Option.some_or]
  have hpos := List.length_pos_iff.2 hx
  rw [hlast] at hx'
  obtain ⟨l, hl⟩ := List.head?_eq_some_iff.1 hx'
  change ((many true a).ends _).head? = _ at hy' ⊢
  rw [List.append_assoc, ends_many, hl]
  simp only [if_true, List.flatMap_cons]
  rw [if_pos (by omega), List.append_assoc, List.append_assoc, List.head?_append, hy',
    List.length_append, ← Nat.add_assoc, List.getLast?_append, Option.or_assoc, hlast]
  rfl

/-- A repetition reads parts that its body reads one by one, up to where its body refuses. -/
theorem star_flatMap {β : Type} {part : β → Chars} {l : List β}
    (hpart : ∀ i ∈ l, ∀ before y, Reads a before (part i) (y ++ rest) [])
    (hne : ∀ i ∈ l, part i ≠ []) (hrest : ∀ before, Refuses a before rest) :
    Reads (star a) before (l.flatMap part) rest [] := by
  induction l generalizing before with
  | nil => exact star_nil (hrest before)
  | cons i l ih =>
    rw [List.flatMap_cons]
    exact star_cons (hpart i (by simp) before _) (hne i (by simp))
      (ih (fun j hj => hpart j (by simp [hj])) fun j hj => hne j (by simp [hj]))

theorem star_one (hx : ∀ c ∈ x, f c = true) (hrest : ∀ c ∈ rest.head?, f c = false) :
    Reads (star (.one f)) before x rest [] := by
  have h : Reads (star (.one f)) before (x.flatMap fun c => [c]) rest [] :=
    star_flatMap (fun c hc _ _ => one (hx c hc)) (by simp) fun _ _ _ => Fails.one hrest
  rwa [List.flatMap_singleton'] at h

theorem notAhead (h : Refuses a before rest) : Reads (notAhead a) before [] rest [] := by
  intro n captures
  have hnone : a.ends ⟨⟨before, rest, n⟩, captures⟩ = [] := h n captures
  exact ⟨[], by simp [Takes, ends, hnone], rfl⟩

theorem assoc {d : Pattern} (h : Reads (a ++ (b ++ d)) before taken rest gs) :
    Reads (a ++ b ++ d) before taken rest gs := by
  intro n captures
  obtain ⟨found, ht, hgs⟩ := h n captures
  refine ⟨found, ?_, hgs⟩
  change (((a.ends _).flatMap b.ends).flatMap d.ends).head? = _
  rw [List.flatMap_assoc]
  exact ht

/-- The shortest repetition goes on to the first place where what follows it matches. -/
theorem few_seq (hx : ∀ c ∈ x, f c = true)
    (hb : ∀ u v, x = u ++ v → v ≠ [] → Refuses b (u.getLast?.or before) (v ++ (y ++ rest)))
    (hy : Reads b (x.getLast?.or before) y rest gs) :
    Reads (few (.one f) ++ b) before (x ++ y) rest gs := by
  induction x generalizing before with
  | nil =>
    intro n captures
    obtain ⟨found, ht, hgs⟩ := hy n captures
    obtain ⟨l, hl⟩ := List.head?_eq_some_iff.1 ht
    have hhere : b.ends ⟨⟨before, y ++ rest, n⟩, captures⟩ = _ := hl
    refine ⟨found, ?_, hgs⟩
    rw [List.nil_append, Takes, few, ends_many_one_seq, hhere]
    rfl
  | cons c x ih =>
    obtain ⟨hc, hx⟩ := List.forall_mem_cons.1 hx
    intro n captures
    obtain ⟨found, ht, hgs⟩ := ih hx
      (fun u v huv hv =>
        getLast?_cons_or c u before ▸ hb (c :: u) v (by rw [huv, List.cons_append]) hv)
      (getLast?_cons_or c x before ▸ hy) (n + 1) captures
    have hhere : b.ends ⟨⟨before, c :: (x ++ y ++ rest), n⟩, captures⟩ = [] := by
      have h := hb [] (c :: x) rfl (List.cons_ne_nil _ _) n captures
      rw [List.append_assoc]
      exact h
    have hone : (Pattern.one f).ends ⟨⟨before, c :: (x ++ y ++ rest), n⟩, captures⟩ =
        [⟨⟨some c, x ++ y ++ rest, n + 1⟩, captures⟩] := by
      simp [ends, hc]
    refine ⟨found, ?_, hgs⟩
    rw [List.cons_append, List.cons_append, Takes, few, ends_many_one_seq, hhere, hone]
    simp only [List.flatMap_singleton, List.nil_append, List.append_nil, ite_self]
    rw [getLast?_cons_or, List.length_cons, ← Nat.add_assoc, Nat.add_right_comm]
    exact ht

theorem matchAt? (h : Reads a before taken rest gs) (n : Nat) :
    ∃ m, a.matchAt? ⟨before, taken ++ rest, n⟩ = some m ∧ m.text = taken ∧
      ∀ i, m.group? i = gs.lookup i := by
  obtain ⟨found, ht, rfl⟩ := h n []
  refine ⟨_, matchAt?_of_takes ht, rfl, fun i => ?_⟩
  simp only [Match.group?, List.append_nil]
  clear ht h
  induction found with
  | nil => rfl
  | cons c found ih =>
    rw [List.map_cons, List.lookup_cons, List.find?_cons, Bool.beq_comm]
    cases i == c.number with
    | true => rfl
    | false => exact ih

end Reads

namespace Refuses

theorem one (h : ∀ c ∈ rest.head?, f c = false) : Refuses (one f) before rest :=
  fun _ _ => Fails.one h

theorem alt (ha : Refuses a before rest) (hb : Refuses b before rest) :
    Refuses (alt a b) before rest :=
  fun n captures => (ha n captures).alt (hb n captures)

theorem seq_left (ha : Refuses a before rest) : Refuses (a ++ b) before rest :=
  fun n captures => (ha n captures).seq_left

theorem seq_one (h : f c = true → Refuses b (some c) rest) :
    Refuses (.one f ++ b) before (c :: rest) := by
  intro n captures
  refine .seq fun r' hr' => ?_
  simp only [ends, List.mem_ite_nil_right, List.mem_singleton] at hr'
  exact hr'.2 ▸ h hr'.1 (n + 1) captures

/-- After any characters of a class that a repetition may take, what follows it refuses. -/
theorem star_seq (h : ∀ x y before, rest = x ++ y → (∀ c ∈ x, f c = true) → Refuses b before y) :
    Refuses (star (.one f) ++ b) before rest := by
  intro n captures
  refine .seq fun r' hr' => ?_
  obtain ⟨x, y, hxy, hx, rfl⟩ := of_mem_ends_star_one hr'
  exact h x y _ hxy hx _ _

theorem edge_seq (h : Refuses b before rest) : Refuses (edge ++ b) before rest := by
  intro n captures
  refine .seq fun r' hr' => ?_
  simp only [ends, List.mem_ite_nil_right, List.mem_singleton] at hr'
  exact hr'.2 ▸ h n captures

theorem assoc {d : Pattern} (h : Refuses (a ++ (b ++ d)) before rest) :
    Refuses (a ++ b ++ d) before rest := by
  intro n captures
  have hr := h n captures
  change (((a.ends _).flatMap b.ends).flatMap d.ends) = _
  rw [List.flatMap_assoc]
  exact hr

theorem capture (n : Nat) (h : Refuses a before rest) : Refuses (capture n a) before rest :=
  fun offset captures => (h offset captures).capture n

theorem matchAt? (h : Refuses a before rest) (n : Nat) : a.matchAt? ⟨before, rest, n⟩ = none :=
  matchAt?_of_fails (h n [])

end Refuses

end SqlFerry.Text.Pattern
