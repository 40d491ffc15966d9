import Mathlib.Data.List.Basic
import SqlFerry.Text.Pattern

/-!
# The places a pattern reaches

Matching tries ways to match in order until what follows accepts one. Here these ways are the list
of the places they lead to, the preferred ones first: a match is the first of them, and a pattern
fails where the list is empty.
-/

namespace SqlFerry.Text

/-- What stands before a place comes from the text in between, if there is one. -/
theorem getLast?_cons_or (c : Char) (x : Chars) (before : Option Char) :
    (c :: x).getLast?.or before = x.getLast?.or (some c) := by
  cases x <;> rfl

def Cursor.Leads (c c' : Cursor) : Prop :=
  ∃ taken, c.rest = taken ++ c'.rest ∧ c'.offset = c.offset + taken.length ∧
    c'.before = taken.getLast?.or c.before

namespace Cursor.Leads

variable {c c' c'' : Cursor}

theorem refl (c : Cursor) : c.Leads c :=
  ⟨[], rfl, rfl, rfl⟩

theorem trans (h : c.Leads c') (h' : c'.Leads c'') : c.Leads c'' := by
  obtain ⟨taken, hrest, hoffset, hbefore⟩ := h
  obtain ⟨taken', hrest', hoffset', hbefore'⟩ := h'
  refine ⟨taken ++ taken', ?_, ?_, ?_⟩
  · rw [hrest, hrest', List.append_assoc]
  · rw [hoffset', hoffset, List.length_append, Nat.add_assoc]
  · rw [hbefore', hbefore, List.getLast?_append, Option.or_assoc]

theorem cons (before : Option Char) (x : Char) (rest : Chars) (n : Nat) :
    Leads ⟨before, x :: rest, n⟩ ⟨some x, rest, n + 1⟩ :=
  ⟨[x], rfl, rfl, rfl⟩

theorem offset_add_length (h : c.Leads c') :
    c'.offset + c'.rest.length = c.offset + c.rest.length := by
  obtain ⟨taken, hrest, hoffset, _⟩ := h
  rw [hrest, hoffset, List.length_append]
  omega

end Cursor.Leads

namespace Pattern

variable {a b p : Pattern} {r r' r'' : Reached}

def roundsEnds (body : Reached → List Reached) (greedy : Bool) : (fuel : Nat) → Reached →
    List Reached
  | 0, r => [r]
  | n + 1, r =>
    let more := (body r).flatMap fun r' =>
      if r.cursor.offset < r'.cursor.offset then roundsEnds body greedy n r' else []
    if greedy then more ++ [r] else r :: more

/-- The places that a pattern reaches, the preferred ones first. -/
def ends : Pattern → Reached → List Reached
  | empty, r => [r]
  | one p, r =>
    match r.cursor.rest with
    | c :: rest => if p c then [{ r with cursor := ⟨some c, rest, r.cursor.offset + 1⟩ }] else []
    | [] => []
  | seq a b, r => (a.ends r).flatMap b.ends
  | alt a b, r => a.ends r ++ b.ends r
  | many greedy a, r => roundsEnds a.ends greedy r.cursor.rest.length r
  | capture n a, r => (a.ends r).map fun r' =>
    { r' with captures := ⟨n, r.cursor.offset,
      r.cursor.rest.take (r'.cursor.offset - r.cursor.offset)⟩ :: r'.captures }
  | again n, r =>
    match r.captures.find? (·.number == n) with
    | some c => (afterAnyCase? c.text r.cursor).toList.map fun cursor => { r with cursor }
    | none => []
  | ahead a, r => (a.ends r).head?.toList.map fun r' => { r with captures := r'.captures }
  | notAhead a, r => if (a.ends r).isEmpty then [r] else []
  | edge, r => if r.cursor.atEdge then [r] else []
  | lineStart, r => if r.cursor.before.isNone || r.cursor.before == some '\n' then [r] else []
  | finish, r => if r.cursor.rest.isEmpty || r.cursor.rest == ['\n'] then [r] else []

section Run

variable {α : Type}

theorem findSome?_flatMap {β γ : Type} (l : List β) (f : β → List γ) (k : γ → Option α) :
    (l.flatMap f).findSome? k = l.findSome? fun x => (f x).findSome? k := by
  induction l with
  | nil => rfl
  | cons x l ih =>
    rw [List.flatMap_cons, List.findSome?_append, ih, List.findSome?_cons]
    cases (f x).findSome? k <;> rfl

theorem rounds_eq_findSome? {body : Reached → (Reached → Option α) → Option α}
    {found : Reached → List Reached} (h : ∀ r k, body r k = (found r).findSome? k) (greedy : Bool)
    (n : Nat) (r : Reached) (k : Reached → Option α) :
    rounds body greedy n r k = (roundsEnds found greedy n r).findSome? k := by
  induction n generalizing r with
  | zero => rw [rounds, roundsEnds, List.findSome?_singleton]
  | succ n ih =>
    have more : (body r fun r' =>
        if r.cursor.offset < r'.cursor.offset then rounds body greedy n r' k else none) =
        ((found r).flatMap fun r' => if r.cursor.offset < r'.cursor.offset then
          roundsEnds found greedy n r' else []).findSome? k := by
      rw [h, findSome?_flatMap]
      congr 1
      funext r'
      split
      · exact ih r'
      · rfl
    simp only [rounds, roundsEnds, more]
    cases greedy with
    | true =>
      simp only [if_true, List.findSome?_append, List.findSome?_singleton]
      generalize List.findSome? k _ = x
      cases x <;> rfl
    | false =>
      simp only [Bool.false_eq_true, if_false, List.findSome?_cons]
      cases k r <;> rfl

/-- Matching accepts the first of the places reached that what follows accepts. -/
theorem run_eq_findSome? (p : Pattern) (r : Reached) (k : Reached → Option α) :
    p.run r k = (p.ends r).findSome? k := by
  induction p generalizing α r with
  | empty => rw [run, ends, List.findSome?_singleton]
  | one p =>
    obtain ⟨⟨before, rest, offset⟩, captures⟩ := r
    cases rest with
    | nil => rfl
    | cons c rest =>
      simp only [run, ends]
      split
      · rw [List.findSome?_singleton]
      · rfl
  | seq a b iha ihb =>
    rw [run, ends, findSome?_flatMap, iha]
    congr 1
    funext r'
    exact ihb r' k
  | alt a b iha ihb =>
    rw [run, ends, List.findSome?_append, iha, ihb]
    generalize List.findSome? k (a.ends r) = x
    cases x <;> rfl
  | many greedy a ih => rw [run, ends, rounds_eq_findSome? fun r k => ih r k]
  | capture n a ih =>
    rw [run, ends, ih, List.findSome?_map]
    rfl
  | again n =>
    simp only [run, ends]
    cases r.captures.find? (·.number == n) with
    | none => rfl
    | some c =>
      dsimp only
      cases afterAnyCase? c.text r.cursor with
      | none => rfl
      | some cursor => simp
  | ahead a ih =>
    rw [run, ends, ih]
    cases a.ends r with
    | nil => rfl
    | cons r' l => simp
  | notAhead a ih =>
    rw [run, ends, ih]
    cases a.ends r with
    | nil => simp
    | cons r' l => simp
  | edge =>
    rw [run, ends]
    split <;> simp
  | lineStart =>
    rw [run, ends]
    split <;> simp
  | finish =>
    rw [run, ends]
    split <;> simp

theorem run_some (p : Pattern) (r : Reached) : p.run r some = (p.ends r).head? := by
  rw [run_eq_findSome?]
  cases p.ends r <;> rfl

end Run

/-! ## Every place reached lies further on -/

theorem leads_of_afterAnyCase? {cs : Chars} {c c' : Cursor}
    (h : afterAnyCase? cs c = some c') : c.Leads c' := by
  induction cs generalizing c with
  | nil =>
    rw [afterAnyCase?] at h
    cases h
    exact .refl _
  | cons a cs ih =>
    obtain ⟨before, rest, offset⟩ := c
    cases rest with
    | nil => simp [afterAnyCase?] at h
    | cons x rest =>
      simp only [afterAnyCase?, Option.ite_none_right_eq_some] at h
      exact (Cursor.Leads.cons before x rest offset).trans (ih h.2)

theorem leads_of_mem_roundsEnds {body : Reached → List Reached} {greedy : Bool}
    (h : ∀ r, ∀ r' ∈ body r, r.cursor.Leads r'.cursor) {n : Nat}
    (hr : r' ∈ roundsEnds body greedy n r) : r.cursor.Leads r'.cursor := by
  induction n generalizing r with
  | zero =>
    rw [roundsEnds, List.mem_singleton] at hr
    exact hr ▸ .refl _
  | succ n ih =>
    have more (hm : r' ∈ (body r).flatMap fun r' =>
        if r.cursor.offset < r'.cursor.offset then roundsEnds body greedy n r' else []) :
        r.cursor.Leads r'.cursor := by
      obtain ⟨r₁, hr₁, hm⟩ := List.mem_flatMap.1 hm
      split at hm
      · exact (h r r₁ hr₁).trans (ih hm)
      · cases hm
    rw [roundsEnds] at hr
    cases greedy with
    | true =>
      simp only [if_true, List.mem_append, List.mem_singleton] at hr
      rcases hr with hr | rfl
      · exact more hr
      · exact .refl _
    | false =>
      simp only [Bool.false_eq_true, if_false, List.mem_cons] at hr
      rcases hr with rfl | hr
      · exact .refl _
      · exact more hr

theorem leads_of_mem_ends (hr : r' ∈ p.ends r) : r.cursor.Leads r'.cursor := by
  induction p generalizing r r' with
  | empty =>
    rw [ends, List.mem_singleton] at hr
    exact hr ▸ .refl _
  | one p =>
    obtain ⟨⟨before, rest, offset⟩, captures⟩ := r
    cases rest with
    | nil => simp [ends] at hr
    | cons c rest =>
      simp only [ends, List.mem_ite_nil_right, List.mem_singleton] at hr
      exact hr.2 ▸ .cons before c rest offset
  | seq a b iha ihb =>
    obtain ⟨r₁, ha, hb⟩ := List.mem_flatMap.1 hr
    exact (iha ha).trans (ihb hb)
  | alt a b iha ihb =>
    rcases List.mem_append.1 hr with ha | hb
    · exact iha ha
    · exact ihb hb
  | many greedy a ih => exact leads_of_mem_roundsEnds (fun _ _ h => ih h) hr
  | capture n a ih =>
    obtain ⟨r₁, ha, rfl⟩ := List.mem_map.1 hr
    have hlead : r.cursor.Leads r₁.cursor := ih ha
    exact hlead
  | again n =>
    rw [ends] at hr
    split at hr
    · obtain ⟨c, hc, rfl⟩ := List.mem_map.1 hr
      exact leads_of_afterAnyCase? (Option.mem_toList.1 hc)
    · cases hr
  | ahead a _ =>
    obtain ⟨r₁, _, rfl⟩ := List.mem_map.1 hr
    exact .refl _
  | notAhead a _ =>
    simp only [ends, List.mem_ite_nil_right, List.mem_singleton] at hr
    exact hr.2 ▸ .refl _
  | edge | lineStart | finish =>
    simp only [ends, List.mem_ite_nil_right, List.mem_singleton] at hr
    exact hr.2 ▸ .refl _

/-- As many rounds as there are characters are enough. -/
theorem roundsEnds_congr {body : Reached → List Reached} {greedy : Bool}
    (h : ∀ r, ∀ r' ∈ body r, r.cursor.Leads r'.cursor) {n m : Nat}
    (hn : r.cursor.rest.length ≤ n) (hm : r.cursor.rest.length ≤ m) :
    roundsEnds body greedy n r = roundsEnds body greedy m r := by
  have zero {r : Reached} {m : Nat} (hr : r.cursor.rest.length ≤ 0) :
      roundsEnds body greedy m r = [r] := by
    cases m with
    | zero => rfl
    | succ m =>
      have more : ((body r).flatMap fun r' => if r.cursor.offset < r'.cursor.offset then
          roundsEnds body greedy m r' else []) = [] := by
        refine List.flatMap_eq_nil_iff.2 fun r' hr' => if_neg ?_
        have := (h r r' hr').offset_add_length
        omega
      simp only [roundsEnds, more, List.nil_append, ite_self]
  induction n generalizing r m with
  | zero => rw [zero hn, zero hn]
  | succ n ih =>
    cases m with
    | zero => rw [zero hm, zero hm]
    | succ m =>
      have more : ((body r).flatMap fun r' => if r.cursor.offset < r'.cursor.offset then
          roundsEnds body greedy n r' else []) =
          (body r).flatMap fun r' => if r.cursor.offset < r'.cursor.offset then
            roundsEnds body greedy m r' else [] := by
        refine List.flatMap_congr fun r' hr' => ?_
        have := (h r r' hr').offset_add_length
        split
        · exact ih (by omega) (by omega)
        · rfl
      simp only [roundsEnds, more]

/-- A repetition is one round more, or none. -/
theorem ends_many (greedy : Bool) (a : Pattern) (r : Reached) :
    (many greedy a).ends r =
      let more := (a.ends r).flatMap fun r' =>
        if r.cursor.offset < r'.cursor.offset then (many greedy a).ends r' else []
      if greedy then more ++ [r] else r :: more := by
  have h : ∀ r, ∀ r' ∈ a.ends r, r.cursor.Leads r'.cursor := fun _ _ => leads_of_mem_ends
  have more : ((a.ends r).flatMap fun r' => if r.cursor.offset < r'.cursor.offset then
      (many greedy a).ends r' else []) =
      (a.ends r).flatMap fun r' => if r.cursor.offset < r'.cursor.offset then
        roundsEnds a.ends greedy r.cursor.rest.length r' else [] := by
    refine List.flatMap_congr fun r' hr' => ?_
    have := (h r r' hr').offset_add_length
    split
    · exact roundsEnds_congr h (Nat.le_refl _) (by omega)
    · rfl
  rw [more, ends, ← roundsEnds_congr h (Nat.le_succ _) (Nat.le_refl _), roundsEnds]

theorem offset_of_mem_ends_one {f : Char → Bool} (h : r' ∈ (one f).ends r) :
    r'.cursor.offset = r.cursor.offset + 1 := by
  rw [ends] at h
  split at h
  · simp only [List.mem_ite_nil_right, List.mem_singleton] at h
    rw [h.2]
  · cases h

/-- Before something, a repetition of a class takes one character more, or none. -/
theorem ends_many_one_seq (greedy : Bool) (f : Char → Bool) (b : Pattern) (r : Reached) :
    (many greedy (one f) ++ b).ends r =
      let more := ((one f).ends r).flatMap (many greedy (one f) ++ b).ends
      if greedy then more ++ b.ends r else b.ends r ++ more := by
  change ((many greedy (one f)).ends r).flatMap b.ends = _
  rw [ends_many]
  dsimp only
  have hmore : (((one f).ends r).flatMap fun e => if r.cursor.offset < e.cursor.offset
      then (many greedy (one f)).ends e else []).flatMap b.ends =
      ((one f).ends r).flatMap (many greedy (one f) ++ b).ends := by
    rw [List.flatMap_assoc]
    refine List.flatMap_congr fun e he => ?_
    rw [if_pos (by rw [offset_of_mem_ends_one he]; omega)]
    rfl
  cases greedy with
  | true => rw [if_pos rfl, if_pos rfl, List.flatMap_append, hmore, List.flatMap_singleton]
  | false => rw [if_neg (by simp), if_neg (by simp), List.flatMap_cons, hmore]

/-! ## The first place and none -/

/-- The preferred way to match leads from `r` to `r'`. -/
def Takes (p : Pattern) (r r' : Reached) : Prop :=
  (p.ends r).head? = some r'

def Fails (p : Pattern) (r : Reached) : Prop :=
  p.ends r = []

theorem Takes.empty (r : Reached) : Takes empty r r :=
  rfl

theorem Takes.seq (ha : Takes a r r') (hb : Takes b r' r'') : Takes (a ++ b) r r'' := by
  obtain ⟨l, hl⟩ := List.head?_eq_some_iff.1 ha
  change ((a.ends r).flatMap b.ends).head? = _
  rw [hl, List.flatMap_cons, List.head?_append, hb]
  rfl

theorem Takes.left (ha : Takes a r r') : Takes (alt a b) r r' := by
  change (a.ends r ++ b.ends r).head? = _
  rw [List.head?_append, ha]
  rfl

theorem Takes.right (ha : Fails a r) (hb : Takes b r r') : Takes (alt a b) r r' := by
  change (a.ends r ++ b.ends r).head? = _
  rw [ha]
  exact hb

theorem Takes.edge (h : r.cursor.atEdge = true) : Takes edge r r := by
  simp [Takes, ends, h]

theorem Takes.capture (n : Nat) {before : Option Char} {taken rest : Chars} {offset : Nat}
    {captures captures' : List Capture} {before' : Option Char}
    (h : Takes a ⟨⟨before, taken ++ rest, offset⟩, captures⟩
      ⟨⟨before', rest, offset + taken.length⟩, captures'⟩) :
    Takes (capture n a) ⟨⟨before, taken ++ rest, offset⟩, captures⟩
      ⟨⟨before', rest, offset + taken.length⟩, ⟨n, offset, taken⟩ :: captures'⟩ := by
  change ((a.ends _).map _).head? = _
  rw [List.head?_map, h]
  simp

theorem Fails.alt (ha : Fails a r) (hb : Fails b r) : Fails (alt a b) r :=
  List.append_eq_nil_iff.2 ⟨ha, hb⟩

theorem Fails.seq (h : ∀ r' ∈ a.ends r, Fails b r') : Fails (a ++ b) r :=
  List.flatMap_eq_nil_iff.2 h

theorem Fails.seq_left (h : Fails a r) : Fails (a ++ b) r := by
  refine .seq ?_
  rw [h]
  simp

theorem Fails.capture (n : Nat) (h : Fails a r) : Fails (capture n a) r :=
  List.map_eq_nil_iff.2 h

theorem Fails.one {f : Char → Bool} (h : ∀ c ∈ r.cursor.rest.head?, f c = false) :
    Fails (one f) r := by
  obtain ⟨⟨before, rest, offset⟩, captures⟩ := r
  cases rest with
  | nil => rfl
  | cons c rest => simp [Fails, ends, h c rfl]

theorem Takes.one {f : Char → Bool} {before : Option Char} {c : Char} {rest : Chars} {n : Nat}
    {captures : List Capture} (h : f c = true) :
    Takes (one f) ⟨⟨before, c :: rest, n⟩, captures⟩ ⟨⟨some c, rest, n + 1⟩, captures⟩ := by
  simp [Takes, ends, h]

/-! ## Matches -/

theorem matchAt?_of_takes {before before' : Option Char} {taken rest : Chars} {n : Nat}
    {captures : List Capture} (h : Takes p ⟨⟨before, taken ++ rest, n⟩, []⟩
      ⟨⟨before', rest, n + taken.length⟩, captures⟩) :
    p.matchAt? ⟨before, taken ++ rest, n⟩ =
      some ⟨n, n + taken.length, taken, rest, captures⟩ := by
  rw [matchAt?, run_some, h]
  simp

theorem matchAt?_of_fails {c : Cursor} (h : Fails p ⟨c, []⟩) : p.matchAt? c = none := by
  rw [matchAt?, run_some, h]
  rfl

theorem isSome_match?_iff {x : Chars} :
    (p.match? x).isSome = true ↔ p.ends ⟨.atStart x, []⟩ ≠ [] := by
  rw [match?, matchAt?, run_some, Option.isSome_map]
  cases p.ends ⟨.atStart x, []⟩ <;> simp

/-- A match is a part of the text at its place, and the rest of the text is what follows it. -/
theorem spec_of_matchAt? {c : Cursor} {m : Match} (h : p.matchAt? c = some m) :
    c.rest = m.text ++ m.rest ∧ m.start = c.offset ∧ m.stop = c.offset + m.text.length := by
  rw [matchAt?, run_some] at h
  obtain ⟨r, hr, rfl⟩ := Option.map_eq_some_iff.1 h
  obtain ⟨taken, hrest, hoffset, _⟩ := leads_of_mem_ends (List.mem_of_mem_head? hr)
  simp only at hrest hoffset
  simp [hrest, hoffset]

end Pattern

end SqlFerry.Text
