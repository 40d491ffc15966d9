import Mathlib.Data.List.Forall2
import SqlFerry.Proofs.Pattern.Words
import SqlFerry.Proofs.Text.Reflow

/-!
# Patterns that do not tell blanks apart

In two texts without quotes that differ only in their blanks, a pattern in which blanks stand for
any number of blanks reaches corresponding places in the same order. So such a pattern matches both
texts or neither, and what it keeps and leaves over differs only in blanks.
-/

namespace SqlFerry.Text

def isQuote (c : Char) : Bool :=
  ['\'', '"', '\x60'].contains c

theorem isBlank_of_isQuote {c : Char} (hc : isQuote c = true) : isBlank c = false := by
  simp only [isQuote, List.contains_iff_mem, List.mem_cons, List.not_mem_nil, or_false] at hc
  rcases hc with rfl | rfl | rfl <;> rfl

theorem unquoted_of_reflowed {x y : Chars} (h : Reflowed x y) (hx : ∀ c ∈ x, isQuote c = false) :
    ∀ c ∈ y, isQuote c = false := by
  intro c hc
  rw [Bool.eq_false_iff]
  intro hquote
  rw [hx c ((h.mem_iff (isBlank_of_isQuote hquote)).2 hc)] at hquote
  cases hquote

structure Reached.Alike (r r' : Reached) : Prop where
  rest : Reflowed r.cursor.rest r'.cursor.rest
  before : isWordAt r.cursor.before = isWordAt r'.cursor.before
  unquoted : ∀ c ∈ r.cursor.rest, isQuote c = false

structure Capture.Alike (k k' : Capture) : Prop where
  number : k.number = k'.number
  text : Reflowed k.text k'.text
  unquoted : ∀ c ∈ k.text, isQuote c = false

/-- From `r` the place `e` is reached over the text `t`, and `found` is kept on the way. -/
structure Reached.Adds (r e : Reached) (t : Chars) (found : List Capture) : Prop where
  rest : r.cursor.rest = t ++ e.cursor.rest
  before : e.cursor.before = t.getLast?.or r.cursor.before
  offset : e.cursor.offset = r.cursor.offset + t.length
  captures : e.captures = found ++ r.captures

/-- From `r` and `r'` the places `e` and `e'` are reached in corresponding ways. -/
def Reached.Track (r r' e e' : Reached) : Prop :=
  ∃ t t' found found', r.Adds e t found ∧ r'.Adds e' t' found' ∧ Reflowed t t' ∧
    Reflowed e.cursor.rest e'.cursor.rest ∧ List.Forall₂ Capture.Alike found found'

namespace Reached

variable {r r' e e' f f' : Reached} {t u : Chars} {found found' : List Capture}

theorem Adds.refl (r : Reached) : r.Adds r [] [] :=
  ⟨rfl, rfl, rfl, rfl⟩

theorem Adds.trans (h : r.Adds e t found) (h' : e.Adds f u found') :
    r.Adds f (t ++ u) (found' ++ found) where
  rest := by rw [h.rest, h'.rest, List.append_assoc]
  before := by rw [h'.before, h.before, List.getLast?_append, Option.or_assoc]
  offset := by rw [h'.offset, h.offset, List.length_append, Nat.add_assoc]
  captures := by rw [h'.captures, h.captures, List.append_assoc]

theorem Track.refl (h : Reflowed r.cursor.rest r'.cursor.rest) : Track r r' r r' :=
  ⟨[], [], [], [], .refl r, .refl r', .nil, h, .nil⟩

theorem Track.trans (h : Track r r' e e') (h' : Track e e' f f') : Track r r' f f' := by
  obtain ⟨t, t', found, found', ht, ht', htext, -, hfound⟩ := h
  obtain ⟨u, u', kept, kept', hu, hu', hutext, hrest, hkept⟩ := h'
  exact ⟨_, _, _, _, ht.trans hu, ht'.trans hu', htext.append hutext, hrest,
    List.rel_append hkept hfound⟩

theorem Track.alike (h : Track r r' e e') (hr : r.Alike r') : e.Alike e' := by
  obtain ⟨t, t', found, found', ht, ht', htext, hrest, -⟩ := h
  refine ⟨hrest, ?_, fun c hc => hr.unquoted c ?_⟩
  · rw [ht.before, ht'.before]
    exact htext.isWordAt_getLast? hr.before
  · rw [ht.rest]
    exact List.mem_append_right _ hc

/-- One of two corresponding ways leads further on if the other does. -/
theorem Track.offset_lt_iff (h : Track r r' e e') :
    r.cursor.offset < e.cursor.offset ↔ r'.cursor.offset < e'.cursor.offset := by
  obtain ⟨t, t', found, found', ht, ht', htext, -, -⟩ := h
  have hpos : 0 < t.length ↔ 0 < t'.length := by
    rw [List.length_pos_iff, List.length_pos_iff, ne_eq, ne_eq, htext.eq_nil_iff]
  rw [ht.offset, ht'.offset]
  omega

theorem Track.rest_length_le (h : Track r r' e e') :
    e.cursor.rest.length ≤ r.cursor.rest.length := by
  obtain ⟨t, t', found, found', ht, -, -, -, -⟩ := h
  rw [ht.rest, List.length_append]
  omega

theorem Track.rest_length_lt (h : Track r r' e e') (hlt : r.cursor.offset < e.cursor.offset) :
    e.cursor.rest.length < r.cursor.rest.length := by
  obtain ⟨t, t', found, found', ht, -, -, -, -⟩ := h
  rw [ht.offset] at hlt
  rw [ht.rest, List.length_append]
  omega

end Reached

namespace Pattern

open Reached

variable {a b p q w : Pattern} {f : Char → Bool} {r r' : Reached} {before : Option Char}
  {c : Char} {g x y : Chars} {n : Nat} {captures : List Capture} {s : String} {greedy : Bool}

/-- In texts without quotes that differ only in their blanks the pattern reaches corresponding
places. -/
def IgnoresSpacing (p : Pattern) : Prop :=
  ∀ r r' : Reached, r.Alike r' → List.Forall₂ (Track r r') (p.ends r) (p.ends r')

def StartsSolid (p : Pattern) : Prop :=
  ∀ before c x n captures, isBlank c = true → p.ends ⟨⟨before, c :: x, n⟩, captures⟩ = []

theorem ends_assoc (a b d : Pattern) : (a ++ b ++ d).ends = (a ++ (b ++ d)).ends := by
  funext r
  exact List.flatMap_assoc

/-! ## Patterns that begin with no blank -/

namespace StartsSolid

theorem one (hf : ∀ c, isBlank c = true → f c = false) : StartsSolid (.one f) := by
  intro before c x n captures hc
  simp [ends, hf c hc]

theorem seq (ha : StartsSolid a) : StartsSolid (a ++ b) := by
  intro before c x n captures hc
  change (a.ends _).flatMap b.ends = []
  rw [ha _ _ _ _ _ hc, List.flatMap_nil]

theorem edge_seq (hb : StartsSolid b) : StartsSolid (edge ++ b) := by
  intro before c x n captures hc
  change (ends edge _).flatMap b.ends = []
  rw [ends]
  split
  · rw [List.flatMap_singleton, hb _ _ _ _ _ hc]
  · rfl

theorem alt (ha : StartsSolid a) (hb : StartsSolid b) : StartsSolid (.alt a b) := by
  intro before c x n captures hc
  rw [ends, ha _ _ _ _ _ hc, hb _ _ _ _ _ hc]
  rfl

theorem choice {ps : List Pattern} (h : ∀ p ∈ ps, StartsSolid p) : StartsSolid (choice ps) := by
  induction ps with
  | nil => exact .one fun _ _ => rfl
  | cons p ps ih =>
    obtain ⟨hp, hps⟩ := List.forall_mem_cons.1 h
    cases ps with
    | nil => exact hp
    | cons q ps => exact .alt hp (ih hps)

theorem capture (k : Nat) (ha : StartsSolid a) : StartsSolid (.capture k a) := by
  intro before c x n captures hc
  rw [ends, ha _ _ _ _ _ hc]
  rfl

theorem opt_seq (ha : StartsSolid a) (hb : StartsSolid b) : StartsSolid (opt a ++ b) := by
  intro before c x n captures hc
  change (a.ends _ ++ [_]).flatMap b.ends = []
  rw [ha _ _ _ _ _ hc, List.nil_append, List.flatMap_singleton, hb _ _ _ _ _ hc]

theorem star_seq (ha : StartsSolid a) (hb : StartsSolid b) : StartsSolid (star a ++ b) := by
  intro before c x n captures hc
  change ((star a).ends _).flatMap b.ends = []
  rw [star, ends_many, ha _ _ _ _ _ hc]
  simp only [List.flatMap_nil, List.nil_append, if_true]
  rw [List.flatMap_singleton, hb _ _ _ _ _ hc]

theorem word (hs : s.toList.head?.any isAsciiLetter = true) : StartsSolid (word s) := by
  intro before c x n captures hc
  exact refuses_word_blank hs hc n captures

theorem words {names : List String}
    (h : ∀ s ∈ names, s.toList.head?.any isAsciiLetter = true) :
    StartsSolid (Pattern.choice (names.map .word)) :=
  .choice <| List.forall_mem_map.2 fun s hs => .word (h s hs)

end StartsSolid

/-- A class to which every blank belongs takes blanks to their end, where what begins with no blank
can follow. -/
theorem ends_many_seq_blanks (hf : ∀ c, isBlank c = true → f c = true) (hq : StartsSolid q)
    (hg : ∀ c ∈ g, isBlank c = true) :
    (many greedy (one f) ++ q).ends ⟨⟨before, g ++ x, n⟩, captures⟩ =
      (many greedy (one f) ++ q).ends ⟨⟨g.getLast?.or before, x, n + g.length⟩, captures⟩ := by
  induction g generalizing before n with
  | nil => rfl
  | cons c g ih =>
    obtain ⟨hc, hg⟩ := List.forall_mem_cons.1 hg
    have hstep : (many greedy (one f) ++ q).ends ⟨⟨before, c :: (g ++ x), n⟩, captures⟩ =
        (many greedy (one f) ++ q).ends ⟨⟨some c, g ++ x, n + 1⟩, captures⟩ := by
      have hone : (one f).ends ⟨⟨before, c :: (g ++ x), n⟩, captures⟩ =
          [⟨⟨some c, g ++ x, n + 1⟩, captures⟩] := by
        simp [ends, hf c hc]
      rw [ends_many_one_seq, hone, hq _ _ _ _ _ hc]
      simp only [List.flatMap_singleton, List.append_nil, List.nil_append, ite_self]
    rw [List.cons_append, hstep, ih hg, getLast?_cons_or, List.length_cons,
      Nat.add_assoc, Nat.add_comm 1]

/-! ## Patterns that ignore spacing -/

theorem forall₂_flatMap {α β γ δ : Type} {R : α → β → Prop} {S : γ → δ → Prop} {l : List α}
    {l' : List β} {k : α → List γ} {k' : β → List δ} (h : List.Forall₂ R l l')
    (hk : ∀ e e', R e e' → List.Forall₂ S (k e) (k' e')) :
    List.Forall₂ S (l.flatMap k) (l'.flatMap k') :=
  List.rel_flatMap h fun _ _ => hk _ _

namespace IgnoresSpacing

theorem empty : IgnoresSpacing .empty :=
  fun _ _ h => .cons (.refl h.rest) .nil

theorem one (hf : ∀ c, isBlank c = true → f c = false) : IgnoresSpacing (.one f) := by
  rintro ⟨⟨before, x, n⟩, captures⟩ ⟨⟨before', x', n'⟩, captures'⟩ h
  obtain ⟨hrest, -, -⟩ := h
  dsimp only at hrest
  cases hrest with
  | nil => exact .nil
  | @solid c x y hc h =>
    simp only [ends]
    split
    · exact .cons ⟨[c], [c], [], [], ⟨rfl, rfl, rfl, rfl⟩, ⟨rfl, rfl, rfl, rfl⟩,
        .refl [c], h, .nil⟩ .nil
    · exact .nil
  | blanks hg hg' =>
    obtain ⟨c, g, rfl, hc⟩ := hg.exists_cons
    obtain ⟨c', g', rfl, hc'⟩ := hg'.exists_cons
    simp [ends, hf c hc, hf c' hc']

theorem congr (h : a.ends = b.ends) (hb : IgnoresSpacing b) : IgnoresSpacing a := by
  intro r r' hr
  rw [h]
  exact hb r r' hr

theorem seq (ha : IgnoresSpacing a) (hb : IgnoresSpacing b) : IgnoresSpacing (a ++ b) := by
  intro r r' hr
  refine forall₂_flatMap (ha r r' hr) fun e e' he => ?_
  exact (hb e e' (he.alike hr)).imp fun _ _ h => he.trans h

theorem assoc {d : Pattern} (h : IgnoresSpacing (a ++ (b ++ d))) : IgnoresSpacing (a ++ b ++ d) :=
  .congr (ends_assoc a b d) h

theorem alt (ha : IgnoresSpacing a) (hb : IgnoresSpacing b) : IgnoresSpacing (.alt a b) :=
  fun r r' hr => List.rel_append (ha r r' hr) (hb r r' hr)

theorem choice {ps : List Pattern} (h : ∀ p ∈ ps, IgnoresSpacing p) :
    IgnoresSpacing (choice ps) := by
  induction ps with
  | nil => exact .one fun _ _ => rfl
  | cons p ps ih =>
    obtain ⟨hp, hps⟩ := List.forall_mem_cons.1 h
    cases ps with
    | nil => exact hp
    | cons q ps => exact .alt hp (ih hps)

theorem edge : IgnoresSpacing edge := by
  intro r r' hr
  have hedge : r.cursor.atEdge = r'.cursor.atEdge := by
    change (isWordAt r.cursor.before != isWordAt r.cursor.rest.head?) =
      (isWordAt r'.cursor.before != isWordAt r'.cursor.rest.head?)
    rw [hr.before, hr.rest.isWordAt_head?]
  rw [ends, ends, hedge]
  split
  · exact .cons (.refl hr.rest) .nil
  · exact .nil

theorem capture (k : Nat) (ha : IgnoresSpacing a) : IgnoresSpacing (.capture k a) := by
  intro r r' hr
  rw [ends, ends]
  refine List.rel_map ?_ (ha r r' hr)
  rintro e e' ⟨t, t', found, found', ht, ht', htext, hrest, hfound⟩
  have taken {r e : Reached} {t : Chars} {found : List Capture} (h : r.Adds e t found) :
      r.cursor.rest.take (e.cursor.offset - r.cursor.offset) = t := by
    rw [h.rest, h.offset, Nat.add_sub_cancel_left, List.take_left]
  have hunquoted : ∀ c ∈ t, isQuote c = false := fun c hc =>
    hr.unquoted c (by rw [ht.rest]; exact List.mem_append_left _ hc)
  refine ⟨t, t', ⟨k, r.cursor.offset, t⟩ :: found, ⟨k, r'.cursor.offset, t'⟩ :: found',
    ⟨ht.rest, ht.before, ht.offset, ?_⟩, ⟨ht'.rest, ht'.before, ht'.offset, ?_⟩,
    htext, hrest, .cons ⟨rfl, htext, hunquoted⟩ hfound⟩
  · dsimp only
    rw [ht.captures, taken ht]
    rfl
  · dsimp only
    rw [ht'.captures, taken ht']
    rfl

theorem star (ha : IgnoresSpacing a) : IgnoresSpacing (star a) := by
  intro r r' hr
  induction hn : r.cursor.rest.length using Nat.strongRecOn generalizing r r' with
  | ind n ih =>
    rw [Pattern.star, ends_many, ends_many]
    simp only [if_true]
    refine List.rel_append (forall₂_flatMap (ha r r' hr) fun e e' he => ?_)
      (.cons (.refl hr.rest) .nil)
    by_cases hlt : r.cursor.offset < e.cursor.offset
    · rw [if_pos hlt, if_pos (he.offset_lt_iff.1 hlt)]
      exact (ih _ (hn ▸ he.rest_length_lt hlt) e e' (he.alike hr) rfl).imp fun _ _ h => he.trans h
    · rw [if_neg hlt, if_neg fun h => hlt (he.offset_lt_iff.2 h)]
      exact .nil

/-- A class to which every blank belongs, before what begins with no blank. -/
theorem many_seq (hf : ∀ c, isBlank c = true → f c = true) (hq : IgnoresSpacing q)
    (hsolid : StartsSolid q) : IgnoresSpacing (many greedy (.one f) ++ q) := by
  rintro ⟨⟨before, x, n⟩, captures⟩ ⟨⟨before', x', n'⟩, captures'⟩ h
  have hrest : Reflowed x x' := h.rest
  induction hrest generalizing before before' n n' with
  | nil =>
    rw [ends_many_one_seq, ends_many_one_seq]
    cases greedy <;> simpa [ends] using hq _ _ h
  | @solid c x y hc hxy ih =>
    rw [ends_many_one_seq, ends_many_one_seq]
    have hmore : List.Forall₂
        (Track ⟨⟨before, c :: x, n⟩, captures⟩ ⟨⟨before', c :: y, n'⟩, captures'⟩)
        (((Pattern.one f).ends ⟨⟨before, c :: x, n⟩, captures⟩).flatMap
          (many greedy (.one f) ++ q).ends)
        (((Pattern.one f).ends ⟨⟨before', c :: y, n'⟩, captures'⟩).flatMap
          (many greedy (.one f) ++ q).ends) := by
      simp only [ends]
      split
      · rw [List.flatMap_singleton, List.flatMap_singleton]
        have hstep : Track ⟨⟨before, c :: x, n⟩, captures⟩ ⟨⟨before', c :: y, n'⟩, captures'⟩
            ⟨⟨some c, x, n + 1⟩, captures⟩ ⟨⟨some c, y, n' + 1⟩, captures'⟩ :=
          ⟨[c], [c], [], [], ⟨rfl, rfl, rfl, rfl⟩, ⟨rfl, rfl, rfl, rfl⟩, .refl [c], hxy, .nil⟩
        exact (ih _ _ _ _ (hstep.alike h)).imp fun _ _ h => hstep.trans h
      · exact .nil
    cases greedy with
    | true => exact List.rel_append hmore (hq _ _ h)
    | false => exact List.rel_append (hq _ _ h) hmore
  | @blanks g g' x y hg hg' hx hy hxy ih =>
    have hstep : Track ⟨⟨before, g ++ x, n⟩, captures⟩ ⟨⟨before', g' ++ y, n'⟩, captures'⟩
        ⟨⟨g.getLast?.or before, x, n + g.length⟩, captures⟩
        ⟨⟨g'.getLast?.or before', y, n' + g'.length⟩, captures'⟩ :=
      ⟨g, g', [], [], ⟨rfl, rfl, rfl, rfl⟩, ⟨rfl, rfl, rfl, rfl⟩, by
        simpa using Reflowed.gap hg hg' .nil, hxy, .nil⟩
    rw [ends_many_seq_blanks hf hsolid hg.isBlank, ends_many_seq_blanks hf hsolid hg'.isBlank]
    exact (ih _ _ _ _ (hstep.alike h)).imp fun _ _ h => hstep.trans h

theorem blanks_seq (hq : IgnoresSpacing q) (hsolid : StartsSolid q) :
    IgnoresSpacing (blanks ++ q) :=
  many_seq (fun _ h => h) hq hsolid

end IgnoresSpacing

theorem ends_blanks_seq (hq : StartsSolid q) (hg : ∀ c ∈ g, isBlank c = true)
    (hx : BeginsSolid x) : (blanks ++ q).ends ⟨⟨before, g ++ x, n⟩, captures⟩ =
      q.ends ⟨⟨g.getLast?.or before, x, n + g.length⟩, captures⟩ := by
  have hnone : blank.ends ⟨⟨g.getLast?.or before, x, n + g.length⟩, captures⟩ = [] :=
    Fails.one hx
  calc (blanks ++ q).ends ⟨⟨before, g ++ x, n⟩, captures⟩
    _ = (blanks ++ q).ends ⟨⟨g.getLast?.or before, x, n + g.length⟩, captures⟩ :=
      ends_many_seq_blanks (fun _ h => h) hq hg
    _ = q.ends ⟨⟨g.getLast?.or before, x, n + g.length⟩, captures⟩ := by
      rw [blanks, star, blank, ends_many_one_seq, ← blank, hnone]
      rfl

/-- Blanks before what begins with no blank reach to their end. -/
theorem ends_blanks1_seq (hq : StartsSolid q) (hg : IsBlanks g) (hx : BeginsSolid x) :
    (blanks1 ++ q).ends ⟨⟨before, g ++ x, n⟩, captures⟩ =
      q.ends ⟨⟨g.getLast?.or before, x, n + g.length⟩, captures⟩ := by
  obtain ⟨c, g, rfl, hc⟩ := hg.exists_cons
  have hone : (blank.ends ⟨⟨before, c :: (g ++ x), n⟩, captures⟩) =
      [⟨⟨some c, g ++ x, n + 1⟩, captures⟩] := by
    simp [blank, ends, hc]
  have hrest : ∀ c ∈ g, isBlank c = true := fun c hc => hg.isBlank c (List.mem_cons_of_mem _ hc)
  have hassoc : (blanks1 ++ q).ends = (blank ++ (blanks ++ q)).ends := ends_assoc blank blanks q
  rw [hassoc]
  change (blank.ends _).flatMap (blanks ++ q).ends = _
  rw [List.cons_append, hone, List.flatMap_singleton, ends_blanks_seq hq hrest hx,
    getLast?_cons_or,     List.length_cons, Nat.add_assoc, Nat.add_comm 1]

theorem offset_lt_of_mem_ends_blanks1 (h : r' ∈ blanks1.ends r) :
    r.cursor.offset < r'.cursor.offset := by
  obtain ⟨e, he, h⟩ := List.mem_flatMap.1 h
  obtain ⟨taken, -, hoffset, -⟩ := leads_of_mem_ends h
  have hone := offset_of_mem_ends_one he
  omega

theorem ends_blanks1_seq_of_solid (hx : BeginsSolid x) :
    (blanks1 ++ q).ends ⟨⟨before, x, n⟩, captures⟩ = [] := by
  have hnone : blanks1.ends ⟨⟨before, x, n⟩, captures⟩ = [] :=
    refuses_blanks1 hx n captures
  change (blanks1.ends _).flatMap q.ends = _
  rw [hnone, List.flatMap_nil]

/-- Behind blanks, places of texts that are shorter have to be compared. -/
theorem forall₂_blanks1_seq (hsolid : StartsSolid q) (hr : r.Alike r')
    (hq : ∀ e e', e.Alike e' → e.cursor.rest.length < r.cursor.rest.length →
      List.Forall₂ (Track e e') (q.ends e) (q.ends e')) :
    List.Forall₂ (Track r r') ((blanks1 ++ q).ends r) ((blanks1 ++ q).ends r') := by
  obtain ⟨⟨before, x, n⟩, captures⟩ := r
  obtain ⟨⟨before', x', n'⟩, captures'⟩ := r'
  have hrest : Reflowed x x' := hr.rest
  cases hrest with
  | nil =>
    rw [ends_blanks1_seq_of_solid beginsSolid_nil, ends_blanks1_seq_of_solid beginsSolid_nil]
    exact .nil
  | solid hc _ =>
    rw [ends_blanks1_seq_of_solid (beginsSolid_cons.2 hc),
      ends_blanks1_seq_of_solid (beginsSolid_cons.2 hc)]
    exact .nil
  | @blanks g g' x y hg hg' hx hy hxy =>
    have hstep : Track ⟨⟨before, g ++ x, n⟩, captures⟩ ⟨⟨before', g' ++ y, n'⟩, captures'⟩
        ⟨⟨g.getLast?.or before, x, n + g.length⟩, captures⟩
        ⟨⟨g'.getLast?.or before', y, n' + g'.length⟩, captures'⟩ :=
      ⟨g, g', [], [], ⟨rfl, rfl, rfl, rfl⟩, ⟨rfl, rfl, rfl, rfl⟩, by
        simpa using Reflowed.gap hg hg' .nil, hxy, .nil⟩
    have hlt : x.length < (g ++ x).length := by
      have hpos := List.length_pos_iff.2 hg.ne_nil
      rw [List.length_append]
      omega
    rw [ends_blanks1_seq hsolid hg hx, ends_blanks1_seq hsolid hg' hy]
    exact (hq _ _ (hstep.alike hr) hlt).imp fun _ _ h => hstep.trans h

namespace IgnoresSpacing

theorem blanks1_seq (hq : IgnoresSpacing q) (hsolid : StartsSolid q) :
    IgnoresSpacing (blanks1 ++ q) :=
  fun _ _ hr => forall₂_blanks1_seq hsolid hr fun e e' he _ => hq e e' he

/-- An optional part with blanks behind it. -/
theorem opt_blanks1_seq (hw : IgnoresSpacing w) (hq : IgnoresSpacing q) (hsolid : StartsSolid q) :
    IgnoresSpacing (opt (w ++ blanks1) ++ q) := by
  have hends : (opt (w ++ blanks1) ++ q).ends = (Pattern.alt (w ++ (blanks1 ++ q)) q).ends := by
    funext r
    change ((w ++ blanks1).ends r ++ [r]).flatMap q.ends = (w ++ (blanks1 ++ q)).ends r ++ q.ends r
    rw [List.flatMap_append, List.flatMap_singleton, ← ends_assoc]
    rfl
  exact .congr hends (.alt (.seq hw (.blanks1_seq hq hsolid)) hq)

/-- A repetition of parts with blanks behind them. -/
theorem star_blanks1_seq (hw : IgnoresSpacing w) (hwsolid : StartsSolid w) (hq : IgnoresSpacing q)
    (hsolid : StartsSolid q) : IgnoresSpacing (Pattern.star (w ++ blanks1) ++ q) := by
  have unroll (r : Reached) : (Pattern.star (w ++ blanks1) ++ q).ends r =
      (w.ends r).flatMap (blanks1 ++ (Pattern.star (w ++ blanks1) ++ q)).ends ++ q.ends r := by
    change ((Pattern.star (w ++ blanks1)).ends r).flatMap q.ends = _
    rw [Pattern.star, ends_many]
    simp only [if_true]
    rw [List.flatMap_append, List.flatMap_singleton]
    congr 1
    change (((w.ends r).flatMap blanks1.ends).flatMap _).flatMap q.ends = _
    rw [List.flatMap_assoc, List.flatMap_assoc]
    refine List.flatMap_congr fun e he => ?_
    change _ = (blanks1.ends e).flatMap _
    refine List.flatMap_congr fun e' he' => ?_
    have hlt : r.cursor.offset < e'.cursor.offset := by
      obtain ⟨taken, -, hoffset, -⟩ := leads_of_mem_ends he
      have := offset_lt_of_mem_ends_blanks1 he'
      omega
    rw [if_pos hlt]
    rfl
  intro r r' hr
  induction hn : r.cursor.rest.length using Nat.strongRecOn generalizing r r' with
  | ind n ih =>
    rw [unroll, unroll]
    refine List.rel_append (forall₂_flatMap (hw r r' hr) fun e e' he => ?_) (hq r r' hr)
    have hle : e.cursor.rest.length ≤ r.cursor.rest.length := he.rest_length_le
    refine (forall₂_blanks1_seq (.star_seq hwsolid.seq hsolid) (he.alike hr)
      fun f f' hf hlt => ih _ (by omega) f f' hf rfl).imp fun _ _ h => he.trans h

/-- Without quotes in the text, what begins with a quote matches nowhere. -/
theorem quote_seq (hc : isQuote c = true) : IgnoresSpacing (char c ++ b) := by
  have hnone {r : Reached} (h : ∀ d ∈ r.cursor.rest, isQuote d = false) :
      (char c ++ b).ends r = [] := by
    refine Fails.seq_left (Fails.one fun d hd => ?_)
    rw [beq_eq_false_iff_ne]
    rintro rfl
    rw [h d (List.mem_of_mem_head? hd)] at hc
    cases hc
  intro r r' hr
  rw [hnone hr.unquoted, hnone (unquoted_of_reflowed hr.rest hr.unquoted)]
  exact .nil

theorem word (hs : ∀ a ∈ s.toList, a.toNat < 128 ∧ isBlank a = false) :
    IgnoresSpacing (.word s) := by
  rw [Pattern.word]
  generalize s.toList = w at hs
  induction w with
  | nil => exact .empty
  | cons a w ih =>
    obtain ⟨⟨hascii, hsolid⟩, hw⟩ := List.forall_mem_cons.1 hs
    rw [List.map_cons]
    refine .congr (ends_ofList_cons _ _) (.seq (.one fun c hc => ?_) (ih hw))
    rw [Bool.eq_false_iff]
    intro hsame
    rw [isBlank_of_sameLetter hascii hsolid hsame] at hc
    cases hc

theorem words {names : List String}
    (h : ∀ s ∈ names, ∀ a ∈ s.toList, a.toNat < 128 ∧ isBlank a = false) :
    IgnoresSpacing (Pattern.choice (names.map .word)) :=
  .choice <| List.forall_mem_map.2 fun s hs => .word (h s hs)

end IgnoresSpacing

/-! ## Matches -/

structure Match.Alike (m m' : Match) : Prop where
  rest : Reflowed m.rest m'.rest
  unquoted : ∀ c ∈ m.rest, isQuote c = false
  group : ∀ n, Reflowed (m.group n) (m'.group n)
  group_unquoted : ∀ n, ∀ c ∈ m.group n, isQuote c = false

theorem isSome_eq_of_rel {R : Match → Match → Prop} {m m' : Option Match}
    (h : Option.Rel R m m') : m.isSome = m'.isSome := by
  cases h <;> rfl

theorem alike_of_captures {found found' : List Capture}
    (h : List.Forall₂ Capture.Alike found found') (n : Nat) :
    let kept := ((found.find? (·.number == n)).map (·.text)).getD []
    let kept' := ((found'.find? (·.number == n)).map (·.text)).getD []
    Reflowed kept kept' ∧ ∀ c ∈ kept, isQuote c = false := by
  induction h with
  | nil => exact ⟨.nil, by simp⟩
  | @cons k k' found found' hk _ ih =>
    rw [List.find?_cons, List.find?_cons, hk.number]
    cases k'.number == n with
    | true => exact ⟨hk.text, hk.unquoted⟩
    | false => exact ih

namespace IgnoresSpacing

theorem matchAt? {c c' : Cursor} (hp : IgnoresSpacing p) (h : Reached.Alike ⟨c, []⟩ ⟨c', []⟩) :
    Option.Rel Match.Alike (p.matchAt? c) (p.matchAt? c') := by
  have hends := hp _ _ h
  rw [Pattern.matchAt?, Pattern.matchAt?, run_some, run_some]
  generalize p.ends ⟨c, []⟩ = l at hends
  generalize p.ends ⟨c', []⟩ = l' at hends
  cases hends with
  | nil => exact .none
  | cons he _ =>
    obtain ⟨t, t', found, found', ht, ht', -, hrest, hfound⟩ := he
    refine .some ⟨hrest, fun d hd => ?_, fun n => ?_, fun n => ?_⟩
    · exact h.unquoted d (by rw [ht.rest]; exact List.mem_append_right _ hd)
    · simp only [Match.group, Match.group?, ht.captures, ht'.captures, List.append_nil]
      exact (alike_of_captures hfound n).1
    · simp only [Match.group, Match.group?, ht.captures, List.append_nil]
      exact (alike_of_captures hfound n).2

theorem match? (hp : IgnoresSpacing p) (h : Reflowed x y) (hx : ∀ c ∈ x, isQuote c = false) :
    Option.Rel Match.Alike (p.match? x) (p.match? y) :=
  hp.matchAt? ⟨h, rfl, hx⟩

theorem isSome_match? (hp : IgnoresSpacing p) (h : Reflowed x y)
    (hx : ∀ c ∈ x, isQuote c = false) : (p.match? x).isSome = (p.match? y).isSome :=
  isSome_eq_of_rel (hp.match? h hx)

theorem searchIn {before' : Option Char} {n' : Nat} (hp : IgnoresSpacing p)
    (hsolid : StartsSolid p) (h : Reflowed x y) (hx : ∀ c ∈ x, isQuote c = false)
    (hbefore : isWordAt before = isWordAt before') :
    Option.Rel Match.Alike (p.searchIn before n x) (p.searchIn before' n' y) := by
  induction h generalizing before before' n n' with
  | nil => exact hp.matchAt? ⟨.nil, hbefore, hx⟩
  | @solid c x y hc hxy ih =>
    have halike : Reached.Alike ⟨⟨before, c :: x, n⟩, []⟩ ⟨⟨before', c :: y, n'⟩, []⟩ :=
      ⟨.solid hc hxy, hbefore, hx⟩
    have hhere := hp.matchAt? halike
    rw [Pattern.searchIn, Pattern.searchIn]
    revert hhere
    generalize Pattern.matchAt? p _ = m
    generalize Pattern.matchAt? p _ = m'
    intro hhere
    cases hhere with
    | some hm => exact .some hm
    | none => exact ih (fun c hc => hx c (List.mem_cons_of_mem _ hc)) rfl
  | @blanks g g' x y hg hg' _ _ hxy ih =>
    have skip {g x : Chars} {before : Option Char} {n : Nat} (hg : IsBlanks g) :
        p.searchIn before n (g ++ x) = p.searchIn (g.getLast?.or before) (n + g.length) x := by
      refine searchIn_append fun u v huv hv => ?_
      obtain ⟨c, v, rfl⟩ := List.exists_cons_of_ne_nil hv
      exact fun n captures => hsolid _ _ _ _ _ (hg.isBlank c (by simp [huv]))
    rw [skip hg, skip hg']
    exact ih (fun c hc => hx c (List.mem_append_right _ hc))
      (by rw [hg.isWordAt_getLast?, hg'.isWordAt_getLast?])

theorem search? (hp : IgnoresSpacing p) (hsolid : StartsSolid p) (h : Reflowed x y)
    (hx : ∀ c ∈ x, isQuote c = false) : Option.Rel Match.Alike (p.search? x) (p.search? y) :=
  hp.searchIn hsolid h hx rfl

theorem occurs_eq (hp : IgnoresSpacing p) (hsolid : StartsSolid p) (h : Reflowed x y)
    (hx : ∀ c ∈ x, isQuote c = false) : p.occurs x = p.occurs y :=
  isSome_eq_of_rel (hp.search? hsolid h hx)

end IgnoresSpacing

/-! ## One way to match -/

/-- Whether there is at most one way to match, wherever it is. -/
def Determined (p : Pattern) : Prop :=
  ∀ r, (p.ends r).length ≤ 1

namespace Determined

theorem one : Determined (.one f) := by
  rintro ⟨⟨before, x, n⟩, captures⟩
  cases x with
  | nil => simp [ends]
  | cons c x =>
    rw [ends]
    dsimp only
    split <;> simp

theorem eq_nil_or_singleton (hp : Determined p) (r : Reached) :
    p.ends r = [] ∨ ∃ e, p.ends r = [e] := by
  have hlength := hp r
  generalize p.ends r = l at hlength
  match l with
  | [] => exact .inl rfl
  | [e] => exact .inr ⟨e, rfl⟩

theorem seq (ha : Determined a) (hb : Determined b) : Determined (a ++ b) := by
  intro r
  change ((a.ends r).flatMap b.ends).length ≤ 1
  rcases ha.eq_nil_or_singleton r with hr | ⟨e, hr⟩
  · simp [hr]
  · rw [hr, List.flatMap_singleton]
    exact hb e

theorem congr (h : a.ends = b.ends) (hb : Determined b) : Determined a := by
  intro r
  rw [h]
  exact hb r

theorem assoc {d : Pattern} (h : Determined (a ++ (b ++ d))) : Determined (a ++ b ++ d) :=
  .congr (ends_assoc a b d) h

theorem alt (ha : Determined a) (hb : Determined b) (h : ∀ r, a.ends r = [] ∨ b.ends r = []) :
    Determined (.alt a b) := by
  intro r
  rw [ends]
  rcases h r with hr | hr
  · rw [hr, List.nil_append]
    exact hb r
  · rw [hr, List.append_nil]
    exact ha r

theorem word : Determined (word s) := by
  rw [Pattern.word]
  induction s.toList with
  | nil => exact fun r => Nat.le_refl 1
  | cons a w ih => exact .congr (ends_ofList_cons _ _) (.seq .one ih)

theorem blanks_seq (hq : Determined q) (hsolid : StartsSolid q) : Determined (blanks ++ q) := by
  rintro ⟨⟨before, x, n⟩, captures⟩
  obtain ⟨g, y, rfl, hg, hy⟩ := exists_blanks_append x
  rw [ends_blanks_seq hsolid hg hy]
  exact hq _

theorem blanks1_seq (hq : Determined q) (hsolid : StartsSolid q) : Determined (blanks1 ++ q) := by
  rintro ⟨⟨before, x, n⟩, captures⟩
  obtain ⟨g, y, rfl, hg, hy⟩ := exists_blanks_append x
  by_cases hne : g = []
  · subst hne
    rw [List.nil_append, ends_blanks1_seq_of_solid hy]
    exact Nat.zero_le 1
  · rw [ends_blanks1_seq hsolid ⟨hne, hg⟩ hy]
    exact hq _

end Determined

end Pattern

end SqlFerry.Text
