import SqlFerry.Proofs.Splitter.Splitting
import SqlFerry.Proofs.Value.Numerals

/-!
# Texts spelled by pieces

Texts of one statement that are put together from plain text, names and literals. Each part keeps
its place in the whole: a splitter opens nothing in it and joins it to no other.
-/

namespace SqlFerry.Splitter

open Text

variable {d : Dialect} {ps qs : List Piece} {a b cs pre gap post : Chars} {l : List Chars}
  {c : Char}

structure Spelling (d : Dialect) (ps : List Piece) (cs : Chars) : Prop where
  text : scriptText d ps = cs
  sound : ∀ p ∈ ps, p.IsSound d
  apart : ps.IsChain (Piece.MayAdjoin d)
  inline : ∀ p ∈ ps, p.isSemicolon = false ∧ p.isComment = false

def Spelled (d : Dialect) (cs : Chars) : Prop :=
  ∃ ps, Spelling d ps cs

/-! ## Plain text -/

def IsFlat (d : Dialect) (cs : Chars) : Prop :=
  ∀ c ∈ cs, c ∉ openers d ∧ c ≠ ';' ∧ c ≠ '-'

instance : Decidable (IsFlat d cs) :=
  List.decidableBAll (fun c => c ∉ openers d ∧ c ≠ ';' ∧ c ≠ '-') cs

/-- Flat text that anything may follow. -/
structure IsLink (d : Dialect) (cs : Chars) : Prop where
  flat : IsFlat d cs
  ends : cs.getLast?.any (fun c => !(Piece.plain c).isAlphanumeric) = true

instance : Decidable (IsLink d cs) :=
  decidable_of_iff (IsFlat d cs ∧ cs.getLast?.any (fun c => !(Piece.plain c).isAlphanumeric) = true)
    ⟨fun h => ⟨h.1, h.2⟩, fun h => ⟨h.flat, h.ends⟩⟩

def separators : Chars :=
  [' ', '\n', '(', ')', ',']

theorem IsLink.of_separators (hne : cs ≠ []) (hcs : ∀ c ∈ cs, c ∈ separators) : IsLink d cs where
  flat := by
    have hall : IsFlat d separators := by
      cases d <;> decide
    exact fun c hc => hall c (hcs c hc)
  ends := by
    have hnone : separators.any (fun c => (Piece.plain c).isAlphanumeric) = false := by
      decide
    obtain ⟨cs, c, rfl⟩ := (List.eq_nil_or_concat cs).resolve_left hne
    simpa using List.any_eq_false.1 hnone c (hcs c (by simp))

theorem notMem_openers_of_isWord (hword : isWord c = true) : c ∉ openers d := by
  have hopeners : (openers d).any isWord = false := by
    cases d <;> decide
  exact fun hc => List.any_eq_false.1 hopeners c hc hword

theorem IsFlat.of_words (hcs : ∀ c ∈ cs, isWord c = true ∨ c = ' ') : IsFlat d cs := by
  intro c hc
  rcases hcs c hc with hword | rfl
  · refine ⟨notMem_openers_of_isWord hword, ?_, ?_⟩
    all_goals
      rintro rfl
      exact absurd hword (by decide)
  · cases d <;> decide

theorem IsFlat.append (ha : IsFlat d a) (hb : IsFlat d b) : IsFlat d (a ++ b) :=
  fun c hc => (List.mem_append.1 hc).elim (ha c) (hb c)

theorem IsLink.behind (ha : IsFlat d a) (hcs : IsLink d cs) : IsLink d (a ++ cs) where
  flat := ha.append hcs.flat
  ends := by
    obtain ⟨c, hc, hletter⟩ := (Option.any_eq_true _ _).1 hcs.ends
    rw [List.getLast?_append, hc, Option.some_or]
    exact hletter

/-! ## Next to each other -/

theorem mayAdjoin_plain (hc : c ≠ '-') (p : Piece) : p.MayAdjoin d (.plain c) where
  quoted := fun _ => rfl
  escape := by
    rintro - ⟨⟩
  dash := by
    refine fun _ => ⟨?_, rfl⟩
    rintro ⟨⟩
    exact hc rfl

theorem plain_mayAdjoin (hc : c ≠ '-') (hletter : (Piece.plain c).isAlphanumeric = false)
    (p : Piece) : (Piece.plain c).MayAdjoin d p where
  quoted := by
    rintro ⟨⟩
  escape := fun _ _ => hletter
  dash := by
    rintro ⟨⟩
    exact absurd rfl hc

theorem remark_mayAdjoin {p : Piece} (hsolid : p.isSolid = false) (q : Piece) :
    p.MayAdjoin d q := by
  cases p with
  | plain c =>
    have hblank : isBlank c = true := by simpa [Piece.isSolid] using hsolid
    refine plain_mayAdjoin ?_ ?_ q
    · rintro rfl
      exact absurd hblank (by decide)
    · rw [Piece.isAlphanumeric, Bool.eq_false_iff]
      intro hletter
      have htag : isTagChar c = true := by
        rw [isTagChar, isWordStart]
        rcases Bool.or_eq_true_iff.1 hletter with h | h <;> simp [h]
      rw [not_isBlank_of_isTagChar htag] at hblank
      cases hblank
  | literal v | name n => cases hsolid
  | lineComment cs | blockComment cs | semicolon =>
    refine ⟨?_, fun _ _ => rfl, ?_⟩ <;> rintro ⟨⟩

theorem mayAdjoin_semicolon (p : Piece) : p.MayAdjoin d .semicolon where
  quoted := fun _ => rfl
  escape := by
    rintro - ⟨⟩
  dash := fun _ => ⟨by rintro ⟨⟩, rfl⟩

namespace Spelling

theorem nil : Spelling d [] [] :=
  ⟨rfl, by simp, .nil, by simp⟩

/-- Plain text that opens no quote and no comment. -/
theorem plain (hcs : ∀ c ∈ cs, c ∉ openers d ∧ c ≠ ';')
    (hdash : cs.IsChain fun a b => a = '-' → b ≠ '-') : Spelling d (cs.map .plain) cs where
  text := scriptText_plain cs
  sound := by
    intro p hp
    obtain ⟨c, hc, rfl⟩ := List.mem_map.1 hp
    exact hcs c hc
  apart := by
    rw [List.isChain_map]
    refine hdash.imp fun a b hab => ⟨fun _ => rfl, by rintro - ⟨⟩, fun ha => ⟨?_, rfl⟩⟩
    cases ha
    rintro ⟨⟩
    exact hab rfl rfl
  inline := by
    intro p hp
    obtain ⟨c, hc, rfl⟩ := List.mem_map.1 hp
    exact ⟨rfl, rfl⟩

theorem flat (hcs : IsFlat d cs) : Spelling d (cs.map .plain) cs := by
  refine plain (fun c hc => ⟨(hcs c hc).1, (hcs c hc).2.1⟩)
    (List.Pairwise.isChain (List.pairwise_of_forall_mem_list ?_))
  intro a ha _ _ hdash
  exact absurd hdash (hcs a ha).2.2

theorem one {p : Piece} (hsound : p.IsSound d) (hinline : p.isSemicolon = false)
    (hcomment : p.isComment = false) : Spelling d [p] (p.text d) where
  text := by
    rw [scriptText, List.flatMap_singleton]
  sound := by simpa using hsound
  apart := .singleton p
  inline := by simpa using ⟨hinline, hcomment⟩

theorem append (ha : Spelling d ps a) (hb : Spelling d qs b)
    (hapart : ∀ p ∈ ps.getLast?, ∀ q ∈ qs.head?, p.MayAdjoin d q) :
    Spelling d (ps ++ qs) (a ++ b) where
  text := by rw [scriptText_append, ha.text, hb.text]
  sound := fun p hp => (List.mem_append.1 hp).elim (ha.sound p) (hb.sound p)
  apart := List.isChain_append.2 ⟨ha.apart, hb.apart, hapart⟩
  inline := fun p hp => (List.mem_append.1 hp).elim (ha.inline p) (hb.inline p)

/-- Flat text behind another. -/
theorem after (ha : Spelling d ps a) (hcs : IsFlat d cs) :
    Spelling d (ps ++ cs.map .plain) (a ++ cs) := by
  refine ha.append (flat hcs) fun p _ q hq => ?_
  obtain ⟨c, hc, rfl⟩ := List.mem_map.1 (List.mem_of_mem_head? hq)
  exact mayAdjoin_plain (hcs c hc).2.2 p

/-- A link may stand between any two texts. -/
theorem link (ha : Spelling d ps a) (hcs : IsLink d cs) (hb : Spelling d qs b) :
    Spelling d (ps ++ cs.map .plain ++ qs) (a ++ cs ++ b) := by
  refine (ha.after hcs.flat).append hb fun p hp q _ => ?_
  obtain ⟨hflat, hends⟩ := hcs
  obtain ⟨c, hlast, hletter⟩ := (Option.any_eq_true _ _).1 hends
  obtain ⟨cs, rfl⟩ : ∃ cs', cs = cs' ++ [c] := List.getLast?_eq_some_iff.1 hlast
  rw [List.map_append, List.map_singleton, ← List.append_assoc, List.getLast?_append,
    List.getLast?_singleton, Option.some_or, Option.mem_some_iff] at hp
  exact hp ▸ plain_mayAdjoin (hflat c (by simp)).2.2 (by simpa using hletter) q

end Spelling

namespace Spelled

theorem nil : Spelled d [] :=
  ⟨_, .nil⟩

theorem flat (hcs : IsFlat d cs) : Spelled d cs :=
  ⟨_, .flat hcs⟩

theorem name (d : Dialect) (n : String) : Spelled d (d.quote n).toList :=
  ⟨_, .one (p := .name n) trivial rfl rfl⟩

theorem literal (d : Dialect) (v : String) : Spelled d (d.textLiteral v).toList :=
  ⟨_, .one (p := .literal v) trivial rfl rfl⟩

theorem number (h : Value.IsNumberText cs) : Spelled d cs := by
  refine ⟨_, .plain (fun c hc => ?_) h.dashes⟩
  have hopeners : (';' :: openers d).any (fun x => Value.isNumberChar x || x == '-') = false := by
    cases d <;> decide
  have hother : c ∉ ';' :: openers d := by
    intro hmem
    refine List.any_eq_false.1 hopeners c hmem ?_
    simpa using h.chars c hc
  simpa [and_comm] using hother

theorem link (ha : Spelled d a) (hcs : IsLink d cs) (hb : Spelled d b) :
    Spelled d (a ++ cs ++ b) := by
  obtain ⟨ps, hps⟩ := ha
  obtain ⟨qs, hqs⟩ := hb
  exact ⟨_, hps.link hcs hqs⟩

theorem before (hcs : IsLink d cs) (hb : Spelled d b) : Spelled d (cs ++ b) :=
  nil.link hcs hb

theorem after (ha : Spelled d a) (hcs : IsFlat d cs) : Spelled d (a ++ cs) := by
  obtain ⟨ps, hps⟩ := ha
  exact ⟨_, hps.after hcs⟩

theorem intercalate (hl : ∀ x ∈ l, Spelled d x) (hgap : IsLink d gap) :
    Spelled d (gap.intercalate l) := by
  induction l with
  | nil => exact nil
  | cons x l ih =>
    have hx := hl x List.mem_cons_self
    have hrest := ih fun y hy => hl y (List.mem_cons_of_mem _ hy)
    cases l with
    | nil => rwa [List.intercalate_singleton]
    | cons y l =>
      rw [List.intercalate_cons_cons]
      exact hx.link hgap hrest

/-- A list in parentheses behind a text. -/
theorem group (ha : Spelled d a) (hl : ∀ x ∈ l, Spelled d x)
    (hpre : ∀ c ∈ pre, c = ' ' ∨ c = '\n') (hgap : ∀ c ∈ gap, c = ' ' ∨ c = '\n')
    (hpost : ∀ c ∈ post, c = ' ' ∨ c = '\n') :
    Spelled d (a ++ ('(' :: (pre ++ (',' :: gap).intercalate l ++ post) ++ [')'])) := by
  have hlink {c : Char} {cs : Chars} (hc : c ∈ separators) (hcs : ∀ c ∈ cs, c = ' ' ∨ c = '\n') :
      IsLink d (c :: cs) := by
    refine .of_separators (List.cons_ne_nil _ _) fun x hx => ?_
    rcases List.mem_cons.1 hx with rfl | hx
    · exact hc
    · rcases hcs x hx with rfl | rfl <;> decide
  have hclose : IsFlat d (post ++ [')']) := by
    refine (IsLink.of_separators (d := d) (by simp) fun c hc => ?_).flat
    rcases List.mem_append.1 hc with hc | hc
    · rcases hpost c hc with rfl | rfl <;> decide
    · rw [List.mem_singleton.1 hc]
      decide
  have h := (ha.link (hlink (c := '(') (by decide) hpre)
    (intercalate hl (hlink (c := ',') (by decide) hgap))).after hclose
  simpa only [List.append_assoc, List.cons_append] using h

end Spelled

end SqlFerry.Splitter
