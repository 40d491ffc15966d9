import SqlFerry.Proofs.Splitter.Spelling

/-!
# Scripts of statements

A script in which every statement ends with a semicolon, with comments and blanks between the
statements, is split into the very texts of its statements, whatever their names and literals hold.
-/

namespace SqlFerry.Splitter

open Text

variable {d : Dialect} {ps qs lead a b : List Piece} {p : Piece} {cs rest : Chars}
  {texts more : List Chars} {ws : List String}

/-! ## Openings -/

def openings : List (List String) :=
  [["ALTER", "TABLE"], ["CREATE", "FULLTEXT", "INDEX"], ["CREATE", "INDEX"],
    ["CREATE", "SPATIAL", "INDEX"], ["CREATE", "TABLE"], ["CREATE", "UNIQUE", "INDEX"],
    ["DROP", "TABLE"], ["INSERT", "INTO"], ["PRAGMA"], ["SELECT"], ["SET"], ["UPDATE"]]

def spaced (ws : List String) : Chars :=
  ws.flatMap fun w => w.toList ++ [' ']

theorem spaced_cons (w : String) (ws : List String) (cs : Chars) :
    spaced (w :: ws) ++ cs = w.toList ++ ' ' :: (spaced ws ++ cs) := by
  simp [spaced]

structure IsKeyword (w : String) : Prop where
  first : w.toList.head?.any isWordStart = true
  all : w.toList.all isTagChar = true
  upper : upperWord w.toList = w

instance (w : String) : Decidable (IsKeyword w) :=
  decidable_of_iff (w.toList.head?.any isWordStart = true ∧ w.toList.all isTagChar = true ∧
    upperWord w.toList = w) ⟨fun h => ⟨h.1, h.2.1, h.2.2⟩, fun h => ⟨h.first, h.all, h.upper⟩⟩

theorem headerWords_space {w : String} (hw : IsKeyword w) (ps : List Piece) :
    headerWords (w.toList.map .plain ++ .plain ' ' :: ps) = w :: headerWords ps := by
  have htag : ∀ p ∈ (Piece.plain ' ' :: ps).head?, p.isTag = false := by
    rintro p ⟨⟩
    decide
  obtain ⟨hfirst, hall, hupper⟩ := hw
  rw [List.all_eq_true] at hall
  cases hchars : w.toList with
  | nil =>
    rw [hchars] at hfirst
    cases hfirst
  | cons c cs =>
    rw [hchars] at hfirst hall hupper
    rw [headerWords_word hfirst (fun x hx => hall x (List.mem_cons_of_mem _ hx)) htag,
      headerWords_cons rfl (by decide), hupper]

theorem headerWords_spaced (h : ∀ w ∈ ws, IsKeyword w) (ps : List Piece) :
    headerWords ((spaced ws).map .plain ++ ps) = ws ++ headerWords ps := by
  induction ws with
  | nil => rfl
  | cons w ws ih =>
    rw [spaced, List.flatMap_cons, ← spaced, List.append_assoc, List.map_append, List.append_assoc,
      List.singleton_append, List.map_cons, List.cons_append,
      headerWords_space (h w List.mem_cons_self),
      ih fun x hx => h x (List.mem_cons_of_mem _ hx), List.cons_append]

/-- After its opening no word of a statement opens a block or sets a delimiter. -/
theorem calm_spaced (hws : ws ∈ openings) (ps : List Piece) :
    Calm {} ((spaced ws).map .plain ++ ps) := by
  have hkeywords : ∀ ws ∈ openings, ∀ w ∈ ws, IsKeyword w := by decide
  have hheaders : ∀ ws ∈ openings, (ws.foldl Draft.readHeader {}).compound = some false := by
    decide
  have hfirsts : ∀ ws ∈ openings, ws ≠ [] ∧ "DELIMITER" ∉ ws := by decide
  have hwords := headerWords_spaced (hkeywords ws hws) ps
  constructor
  · rw [hwords, List.foldl_append, foldl_readHeader_of_some (hheaders ws hws)]
    simp
  · obtain ⟨hne, hdelimiter⟩ := hfirsts ws hws
    obtain ⟨w, ws, rfl⟩ := List.exists_cons_of_ne_nil hne
    rw [hwords]
    rintro - ⟨⟩
    exact hdelimiter List.mem_cons_self

/-! ## One statement -/

def EndsSolid (cs : Chars) : Prop :=
  cs.getLast?.any (!isBlank ·) = true

instance : Decidable (EndsSolid cs) :=
  inferInstanceAs (Decidable (_ = true))

theorem EndsSolid.behind (h : EndsSolid cs) (pre : Chars) : EndsSolid (pre ++ cs) := by
  obtain ⟨c, hc, hsolid⟩ := (Option.any_eq_true _ _).1 h
  rw [EndsSolid, List.getLast?_append, hc, Option.some_or]
  exact hsolid

theorem EndsSolid.ne_nil (h : EndsSolid cs) : cs ≠ [] := by
  rintro rfl
  cases h

theorem EndsSolid.not_isBlank (h : EndsSolid cs) : ∀ c ∈ cs.getLast?, isBlank c = false := by
  intro c hc
  rw [EndsSolid, hc] at h
  simpa using h

structure Forms (d : Dialect) (ps : List Piece) (cs : Chars) : Prop extends Spelling d ps cs where
  trim : Text.trim cs = cs
  first : ps.head?.any Piece.isSolid = true
  calm : Calm {} ps

theorem Forms.any_solid (h : Forms d ps cs) : ps.any Piece.isSolid = true := by
  obtain ⟨p, hp, hsolid⟩ := (Option.any_eq_true _ _).1 h.first
  exact List.any_eq_true.2 ⟨p, List.mem_of_mem_head? hp, hsolid⟩

def Formed (d : Dialect) (cs : Chars) : Prop :=
  ∃ ps, Forms d ps cs

theorem Formed.of_opening (hws : ws ∈ openings) (hrest : Spelled d rest)
    (hlast : EndsSolid rest) : Formed d (spaced ws ++ rest) := by
  have hlinks : ∀ ws ∈ openings, IsLink d (spaced ws) := by
    cases d <;> decide
  have hfirsts : ∀ ws ∈ openings, (spaced ws).head?.any (!isBlank ·) = true := by
    decide
  obtain ⟨ps, hps⟩ := hrest
  obtain ⟨c, hfirst, hsolid⟩ := (Option.any_eq_true _ _).1 (hfirsts ws hws)
  obtain ⟨cs, hcs⟩ : ∃ cs, spaced ws = c :: cs := List.head?_eq_some_iff.1 hfirst
  have hspelling : Spelling d ((spaced ws).map .plain ++ ps) (spaced ws ++ rest) :=
    Spelling.nil.link (hlinks ws hws) hps
  refine ⟨_, hspelling, trim_eq_self ?_ ?_, ?_, calm_spaced hws ps⟩
  · rw [hcs]
    rintro c ⟨⟩
    simpa using hsolid
  · exact (hlast.behind _).not_isBlank
  · rw [hcs]
    exact hsolid

/-! ## Many statements -/

/-- The pieces of a script and the texts of its statements. Each statement ends with a semicolon;
between them stand comments and blanks. -/
inductive Lays (d : Dialect) : List Piece → List Chars → Prop
  | nil : Lays d [] []
  | remark {p : Piece} {ps : List Piece} {texts : List Chars} (hsolid : p.isSolid = false)
      (hinline : p.isSemicolon = false) (hsound : p.IsSound d) (h : Lays d ps texts) :
      Lays d (p :: ps) texts
  | statement {qs ps : List Piece} {cs : Chars} {texts : List Chars} (hqs : Forms d qs cs)
      (h : Lays d ps texts) : Lays d (qs ++ .semicolon :: ps) (cs :: texts)

namespace Lays

theorem append (h : Lays d ps texts) (h' : Lays d qs more) :
    Lays d (ps ++ qs) (texts ++ more) := by
  induction h with
  | nil => exact h'
  | remark hsolid hinline hsound _ ih => exact .remark hsolid hinline hsound ih
  | statement hqs _ ih =>
    rw [List.append_assoc]
    exact .statement hqs ih

theorem sound (h : Lays d ps texts) : ∀ p ∈ ps, p.IsSound d := by
  induction h with
  | nil => simp
  | remark _ _ hsound _ ih => simpa using ⟨hsound, ih⟩
  | statement hqs _ ih =>
    intro p hp
    simp only [List.mem_append, List.mem_cons] at hp
    rcases hp with hp | rfl | hp
    · exact hqs.sound p hp
    · trivial
    · exact ih p hp

theorem isChain (h : Lays d ps texts) : ps.IsChain (Piece.MayAdjoin d) := by
  induction h with
  | nil => exact .nil
  | remark hsolid _ _ _ ih =>
    exact List.isChain_cons.2 ⟨fun q _ => remark_mayAdjoin hsolid q, ih⟩
  | statement hqs _ ih =>
    refine List.isChain_append.2 ⟨hqs.apart, List.isChain_cons.2 ⟨?_, ih⟩, ?_⟩
    · exact fun q _ => remark_mayAdjoin rfl q
    · rintro p - q ⟨⟩
      exact mayAdjoin_semicolon p

theorem calm (h : Lays d ps texts) : Calm {} ps := by
  induction h with
  | nil => exact ⟨by decide, by decide⟩
  | @remark p ps _ hsolid hinline _ _ ih =>
    have hword : isWordStart p.plainChar = false := by
      cases p with
      | plain c =>
        have hblank : isBlank c = true := by simpa [Piece.isSolid] using hsolid
        exact isWordStart_of_isBlank hblank
      | literal v | name n | lineComment cs | blockComment cs | semicolon =>
        exact (by decide : isWordStart ' ' = false)
    have hwords : headerWords (p :: ps) = headerWords ps := headerWords_cons hinline hword
    exact ⟨hwords ▸ ih.header, hwords ▸ ih.opening⟩
  | statement hqs _ _ => exact hqs.calm.append_semicolon (fun p hp => (hqs.inline p hp).1) _

theorem eq_or_of_semicolon {x y : List Piece} (hx : ∀ p ∈ x, p.isSemicolon = false)
    (h : x ++ .semicolon :: y = a ++ .semicolon :: b) :
    y = b ∨ ∃ a', y = a' ++ .semicolon :: b := by
  rcases List.append_eq_append_iff.1 h with ⟨c, rfl, hc⟩ | ⟨c, rfl, hc⟩
  · cases c with
    | nil => exact .inl (by simpa using hc)
    | cons p c => exact .inr ⟨c, by simpa using (List.cons.inj hc).2⟩
  · cases c with
    | nil => exact .inl (by simpa using hc.symm)
    | cons p c =>
      obtain ⟨rfl, -⟩ := List.cons.inj hc
      exact absurd (hx .semicolon (by simp)) (by decide)

theorem isCalm (h : Lays d ps texts) : IsCalm {} ps := by
  refine ⟨h.calm, ?_⟩
  induction h with
  | nil =>
    intro a b hab
    simp at hab
  | @remark p _ _ _ hinline _ _ ih =>
    intro a b hab
    cases a with
    | nil =>
      obtain ⟨rfl, -⟩ := List.cons.inj hab
      cases hinline
    | cons q a => exact ih a b (List.cons.inj hab).2
  | statement hqs h ih =>
    intro a b hab
    rcases eq_or_of_semicolon (fun p hp => (hqs.inline p hp).1) hab with rfl | ⟨a', ha'⟩
    · exact h.calm
    · exact ih a' b ha'

end Lays

theorem groupSize_le (g : List Piece) : groupSize d g ≤ (scriptText d g).length := by
  have hcells (p : Piece) : (p.cells d).length ≤ (p.text d).length := by
    cases p <;> simp [Piece.cells, Piece.text]
  refine List.countP_le_length.trans ?_
  induction g with
  | nil => exact Nat.le_refl _
  | cons p g ih =>
    have hp := hcells p
    rw [groupCells, scriptText, List.flatMap_cons, List.flatMap_cons, List.length_append,
      List.length_append]
    exact Nat.add_le_add hp ih

/-- What makes no statement does not count towards the size of one. -/
theorem groupSize_of_not_solid (h : ∀ p ∈ lead, p.isSolid = false) : groupSize d lead = 0 := by
  induction lead with
  | nil => rfl
  | cons p lead ih =>
    have hp : groupSize d [p] = 0 := by
      cases p with
      | plain c =>
        have hblank : isBlank c = true := by simpa [Piece.isSolid] using h _ List.mem_cons_self
        simp [groupSize, groupCells, Piece.cells, isGap, hblank]
      | literal v | name n => cases h _ List.mem_cons_self
      | lineComment cs | blockComment cs | semicolon => rfl
    rw [← List.singleton_append, groupSize_append, hp,
      ih fun q hq => h q (List.mem_cons_of_mem _ hq)]

structure Yields (d : Dialect) (g : List Piece) (cs : Chars) : Prop where
  inline : ∀ p ∈ solidPart g, p.isComment = false
  trim : Text.trim (scriptText d (solidPart g)) = cs
  size : groupSize d g ≤ cs.length

theorem Forms.yields (h : Forms d qs cs) (hlead : ∀ p ∈ lead, p.isSolid = false) :
    Yields d (lead ++ qs) cs := by
  have hnone : lead.any Piece.isSolid = false := by
    simpa [List.any_eq_false] using hlead
  have hpart : solidPart (lead ++ qs) = qs := by
    rw [solidPart_append_of_not_solid hnone, solidPart_of_head h.first]
  refine ⟨?_, ?_, ?_⟩
  · rw [hpart]
    exact fun p hp => (h.inline p hp).2
  · rw [hpart, h.text, h.trim]
  · rw [groupSize_append, groupSize_of_not_solid hlead, Nat.zero_add, ← h.text]
    exact groupSize_le qs

/-- The groups of a script yield the texts of its statements. -/
theorem Lays.groups (h : Lays d ps texts)
    (hlead : ∀ p ∈ lead, p.isSolid = false ∧ p.isSemicolon = false) :
    List.Forall₂ (Yields d) (groups (lead ++ ps)) texts := by
  induction h generalizing lead with
  | nil =>
    have hnone : lead.any Piece.isSolid = false := by
      rw [List.any_eq_false]
      intro p hp
      simp [(hlead p hp).1]
    rw [List.append_nil, groups_of_not_semicolon fun p hp => (hlead p hp).2, hnone]
    exact .nil
  | @remark p ps texts hsolid hinline _ _ ih =>
    rw [← List.singleton_append, ← List.append_assoc]
    refine ih fun q hq => ?_
    rcases List.mem_append.1 hq with hq | hq
    · exact hlead q hq
    · rw [List.mem_singleton.1 hq]
      exact ⟨hsolid, hinline⟩
  | @statement qs ps cs texts hqs _ ih =>
    have hgroup : Splitter.groups (lead ++ qs) = [lead ++ qs] := by
      rw [groups_of_not_semicolon fun p hp => ?_, List.any_append, hqs.any_solid, Bool.or_true,
        if_pos rfl]
      exact (List.mem_append.1 hp).elim (fun hp => (hlead p hp).2) fun hp => (hqs.inline p hp).1
    rw [← List.append_assoc, groups_semicolon, hgroup]
    exact .cons (hqs.yields fun p hp => (hlead p hp).1) (ih (List.forall_mem_nil _))

structure Repeats (cs : Chars) (st : Statement) : Prop where
  text : st.text = String.ofList cs
  outside : st.inRoutine = false

theorem Yields.repeats {gs : List (List Piece)} {found : List Statement}
    (h : List.Forall₂ (Yields d) gs texts) (hfound : List.Forall₂ (Renders d) gs found) :
    List.Forall₂ Repeats texts found := by
  induction h generalizing found with
  | nil =>
    cases hfound
    exact .nil
  | cons hg _ ih =>
    obtain ⟨st, found, hst, htail, rfl⟩ := List.forall₂_cons_left_iff.1 hfound
    exact .cons ⟨by rw [hst.verbatim hg.inline, hg.trim], hst.outside⟩ (ih htail)

theorem Repeats.map_text {found : List Statement} (h : List.Forall₂ Repeats texts found) :
    found.map (·.text) = texts.map String.ofList := by
  induction h with
  | nil => rfl
  | cons hst _ ih => rw [List.map_cons, List.map_cons, hst.text, ih]

theorem Yields.exists_of_mem {gs : List (List Piece)} (h : List.Forall₂ (Yields d) gs texts)
    {g : List Piece} (hg : g ∈ gs) : ∃ cs ∈ texts, Yields d g cs := by
  obtain ⟨i, hi, rfl⟩ := List.getElem_of_mem hg
  obtain ⟨hlength, hyields⟩ := List.forall₂_iff_get.1 h
  exact ⟨texts[i], List.getElem_mem _, hyields i hi (hlength ▸ hi)⟩

/-- Whether a text is a script of statements of these texts, with comments and blanks between. -/
def Laid (d : Dialect) (texts : List Chars) (cs : Chars) : Prop :=
  ∃ ps, Lays d ps texts ∧ scriptText d ps = cs

namespace Laid

theorem nil : Laid d [] [] :=
  ⟨[], .nil, rfl⟩

theorem append {cs' : Chars} (h : Laid d texts cs) (h' : Laid d more cs') :
    Laid d (texts ++ more) (cs ++ cs') := by
  obtain ⟨ps, hps, rfl⟩ := h
  obtain ⟨qs, hqs, rfl⟩ := h'
  exact ⟨ps ++ qs, hps.append hqs, scriptText_append ps qs⟩

theorem lineFeed (d : Dialect) : Laid d [] ['\n'] :=
  ⟨_, .remark (p := .plain '\n') (by decide) rfl (by cases d <;> exact ⟨by decide, by decide⟩) .nil,
    rfl⟩

theorem comment (d : Dialect) (hcs : '\n' ∉ cs) : Laid d [] ('-' :: '-' :: cs ++ ['\n']) := by
  refine ⟨_, .remark (p := .lineComment cs) rfl rfl hcs .nil, ?_⟩
  rw [scriptText, List.flatMap_singleton]
  rfl

theorem statement (h : Formed d cs) : Laid d [cs] (cs ++ [';']) := by
  obtain ⟨ps, hps⟩ := h
  refine ⟨_, .statement hps .nil, ?_⟩
  rw [scriptText_append, hps.text, scriptText, List.flatMap_singleton]
  rfl

/-- Statements that each end with a semicolon and a line feed. -/
theorem statements {xs : List String} (h : ∀ x ∈ xs, Formed d x.toList) :
    Laid d (xs.map (·.toList)) (String.join (xs.map (· ++ ";\n"))).toList := by
  induction xs with
  | nil => exact nil
  | cons x xs ih =>
    have hone := (statement (h x List.mem_cons_self)).append (lineFeed d)
    have h := hone.append (ih fun y hy => h y (List.mem_cons_of_mem _ hy))
    simpa [String.join_cons] using h

end Laid

/-- A script is split into its statements: nothing in them ends one early or opens anything, and
nothing between them is one. -/
theorem parse_repeats (h : Laid d texts cs) (maxSize : SizeLimit)
    (hsize : ∀ cs ∈ texts, maxSize.isExceededBy cs.length = false) :
    ∃ found, (parse { dialect := some d, maxSize } cs).2 = .ok found ∧
      List.Forall₂ Repeats texts found := by
  obtain ⟨ps, hlays, rfl⟩ := h
  have hgroups : List.Forall₂ (Yields d) (groups ps) texts := hlays.groups (List.forall_mem_nil _)
  obtain ⟨found, hparse, hfound⟩ := parse_pieces d maxSize ps hlays.sound hlays.isChain hlays.isCalm
    fun g hg => by
      obtain ⟨cs, hcs, hyields⟩ := Yields.exists_of_mem hgroups hg
      exact SizeLimit.isExceededBy_mono hyields.size (hsize cs hcs)
  exact ⟨found, hparse, Yields.repeats hgroups hfound⟩

theorem parse_laid (h : Laid d texts cs) (maxSize : SizeLimit)
    (hsize : ∀ cs ∈ texts, maxSize.isExceededBy cs.length = false) :
    ∃ found, (parse { dialect := some d, maxSize } cs).2 = .ok found ∧
      found.map (·.text) = texts.map String.ofList := by
  obtain ⟨found, hparse, hfound⟩ := parse_repeats h maxSize hsize
  exact ⟨found, hparse, Repeats.map_text hfound⟩

end SqlFerry.Splitter
