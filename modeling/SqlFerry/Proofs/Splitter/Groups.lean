import SqlFerry.Proofs.Splitter.Pieces
import SqlFerry.Proofs.Text.Blanks

/-!
# One statement for each group

Along a script made of pieces, the draft holds what the pieces since the last semicolon leave, up to
the length of blanks. Each kind of piece keeps this, and a semicolon makes a statement of the group
before it.
-/

namespace SqlFerry.Splitter

open Text

/-! ## Drafts that hold a text -/

structure Draft.Holds (dr : Draft) (ms : List Cell) : Prop where
  out : dr.out.reverse = ms.map Prod.fst
  framed : Framed ms
  endsOpen : dr.trailingSpace = true ∨ dr.afterComment = true → EndsOpen ms

namespace Draft.Holds

variable {dr dr' : Draft} {ms b : List Cell} {m : Cell} {c : Char}

theorem isEmpty_out (h : dr.Holds ms) : dr.out.isEmpty = ms.isEmpty := by
  have := congrArg List.isEmpty h.out
  simpa using this

/-- A blank is taken, or the text is as good without it. -/
theorem pushBlank (h : dr.Holds ms) (hb : SameRuns ms b) (hc : isBlank c = true)
    (hm : isGap m = true) : ∃ ms', (dr.pushBlank c).Holds ms' ∧ SameRuns ms' (b ++ [m]) := by
  have hgap : isGap (c, false) = true := by simp [isGap, hc]
  unfold Draft.pushBlank
  split
  · next hskip =>
    refine ⟨ms, h, hb.more_gap ?_ hm⟩
    rw [h.isEmpty_out, Bool.or_eq_true] at hskip
    rcases hskip with hempty | hafter
    · rw [List.isEmpty_iff.1 hempty]
      simp [EndsOpen]
    · exact h.endsOpen (.inr hafter)
  · next hkeep =>
    have hms : ms ≠ [] := by
      rintro rfl
      simp [h.isEmpty_out] at hkeep
    refine ⟨ms ++ [(c, false)], ⟨?_, h.framed.append_gap hms hgap, fun _ => endsOpen_concat hgap⟩,
      hb.gap hgap hm⟩
    simp [h.out]

/-- A removed comment is worth a blank. -/
theorem gap (h : dr.Holds ms) (hb : SameRuns ms b) (hm : isGap m = true) :
    ∃ ms', dr.gap.Holds ms' ∧ SameRuns ms' (b ++ [m]) := by
  have hspace : isGap (' ', false) = true := by decide
  have hnil : EndsOpen [] := by simp [EndsOpen]
  unfold Draft.gap
  dsimp only
  split
  · next hskip =>
    have hopen : EndsOpen ms := by
      rw [h.isEmpty_out, Bool.or_eq_true] at hskip
      rcases hskip with hempty | htrailing
      · rw [List.isEmpty_iff.1 hempty]
        exact hnil
      · exact h.endsOpen (.inl htrailing)
    exact ⟨ms, ⟨h.out, h.framed, fun _ => hopen⟩, hb.more_gap hopen hm⟩
  · next hkeep =>
    have hms : ms ≠ [] := by
      rintro rfl
      simp [h.isEmpty_out] at hkeep
    refine ⟨ms ++ [(' ', false)], ⟨?_, h.framed.append_gap hms hspace,
      fun _ => endsOpen_concat hspace⟩, hb.gap hspace hm⟩
    simp [h.out]

/-- A line comment with its line end leaves one space like any other comment. -/
theorem pushBlank_gap (dr : Draft) (c : Char) : dr.gap.pushBlank c = dr.gap := by
  have hafter : dr.gap.afterComment = true := by
    unfold Draft.gap
    dsimp only
    split <;> rfl
  rw [Draft.pushBlank, hafter, Bool.or_true, if_pos rfl]

theorem token (h : dr.Holds ms) {cells : List Cell} (hcells : cells ≠ [])
    (hfirst : ∀ m ∈ cells.head?, isBlank m.1 = false)
    (hlast : ∀ m ∈ cells.getLast?, isBlank m.1 = false)
    (hout : dr'.out = (cells.map Prod.fst).reverse ++ dr.out)
    (htrailing : dr'.trailingSpace = false) (hafter : dr'.afterComment = false) :
    dr'.Holds (ms ++ cells) where
  out := by rw [hout, List.reverse_append, List.reverse_reverse, h.out, List.map_append]
  framed := h.framed.append hcells hfirst hlast
  endsOpen := by simp [htrailing, hafter]

end Draft.Holds

/-! ## Characters and words -/

section Characters

variable {c : Char} {cs : Chars}

/-- A word that is an `E` in upper case is one letter. -/
theorem letter_of_upperWord (h : upperWord (c :: cs) = "E") :
    cs = [] ∧ isAsciiLetter c = true := by
  have hchars : (c :: cs).map Char.toUpper = ['E'] := by
    have := congrArg String.toList h
    simpa [upperWord] using this
  obtain ⟨hupper, hnil⟩ := List.cons_eq_cons.1 hchars
  refine ⟨List.map_eq_nil_iff.1 hnil, ?_⟩
  unfold Char.toUpper at hupper
  split at hupper
  · next hlower =>
    rw [isAsciiLetter, Bool.or_eq_true, Bool.and_eq_true, decide_eq_true_eq, decide_eq_true_eq]
    exact .inl hlower
  · rw [hupper]
    decide

/-- Outside of routines a word changes nothing but the header. -/
theorem nest_of_calm {dr : Draft} {word : String} (h : (dr.readHeader word).compound ≠ some true) :
    dr.nest word = dr.readHeader word := by
  unfold Draft.nest
  simp [h]

end Characters

/-! ## Between two pieces -/

variable {o : Options} {d : Dialect} {s t : Splitter} {g q ps : List Piece} {p : Piece}
  {rest : Chars}

def solidPart (g : List Piece) : List Piece :=
  g.dropWhile (!·.isSolid)

theorem solidPart_of_not_solid (hg : g.any Piece.isSolid = false) : solidPart g = [] := by
  refine List.dropWhile_eq_nil_iff.2 fun p hp => ?_
  simp [List.any_eq_false.1 hg p hp]

theorem solidPart_of_head (hq : q.head?.any Piece.isSolid = true) : solidPart q = q := by
  obtain ⟨p, hp, hsolid⟩ := (Option.any_eq_true _ _).1 hq
  obtain ⟨q, rfl⟩ : ∃ q', q = p :: q' := List.head?_eq_some_iff.1 hp
  exact List.dropWhile_cons_of_neg (by simp [hsolid])

theorem solidPart_ne_nil (hg : g.any Piece.isSolid = true) : solidPart g ≠ [] := by
  intro hnil
  obtain ⟨p, hp, hsolid⟩ := List.any_eq_true.1 hg
  have := List.dropWhile_eq_nil_iff.1 hnil p hp
  rw [hsolid] at this
  cases this

theorem solidPart_append_of_not_solid (hg : g.any Piece.isSolid = false) (q : List Piece) :
    solidPart (g ++ q) = solidPart q :=
  List.dropWhile_append_of_pos fun p hp => by simp [List.any_eq_false.1 hg p hp]

theorem solidPart_append_of_solid (hg : g.any Piece.isSolid = true) (q : List Piece) :
    solidPart (g ++ q) = solidPart g ++ q := by
  rw [solidPart, List.dropWhile_append, if_neg]
  · rfl
  · rw [List.isEmpty_iff]
    exact solidPart_ne_nil hg

theorem scriptText_ne_nil (hq : ∃ p ∈ q.head?, p.isSolid = true) : scriptText d q ≠ [] := by
  obtain ⟨p, hp, hsolid⟩ := hq
  obtain ⟨q, rfl⟩ : ∃ q', q = p :: q' := List.head?_eq_some_iff.1 hp
  have htext : p.text d ≠ [] := by
    cases p with
    | plain c => exact List.cons_ne_nil _ _
    | literal v =>
      rw [Piece.text, Dialect.literal, Dialect.toList_textLiteral]
      exact List.cons_ne_nil _ _
    | name n =>
      rw [Piece.text, Dialect.toList_quote]
      exact List.cons_ne_nil _ _
    | lineComment cs | blockComment cs | semicolon => cases hsolid
  rw [scriptText, List.flatMap_cons]
  exact List.append_ne_nil_of_left_ne_nil htext _

theorem scriptText_solidPart_ne_nil (hg : g.any Piece.isSolid = true) :
    scriptText d (solidPart g) ≠ [] := by
  obtain ⟨p, q, hpart⟩ := List.exists_cons_of_ne_nil (solidPart_ne_nil hg)
  refine scriptText_ne_nil ⟨p, by rw [hpart]; rfl, ?_⟩
  have hp := List.head_dropWhile_not (p := (!Piece.isSolid ·)) (l := g) (solidPart_ne_nil hg)
  change (!((solidPart g).head (solidPart_ne_nil hg)).isSolid) = false at hp
  simpa [hpart] using hp

/-- A statement of the group outside of routines, with the very text of the group if comments stand
only in front. -/
structure Renders (d : Dialect) (group : List Piece) (st : Statement) : Prop
    extends IsStatementOf d group st where
  verbatim : (∀ p ∈ solidPart group, p.isComment = false) →
    st.text = String.ofList (trim (scriptText d (solidPart group)))
  outside : st.inRoutine = false

def Draft.SameHeading (a b : Draft) : Prop :=
  a.header = b.header ∧ a.compound = b.compound

/-- Where a splitter is once the pieces `g` of a group are read. The draft holds their very text
unless comments stand within it. -/
structure Ready (d : Dialect) (s : Splitter) (g : List Piece) : Prop where
  mode : s.mode = .normal
  delimiter : s.delimiter = [';']
  holds : ∃ ms, s.draft.Holds ms ∧ SameRuns ms (groupCells d g)
  size : s.draft.size = groupSize d g
  start : s.draft.start.isSome = g.any Piece.isSolid
  outside : s.draft.routine = false
  verbatim : (∀ p ∈ solidPart g, p.isComment = false) →
    s.draft.out.reverse = scriptText d (solidPart g) ∧
      (g.any Piece.isSolid = true → s.draft.afterComment = false)
  wordEnd : ∀ n ∈ s.draft.lastWordEnd, n ≤ s.offset
  escape : (∀ p ∈ g.getLast?, p.isAlphanumeric = false) → s.draft.lastWordEnd = some s.offset →
    upperWord s.draft.lastWord ≠ "E"

theorem groupCells_append (g q : List Piece) :
    groupCells d (g ++ q) = groupCells d g ++ groupCells d q :=
  List.flatMap_append

theorem groupSize_append (g q : List Piece) :
    groupSize d (g ++ q) = groupSize d g + groupSize d q := by
  rw [groupSize, groupCells_append, List.countP_append, groupSize, groupSize]

theorem groups_of_not_semicolon (hg : ∀ p ∈ g, p.isSemicolon = false) :
    groups g = if g.any Piece.isSolid then [g] else [] := by
  rw [groups, List.splitOnP_eq_singleton hg, List.filter_singleton]
  cases g.any Piece.isSolid <;> rfl

/-- The cell that makes a statement of a group. -/
theorem exists_not_gap (hg : g.any Piece.isSolid = true) :
    ∃ m ∈ groupCells d g, isGap m = false := by
  obtain ⟨p, hp, hsolid⟩ := List.any_eq_true.1 hg
  have hcell : ∃ m ∈ p.cells d, isGap m = false := by
    cases p with
    | plain c =>
      exact ⟨(c, false), by simp [Piece.cells], by simpa [isGap, Piece.isSolid] using hsolid⟩
    | literal v =>
      refine ⟨('\'', true), ?_, rfl⟩
      simp only [Piece.cells, Piece.text, List.mem_map, Prod.mk.injEq, and_true, exists_eq_right]
      rw [Dialect.literal, Dialect.toList_textLiteral]
      exact List.mem_cons_self
    | name n =>
      refine ⟨(d.nameQuote, true), ?_, rfl⟩
      simp only [Piece.cells, Piece.text, List.mem_map, Prod.mk.injEq, and_true, exists_eq_right]
      rw [Dialect.toList_quote]
      exact List.mem_cons_self
    | lineComment cs => cases hsolid
    | blockComment cs => cases hsolid
    | semicolon => cases hsolid
  obtain ⟨m, hm, hgap⟩ := hcell
  exact ⟨m, List.mem_flatMap.2 ⟨p, hp, hm⟩, hgap⟩

theorem ready_of_fresh (hmode : s.mode = .normal) (hdelimiter : s.delimiter = [';'])
    (hdraft : s.draft = {}) : Ready d s [] where
  mode := hmode
  delimiter := hdelimiter
  holds := ⟨[], hdraft ▸ ⟨rfl, .nil, fun _ => by simp [EndsOpen]⟩, .refl []⟩
  size := by rw [hdraft]; rfl
  start := by rw [hdraft]; rfl
  outside := by rw [hdraft]
  verbatim := by
    rw [hdraft]
    exact fun _ => ⟨rfl, fun _ => rfl⟩
  wordEnd := by
    rw [hdraft]
    intro n hn
    cases hn
  escape := by
    rw [hdraft]
    intro _ hn
    cases hn

namespace Ready

variable {cells : List Cell} {cs : Chars} {m : Cell}

theorem ne_nil_of_cells (hq : groupCells d q = cells) (hcells : cells ≠ []) : q ≠ [] := by
  rintro rfl
  exact hcells hq.symm

/-- A token leaves its characters, none of which is a blank outside quotes. -/
theorem token (h : Ready d s g) (hq : groupCells d q = cells)
    (htext : scriptText d q = cells.map Prod.fst) (hcells : cells ≠ [])
    (hgap : ∀ m ∈ cells, isGap m = false) (hfirst : ∀ m ∈ cells.head?, isBlank m.1 = false)
    (hlast : ∀ m ∈ cells.getLast?, isBlank m.1 = false) (hsolid : ∀ p ∈ q, p.isSolid = true)
    (hmode : t.mode = .normal) (hdelimiter : t.delimiter = [';'])
    (hout : t.draft.out = (cells.map Prod.fst).reverse ++ s.draft.out)
    (hsize : t.draft.size = s.draft.size + cells.length) (hstart : t.draft.start.isSome = true)
    (houtside : t.draft.routine = s.draft.routine)
    (htrailing : t.draft.trailingSpace = false) (hafter : t.draft.afterComment = false)
    (hword : ∀ n ∈ t.draft.lastWordEnd, n ≤ t.offset)
    (hescape : (∀ p ∈ q.getLast?, p.isAlphanumeric = false) →
      t.draft.lastWordEnd = some t.offset → upperWord t.draft.lastWord ≠ "E") :
    Ready d t (g ++ q) where
  mode := hmode
  delimiter := hdelimiter
  holds := by
    obtain ⟨ms, hms, hsame⟩ := h.holds
    refine ⟨ms ++ cells, hms.token hcells hfirst hlast hout htrailing hafter, ?_⟩
    rw [groupCells_append, hq]
    exact hsame.append cells
  size := by
    have hcount : groupSize d q = cells.length := by
      rw [groupSize, hq, List.countP_eq_length]
      simpa using hgap
    rw [groupSize_append, hsize, h.size, hcount]
  start := by
    obtain ⟨p, hp⟩ := List.exists_mem_of_ne_nil q (ne_nil_of_cells hq hcells)
    rw [hstart, List.any_append, List.any_eq_true.2 ⟨p, hp, hsolid p hp⟩, Bool.or_true]
  outside := houtside.trans h.outside
  verbatim := by
    intro hcomment
    refine ⟨?_, fun _ => hafter⟩
    rw [hout, List.reverse_append, List.reverse_reverse, ← htext]
    by_cases hg : g.any Piece.isSolid = true
    · rw [solidPart_append_of_solid hg] at hcomment ⊢
      rw [scriptText_append, (h.verbatim fun p hp => hcomment p (List.mem_append_left _ hp)).1]
    · have hg : g.any Piece.isSolid = false := by simpa using hg
      have hnone := solidPart_of_not_solid hg
      have hhead : q.head?.any Piece.isSolid = true := by
        obtain ⟨p, q, rfl⟩ := List.exists_cons_of_ne_nil (ne_nil_of_cells hq hcells)
        exact hsolid p List.mem_cons_self
      rw [(h.verbatim (by simp [hnone])).1, hnone, solidPart_append_of_not_solid hg,
        solidPart_of_head hhead]
      rfl
  wordEnd := hword
  escape := by
    obtain ⟨init, p, rfl⟩ := (List.eq_nil_or_concat q).resolve_left (ne_nil_of_cells hq hcells)
    simpa [← List.append_assoc] using hescape

/-- A token other than a word. -/
theorem push (h : Ready d s g) {quoted : Bool} (hp : p.cells d = cs.map (·, quoted))
    (hsolid : p.isSolid = true) (hcs : cs ≠ [])
    (hgap : ∀ c ∈ cs, isGap (c, quoted) = false) (hfirst : ∀ c ∈ cs.head?, isBlank c = false)
    (hlast : ∀ c ∈ cs.getLast?, isBlank c = false) (hdelimiter : t.delimiter = s.delimiter)
    (hoffset : t.offset = s.offset) :
    Ready d (t.goTo .normal ((s.draft.begin s.offset s.line).push cs) cs) (g ++ [p]) := by
  have hlength : 0 < cs.length := List.length_pos_iff.2 hcs
  have hword : (s.draft.begin s.offset s.line).lastWordEnd = s.draft.lastWordEnd :=
    Draft.begin_lastWordEnd _ _ _
  have hcells : groupCells d [p] = cs.map (·, quoted) := by simpa [groupCells] using hp
  have hchars : scriptText d [p] = (cs.map (·, quoted)).map Prod.fst := by
    rw [← hp, scriptText, List.flatMap_singleton, Piece.map_cells hsolid]
  refine h.token hcells hchars (by simpa using hcs) (by simpa using hgap) (by simpa using hfirst)
    (by simpa using hlast) (by simpa using hsolid) rfl (hdelimiter.trans h.delimiter)
    (by simp [Draft.push, Function.comp_def]) (by simp [Draft.push]) (Draft.begin_start _ _ _)
    (Draft.begin_routine _ _ _) rfl rfl ?_ ?_
  · intro n hn
    have := h.wordEnd n (hword ▸ hn)
    simp only [goTo_offset]
    omega
  · intro _ hn
    have := h.wordEnd _ (hword ▸ hn)
    simp only [goTo_offset] at this
    omega

/-- A blank or a comment. -/
theorem space (h : Ready d s g) (hp : p.cells d = [m]) (hm : isGap m = true)
    (hsolid : p.isSolid = false) (hmode : t.mode = .normal) (hdelimiter : t.delimiter = s.delimiter)
    (hoffset : s.offset < t.offset)
    (hholds : ∀ ms b, s.draft.Holds ms → SameRuns ms b →
      ∃ ms', t.draft.Holds ms' ∧ SameRuns ms' (b ++ [m]))
    (hsize : t.draft.size = s.draft.size) (hstart : t.draft.start = s.draft.start)
    (houtside : t.draft.routine = s.draft.routine)
    (hnil : s.draft.out = [] → t.draft.out = [])
    (hverbatim : p.isComment = false → s.draft.afterComment = false → s.draft.out ≠ [] →
      t.draft.out.reverse = s.draft.out.reverse ++ p.text d ∧ t.draft.afterComment = false)
    (hword : t.draft.lastWordEnd = s.draft.lastWordEnd) : Ready d t (g ++ [p]) where
  mode := hmode
  delimiter := hdelimiter.trans h.delimiter
  holds := by
    obtain ⟨ms, hms, hsame⟩ := h.holds
    have hcells : groupCells d [p] = [m] := by simpa [groupCells] using hp
    rw [groupCells_append, hcells]
    exact hholds ms _ hms hsame
  size := by
    have hcount : groupSize d [p] = 0 := by simp [groupSize, groupCells, hp, hm]
    rw [groupSize_append, hsize, h.size, hcount, Nat.add_zero]
  start := by rw [hstart, h.start, List.any_append]; simp [hsolid]
  outside := houtside.trans h.outside
  verbatim := by
    intro hcomment
    by_cases hg : g.any Piece.isSolid = true
    · rw [solidPart_append_of_solid hg] at hcomment ⊢
      obtain ⟨hout, hafter⟩ := h.verbatim fun p hp => hcomment p (List.mem_append_left _ hp)
      have hne : s.draft.out ≠ [] := by
        intro hnone
        rw [hnone, List.reverse_nil] at hout
        exact scriptText_solidPart_ne_nil hg hout.symm
      obtain ⟨hout', hafter'⟩ := hverbatim (hcomment p (by simp)) (hafter hg) hne
      refine ⟨?_, fun _ => hafter'⟩
      rw [hout', hout, scriptText_append, scriptText, scriptText, List.flatMap_singleton]
    · have hg : g.any Piece.isSolid = false := by simpa using hg
      have hnone := solidPart_of_not_solid hg
      have hout := (h.verbatim (by simp [hnone])).1
      rw [hnone] at hout
      have hp : solidPart [p] = [] := solidPart_of_not_solid (by simpa using hsolid)
      rw [solidPart_append_of_not_solid hg, hp, hnil (List.reverse_eq_nil_iff.1 hout)]
      exact ⟨rfl, by simp [hg, hsolid]⟩
  wordEnd := by
    intro n hn
    have := h.wordEnd n (hword ▸ hn)
    omega
  escape := by
    intro _ hn
    have := h.wordEnd _ (hword ▸ hn)
    omega

/-! ## Each kind of piece -/

variable {c : Char}

theorem passes_plain (h : Ready d s g) (ho : o.dialect = some d) (hc : (Piece.plain c).IsSound d)
    (hword : isWordStart c = false) (hblank : isBlank c = false)
    (hdash : c = '-' → rest.head? ≠ some '-')
    (hsize : o.maxSize.isExceededBy (groupSize d (g ++ [.plain c])) = false) :
    ∃ t, Passes o s [c] rest t ∧ Ready d t (g ++ [.plain c]) ∧ t.draft.SameHeading s.draft := by
  have hgap : isGap (c, false) = false := by simp [isGap, hblank]
  have hcount : groupSize d [.plain c] = 1 := by
    simp [groupSize, groupCells, Piece.cells, hgap]
  rw [groupSize_append, hcount, ← h.size] at hsize
  have hsymbol : o.isSymbol c = true := by
    have hopeners := hc.1
    simp only [openers, List.mem_append, List.mem_cons, List.not_mem_nil, or_false,
      not_or] at hopeners
    have hbracket : (c == '[' && o.brackets) = false := by
      rw [Options.brackets, ho]
      cases d with
      | sqlite => simpa using hopeners.2
      | mysql | postgresql => simp
    simp [Options.isSymbol, hc.2, hword, hblank, hopeners.1, hbracket]
  have hslash : c = '/' → rest.head? ≠ some '*' := by
    rintro rfl
    exact absurd (by cases d <;> decide) hc.1
  exact ⟨_, passes_symbol h.mode h.delimiter hsymbol hdash hslash hsize,
    h.push rfl (by simp [Piece.isSolid, hblank]) (by simp) (by simpa using hgap)
      (by simpa using hblank) (by simpa using hblank) rfl rfl,
      by simp [Draft.SameHeading, Draft.push]⟩

theorem passes_blank (h : Ready d s g) (hc : isBlank c = true) :
    ∃ t, Passes o s [c] rest t ∧ Ready d t (g ++ [.plain c]) ∧ t.draft.SameHeading s.draft := by
  have hgap : isGap (c, false) = true := by simp [isGap, hc]
  have hkeep : (s.draft.pushBlank c).size = s.draft.size ∧
      (s.draft.pushBlank c).start = s.draft.start ∧
      (s.draft.pushBlank c).routine = s.draft.routine ∧
      (s.draft.pushBlank c).lastWordEnd = s.draft.lastWordEnd ∧
      (s.draft.pushBlank c).SameHeading s.draft := by
    unfold Draft.pushBlank Draft.SameHeading
    split <;> simp
  obtain ⟨hsize, hstart, houtside, hword, hheading⟩ := hkeep
  refine ⟨_, Splitter.passes_blank h.mode h.delimiter hc,
    h.space rfl hgap (by simp [Piece.isSolid, hc]) rfl rfl (by simp)
      (fun _ _ hms hb => hms.pushBlank hb hc hgap) hsize hstart houtside (fun hnil => ?_)
      (fun _ hafter hne => ?_) hword,
    hheading⟩
  · simp [Draft.pushBlank, hnil]
  · have hkeep : (s.draft.out.isEmpty || s.draft.afterComment) = false := by simp [hafter, hne]
    rw [goTo_draft, Draft.pushBlank, hkeep]
    exact ⟨by simp [Piece.text], hafter⟩

theorem comment (h : Ready d s g) (hp : p.cells d = [(' ', false)]) (hsolid : p.isSolid = false)
    (hcomment : p.isComment = true) (hdelimiter : t.delimiter = s.delimiter)
    (hoffset : t.offset = s.offset) (hcs : cs ≠ []) :
    Ready d (t.goTo .normal s.draft.gap cs) (g ++ [p]) ∧ s.draft.gap.SameHeading s.draft := by
  have hgap : isGap (' ', false) = true := by decide
  have hlength : 0 < cs.length := List.length_pos_iff.2 hcs
  have hkeep : s.draft.gap.size = s.draft.size ∧ s.draft.gap.start = s.draft.start ∧
      s.draft.gap.routine = s.draft.routine ∧
      s.draft.gap.lastWordEnd = s.draft.lastWordEnd ∧ s.draft.gap.SameHeading s.draft := by
    unfold Draft.gap Draft.SameHeading
    dsimp only
    split <;> simp
  obtain ⟨hsize, hstart, houtside, hword, hheading⟩ := hkeep
  refine ⟨h.space hp hgap hsolid rfl hdelimiter (by simp only [goTo_offset]; omega)
    (fun _ _ hms hb => hms.gap hb hgap) hsize hstart houtside (fun hnil => ?_)
      (fun hplain => ?_) hword, hheading⟩
  · simp [Draft.gap, hnil]
  · rw [hcomment] at hplain
    cases hplain

theorem passes_lineComment (h : Ready d s g) (hk : o.keepComments = false) (hcs : '\n' ∉ cs) :
    ∃ t, Passes o s ((Piece.lineComment cs).text d) rest t ∧
      Ready d t (g ++ [.lineComment cs]) ∧ t.draft.SameHeading s.draft := by
  have hpass : Passes o s _ rest _ := Splitter.passes_lineComment h.mode h.delimiter hk hcs
  rw [Draft.Holds.pushBlank_gap] at hpass
  exact ⟨_, hpass, h.comment rfl rfl rfl rfl rfl (by simp)⟩

theorem passes_blockComment (h : Ready d s g) (hk : o.keepComments = false)
    (hcs : ¬['*', '/'] <:+: cs) (hbang : cs.head? ≠ some '!') :
    ∃ t, Passes o s ((Piece.blockComment cs).text d) rest t ∧
      Ready d t (g ++ [.blockComment cs]) ∧ t.draft.SameHeading s.draft :=
  ⟨_, Splitter.passes_blockComment h.mode h.delimiter hk hcs hbang,
    h.comment rfl rfl rfl rfl rfl (by simp)⟩

/-- A quoted text, which only begins and ends with its quotes for sure. -/
theorem quoted (h : Ready d s g) (mark : Mark) (escapes : Bool) {f : Char → Chars} {text : Chars}
    (htext : p.text d = mark.closing :: text.flatMap f ++ [mark.closing])
    (hcells : p.cells d = (p.text d).map (·, true)) (hsolid : p.isSolid = true)
    (hopen : ∀ base after, step o base true s mark.closing after =
      openQuote o base s mark escapes mark.closing)
    (hf : ∀ c ∈ text, Sql.InQuotes mark.closing escapes (f c))
    (hrest : rest.head? ≠ some mark.closing)
    (hsize : o.maxSize.isExceededBy (groupSize d (g ++ [p])) = false) :
    ∃ t, Passes o s (p.text d) rest t ∧ Ready d t (g ++ [p]) ∧
      t.draft.SameHeading s.draft := by
  have hunits : ∀ u ∈ text.map f, Sql.InQuotes mark.closing escapes u := by
    rintro _ hu
    obtain ⟨c, hc, rfl⟩ := List.mem_map.1 hu
    exact hf c hc
  rw [List.flatMap_def] at htext
  have hcount : groupSize d [p] = (p.text d).length := by
    simp [groupSize, groupCells, hcells, isGap]
  rw [groupSize_append, hcount, ← h.size] at hsize
  have hclosing : isBlank mark.closing = false := by
    cases mark <;> decide
  refine ⟨_, passes_enclosed hopen hunits hrest htext hsize,
    h.push hcells hsolid (by simp [htext]) (by simp [isGap]) ?_ ?_ rfl rfl,
    by simp [Draft.SameHeading, Draft.push]⟩
  · simpa [htext] using hclosing
  · simpa only [htext, List.getLast?_concat, Option.mem_some_iff, forall_eq'] using hclosing

/-- A literal is read by the rules of its dialect, since no word that asks for others is right
before it. -/
theorem stringEscapes_eq (h : Ready d s g) (ho : o.dialect = some d)
    (hlast : d = .postgresql → ∀ p ∈ g.getLast?, p.isAlphanumeric = false) :
    stringEscapes o s = decide (d = .mysql) := by
  unfold stringEscapes
  rw [ho]
  cases d with
  | mysql => rfl
  | sqlite => rfl
  | postgresql =>
    rw [Bool.eq_iff_iff]
    simpa using h.escape (hlast rfl)

theorem passes_literal (h : Ready d s g) (ho : o.dialect = some d) {v : String}
    (hlast : d = .postgresql → ∀ p ∈ g.getLast?, p.isAlphanumeric = false)
    (hrest : rest.head? ≠ some '\'')
    (hsize : o.maxSize.isExceededBy (groupSize d (g ++ [.literal v])) = false) :
    ∃ t, Passes o s ((Piece.literal v).text d) rest t ∧ Ready d t (g ++ [.literal v]) ∧
      t.draft.SameHeading s.draft := by
  have htext : (Piece.literal v).text d =
      '\'' :: Sql.double '\'' (d.escape v.toList) ++ ['\''] := Dialect.toList_textLiteral d v
  have hopen (base : ℕ) (after : Chars) : step o base true s '\'' after =
      openQuote o base s .single (decide (d = .mysql)) '\'' := by
    rw [step_normal h.mode h.delimiter (by decide), ← h.stringEscapes_eq ho hlast]
    simp [readToken, isWordStart, isAsciiLetter, isBlank]
  by_cases hd : d = .mysql
  · subst hd
    rw [Sql.double_escape_mysql] at htext
    exact h.quoted .single true htext rfl rfl hopen
      (fun c _ => Sql.inQuotes_escapedChar c) hrest hsize
  · rw [Dialect.escape, if_neg hd] at htext
    rw [decide_eq_false hd] at hopen
    exact h.quoted .single false htext rfl rfl hopen
      (fun c _ => Sql.inQuotes_double _ c) hrest hsize

theorem passes_name (h : Ready d s g) (ho : o.dialect = some d) {n : String}
    (hrest : rest.head? ≠ some d.nameQuote)
    (hsize : o.maxSize.isExceededBy (groupSize d (g ++ [.name n])) = false) :
    ∃ t, Passes o s ((Piece.name n).text d) rest t ∧ Ready d t (g ++ [.name n]) ∧
      t.draft.SameHeading s.draft := by
  have htext := Dialect.toList_quote d n
  have hdouble (hd : d.nameQuote = '"') (hm : o.isMysql = false) :
      ∃ t, Passes o s ((Piece.name n).text d) rest t ∧ Ready d t (g ++ [.name n]) ∧
        t.draft.SameHeading s.draft := by
    rw [hd] at htext hrest
    refine h.quoted .double false htext rfl rfl (fun base after => ?_)
      (fun c _ => Sql.inQuotes_double _ c) hrest hsize
    rw [Mark.closing, step_normal h.mode h.delimiter (by decide)]
    simp [readToken, isWordStart, isAsciiLetter, isBlank, hm]
  cases d with
  | mysql =>
    refine h.quoted .backtick false htext rfl rfl (fun base after => ?_)
      (fun c _ => Sql.inQuotes_double _ c) hrest hsize
    rw [Mark.closing, step_normal h.mode h.delimiter (by decide)]
    simp [readToken, isWordStart, isAsciiLetter, isBlank, Options.backticks, ho]
  | sqlite => exact hdouble rfl (by simp [Options.isMysql, ho])
  | postgresql => exact hdouble rfl (by simp [Options.isMysql, ho])

theorem passes_word (h : Ready d s g) (hc : isWordStart c = true)
    (hcs : ∀ x ∈ cs, isTagChar x = true) (hrest : ∀ x ∈ rest.head?, isWordPart x = false)
    (hdelimiter : s.draft.start = none → upperWord (c :: cs) ≠ "DELIMITER")
    (hcalm : (s.draft.readHeader (upperWord (c :: cs))).compound ≠ some true)
    (hsize : o.maxSize.isExceededBy (groupSize d (g ++ (c :: cs).map .plain)) = false) :
    ∃ t, Passes o s (c :: cs) rest t ∧ Ready d t (g ++ (c :: cs).map .plain) ∧
      t.draft.SameHeading (s.draft.readHeader (upperWord (c :: cs))) := by
  have htag : ∀ x ∈ c :: cs, isTagChar x = true := by
    intro x hx
    rcases List.mem_cons.1 hx with rfl | hx
    · rw [isTagChar, hc, Bool.true_or]
    · exact hcs x hx
  have hblank : ∀ x ∈ c :: cs, isBlank x = false := fun x hx =>
    not_isBlank_of_isTagChar (htag x hx)
  have hgap : ∀ x ∈ c :: cs, isGap (x, false) = false := fun x hx => by
    simp [isGap, hblank x hx]
  have hcells : groupCells d ((c :: cs).map .plain) = (c :: cs).map (·, false) := by
    rw [groupCells, List.flatMap_map, List.map_eq_flatMap]
    rfl
  have hcount : groupSize d ((c :: cs).map .plain) = (c :: cs).length := by
    rw [groupSize, hcells, List.countP_map, List.countP_eq_length]
    simpa using hgap
  rw [groupSize_append, hcount, ← h.size] at hsize
  have hpass := Splitter.passes_word h.mode h.delimiter hc
    (fun x hx => by rw [isWordPart, hcs x hx, Bool.true_or]) hrest hdelimiter hsize
  let dr : Draft := { (s.draft.begin s.offset s.line).push (c :: cs) with
    lastWord := c :: cs, lastWordEnd := some (s.offset + (c :: cs).length) }
  have hheading : (dr.readHeader (upperWord (c :: cs))).SameHeading
      (s.draft.readHeader (upperWord (c :: cs))) := by
    simp only [dr, Draft.SameHeading, Draft.readHeader, Draft.push, Draft.begin_header,
      Draft.begin_compound]
    split <;> exact ⟨rfl, rfl⟩
  have hkeep : ∃ header compound, dr.readHeader (upperWord (c :: cs)) =
      { dr with header, compound } := by
    unfold Draft.readHeader
    dsimp only
    split <;> exact ⟨_, _, rfl⟩
  change Passes o s (c :: cs) rest
    (s.goTo .normal (dr.nest (upperWord (c :: cs))) (c :: cs)) at hpass
  rw [nest_of_calm (hheading.2 ▸ hcalm)] at hpass
  obtain ⟨header, compound, hread⟩ := hkeep
  rw [hread] at hpass hheading
  refine ⟨_, hpass, h.token hcells ?_ (by simp) (by simpa using hgap) ?_ ?_ ?_ rfl h.delimiter ?_ ?_
    (Draft.begin_start _ _ _) (Draft.begin_routine _ _ _) rfl rfl ?_ ?_, hheading⟩
  · rw [scriptText_plain, List.map_map]
    exact (List.map_id _).symm
  · simpa using hblank c List.mem_cons_self
  · intro m hm
    obtain ⟨x, hx, rfl⟩ := List.mem_map.1 (List.mem_of_getLast? hm)
    exact hblank x hx
  · intro p hp
    obtain ⟨x, hx, rfl⟩ := List.mem_map.1 hp
    rw [Piece.isSolid, hblank x hx]
    rfl
  · simp [dr, Draft.push, Function.comp_def]
  · simp [dr, Draft.push]
  · intro n hn
    simp only [goTo_draft, dr, Option.mem_some_iff] at hn
    simp only [goTo_offset]
    omega
  · intro hlast _ hword
    obtain ⟨rfl, hletter⟩ := letter_of_upperWord hword
    simp [Piece.isAlphanumeric, hletter] at hlast

/-! ## Statements -/

theorem exists_body (h : Ready d s g) : ∃ body, s.draft.text = body.map Prod.fst ∧
    runs body = runs (groupCells d g) := by
  obtain ⟨ms, hms, hsame⟩ := h.holds
  obtain ⟨body, htrim, hruns⟩ := hms.framed.trim
  exact ⟨body, by rw [Draft.text, hms.out, htrim], hruns.trans hsame.runs_eq⟩

theorem isStatementOf (h : Ready d s g) {st : Statement}
    (hst : st.text = String.ofList s.draft.text) : IsStatementOf d g st := by
  obtain ⟨body, htext, hruns⟩ := h.exists_body
  have hchars : st.text.toList = body.map Prod.fst := by rw [hst, String.toList_ofList, htext]
  refine ⟨?_, body, hchars, hruns⟩
  rw [Text.oneLine, Text.oneLine, hchars, String.toList_ofList, words_eq_runs, words_eq_runs, hruns]

theorem renders (h : Ready d s g) {st : Statement}
    (hst : st.text = String.ofList s.draft.text) (hroutine : st.inRoutine = s.draft.routine) :
    Renders d g st where
  toIsStatementOf := h.isStatementOf hst
  verbatim := by
    intro hcomment
    rw [hst, Draft.text, (h.verbatim hcomment).1]
  outside := hroutine.trans h.outside

/-- What is emitted is the statement of the group, if it has one. -/
theorem emit (h : Ready d s g) (hg : ∀ p ∈ g, p.isSemicolon = false) (terminator : Option Chars) :
    List.Forall₂ (Renders d) (groups g) (s.emit terminator).2.toList := by
  rw [groups_of_not_semicolon hg, ← h.start, Splitter.emit]
  cases hstart : s.draft.start with
  | none => exact .nil
  | some start =>
    have hsolid : g.any Piece.isSolid = true := by rw [← h.start, hstart, Option.isSome_some]
    obtain ⟨m, hm, hgap⟩ := exists_not_gap (d := d) hsolid
    obtain ⟨body, htext, hruns⟩ := h.exists_body
    cases hdraft : s.draft.text with
    | nil =>
      rw [hdraft, eq_comm, List.map_eq_nil_iff] at htext
      rw [htext, runs_nil, eq_comm] at hruns
      exact absurd hruns (runs_ne_nil hm hgap)
    | cons c cs => exact .cons (h.renders (by rw [hdraft]) rfl) .nil

theorem next (h : Ready d s g) (terminator : Option Chars) (cs : Chars) :
    Ready d ((s.emit terminator).1.advance cs) [] := by
  have hmode : (s.emit terminator).1.mode = s.mode := by
    unfold Splitter.emit
    dsimp only
    split <;> rfl
  exact ready_of_fresh (hmode.trans h.mode) ((emit_delimiter s terminator).trans h.delimiter)
    (emit_draft s terminator)

end Ready

end SqlFerry.Splitter
