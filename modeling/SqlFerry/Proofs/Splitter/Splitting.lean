import Mathlib.Data.List.Chain
import SqlFerry.Proofs.Splitter.Groups

/-!
# Semicolons split a script

A script made of pieces is split exactly at its semicolons: what stands in quotes or comments hides
none and opens nothing else. From one token of a script to the next, then along the whole of it.
-/

namespace SqlFerry.Splitter

open Text

variable {o : Options} {d : Dialect} {s t : Splitter} {g q ps : List Piece} {p : Piece}
  {c : Char} {cs rest : Chars}

/-! ## Groups -/

theorem splitOnP_append (hg : ∀ p ∈ g, p.isSemicolon = false) (ps : List Piece) :
    ∃ first others, ps.splitOnP Piece.isSemicolon = first :: others ∧
      (g ++ ps).splitOnP Piece.isSemicolon = (g ++ first) :: others := by
  obtain ⟨first, others, hps⟩ :=
    List.exists_cons_of_ne_nil (List.splitOnP_ne_nil Piece.isSemicolon ps)
  refine ⟨first, others, hps, ?_⟩
  induction g with
  | nil => exact hps
  | cons p g ih =>
    have hp : p.isSemicolon = false := hg p List.mem_cons_self
    rw [List.cons_append, List.splitOnP_cons_eq_if_modifyHead, hp,
      ih fun p hp => hg p (List.mem_cons_of_mem _ hp)]
    rfl

theorem groups_semicolon (g ps : List Piece) :
    groups (g ++ .semicolon :: ps) = groups g ++ groups ps := by
  rw [groups, List.splitOnP_append_cons g ps rfl, List.filter_append]
  rfl

/-- What is read of a group fits if the whole group does. -/
theorem fits_of_groups {l : SizeLimit} (ps : List Piece) (hg : ∀ p ∈ g, p.isSemicolon = false)
    (hsolid : g.any Piece.isSolid = true)
    (h : ∀ group ∈ groups (g ++ ps), l.isExceededBy (groupSize d group) = false) :
    l.isExceededBy (groupSize d g) = false := by
  obtain ⟨first, others, -, hsplit⟩ := splitOnP_append hg ps
  have hmem : g ++ first ∈ groups (g ++ ps) := by
    rw [groups, hsplit, List.mem_filter]
    exact ⟨List.mem_cons_self, by rw [List.any_append, hsolid, Bool.true_or]⟩
  refine SizeLimit.isExceededBy_mono ?_ (h _ hmem)
  rw [groupSize_append]
  exact Nat.le_add_right _ _

/-! ## From token to token -/

/-- What stands behind a quoted piece is no other one. -/
theorem not_quoted_of_quoted (hp : p.isQuoted = true) (h : (p :: ps).IsChain (Piece.MayAdjoin d)) :
    ∀ x ∈ ps.head?, x.isQuoted = false :=
  fun x hx => ((List.isChain_cons.1 h).1 x hx).quoted hp

theorem Ready.passes (h : Ready d s g) (ho : o.dialect = some d) (hk : o.keepComments = false)
    (hg : ∀ x ∈ g, x.isSemicolon = false) (hsound : ∀ x ∈ p :: ps, x.IsSound d)
    (hapart : (g ++ p :: ps).IsChain (Piece.MayAdjoin d)) (hcalm : Calm s.draft (p :: ps))
    (hsize : ∀ group ∈ groups (g ++ p :: ps), o.maxSize.isExceededBy (groupSize d group) = false)
    (hp : p.isSemicolon = false) :
    ∃ q ps' t, q ≠ [] ∧ p :: ps = q ++ ps' ∧ (∀ x ∈ q, x.isSemicolon = false) ∧
      Calm t.draft ps' ∧ Passes o s (scriptText d q) (scriptText d ps') t ∧ Ready d t (g ++ q) := by
  have hrest : ∀ x ∈ ps, x.IsSound d := fun x hx => hsound x (List.mem_cons_of_mem _ hx)
  obtain ⟨-, hchain, hlast⟩ := List.isChain_append.1 hapart
  -- What has not begun behind the pieces had not begun before them.
  have hstart {t : Splitter} {q : List Piece} (ht : Ready d t (g ++ q))
      (hnone : t.draft.start = none) : s.draft.start = none := by
    have hsolid := ht.start
    rw [hnone, List.any_append, Option.isSome_none, eq_comm, Bool.or_eq_false_iff] at hsolid
    rw [← Option.isNone_iff_eq_none, ← Option.not_isSome, h.start, hsolid.1]
    rfl
  have single (hword : isWordStart p.plainChar = false)
      (hpass : ∃ t, Passes o s (p.text d) (scriptText d ps) t ∧ Ready d t (g ++ [p]) ∧
        t.draft.SameHeading s.draft) :
      ∃ q ps' t, q ≠ [] ∧ p :: ps = q ++ ps' ∧ (∀ x ∈ q, x.isSemicolon = false) ∧
        Calm t.draft ps' ∧ Passes o s (scriptText d q) (scriptText d ps') t ∧
          Ready d t (g ++ q) := by
    obtain ⟨t, hpass, ht, hheading⟩ := hpass
    exact ⟨[p], ps, t, by simp, rfl, by simpa using hp,
      hcalm.tail hp hword hheading.1 hheading.2 (hstart ht), by simpa [scriptText] using hpass, ht⟩
  have hfits (hsolid : p.isSolid = true) :
      o.maxSize.isExceededBy (groupSize d (g ++ [p])) = false := by
    refine fits_of_groups ps (fun x hx => ?_) (by simp [hsolid]) (by simpa using hsize)
    rcases List.mem_append.1 hx with hx | hx
    · exact hg x hx
    · rw [List.mem_singleton.1 hx, hp]
  have hspace : isWordStart ' ' = false := by decide
  cases p with
  | plain c =>
    have hplain : (Piece.plain c).IsSound d := hsound _ List.mem_cons_self
    -- A word is read at once: only where it ends it is known not to be a directive.
    by_cases hword : isWordStart c = true
    · obtain ⟨cs, ps', rfl, hcs, hps'⟩ := exists_tags ps
      have hg' : ∀ x ∈ g ++ (c :: cs).map Piece.plain, x.isSemicolon = false := by
        intro x hx
        rcases List.mem_append.1 hx with hx | hx
        · exact hg x hx
        · obtain ⟨y, -, rfl⟩ := List.mem_map.1 hx
          rfl
      have hsolid : (g ++ (c :: cs).map Piece.plain).any Piece.isSolid = true := by
        have hblank : isBlank c = false :=
          not_isBlank_of_isTagChar (by rw [isTagChar, hword, Bool.true_or])
        simp [Piece.isSolid, hblank]
      have hcalm' : Calm s.draft ((c :: cs).map Piece.plain ++ ps') := hcalm
      obtain ⟨hdelimiter, hheader⟩ := hcalm'.first hword hcs hps'
      obtain ⟨t, hpass, ht, hheading⟩ : ∃ t, Passes o s (c :: cs) (scriptText d ps') t ∧
          Ready d t (g ++ (c :: cs).map Piece.plain) ∧
            t.draft.SameHeading (s.draft.readHeader (upperWord (c :: cs))) :=
        h.passes_word hword hcs
          (fun x hx => head_of_not_tag (fun y hy => hrest y (List.mem_append_right _ hy)) hps' hx)
          hdelimiter hheader (fits_of_groups ps' hg' hsolid (by simpa using hsize))
      refine ⟨(c :: cs).map .plain, ps', t, by simp, rfl,
        fun x hx => hg' x (List.mem_append_right _ hx),
        hcalm'.word hword hcs hps' hheading.1 hheading.2 (ht.start.trans hsolid), ?_, ht⟩
      rwa [scriptText_plain]
    · have hword' : isWordStart c = false := by simpa using hword
      by_cases hblank : isBlank c = true
      · exact single hword' (h.passes_blank hblank)
      · have hblank' : isBlank c = false := by simpa using hblank
        refine single hword' (h.passes_plain ho hplain hword' hblank' ?_
          (hfits (by simp [Piece.isSolid, hblank'])))
        rintro rfl
        exact head_ne_dash (List.isChain_cons.1 hchain).1
  | literal v =>
    refine single hspace (h.passes_literal ho
      (fun hd x hx => (hlast x hx _ rfl).escape hd rfl) ?_ (hfits rfl))
    exact head_ne_of_not_quoted hrest (not_quoted_of_quoted rfl hchain) (by decide)
  | name n =>
    refine single hspace (h.passes_name ho ?_ (hfits rfl))
    cases d <;> exact head_ne_of_not_quoted hrest (not_quoted_of_quoted rfl hchain) (by decide)
  | lineComment cs =>
    exact single hspace (h.passes_lineComment hk (hsound _ List.mem_cons_self))
  | blockComment cs =>
    obtain ⟨hend, hbang⟩ : ¬['*', '/'] <:+: cs ∧ cs.head? ≠ some '!' :=
      hsound _ List.mem_cons_self
    exact single hspace (h.passes_blockComment hk hend hbang)
  | semicolon => cases hp

/-! ## Whole scripts -/

structure IsCalm (dr : Draft) (ps : List Piece) : Prop where
  first : Calm dr ps
  later : ∀ a b, ps = a ++ .semicolon :: b → Calm {} b

theorem step_semicolon (h : Ready d s g) (hcompound : s.draft.compound ≠ some true) (base : Nat) :
    step o base true s ';' rest =
      .ok (.take 0 (s.emit (some [';'])).1 (s.emit (some [';'])).2) := by
  have hsettle : s.draft.settle = (s.draft, true) := by
    simp [Draft.settle, hcompound]
  have hmode := h.mode
  have hdelimiter := h.delimiter
  cases s
  cases hmode
  cases hdelimiter
  simp [step, stepNormal, startsWith, after?, hsettle]

theorem scan_script (h : Ready d s g) (ho : o.dialect = some d) (hk : o.keepComments = false)
    (hg : ∀ x ∈ g, x.isSemicolon = false) (hsound : ∀ x ∈ ps, x.IsSound d)
    (hapart : (g ++ ps).IsChain (Piece.MayAdjoin d)) (hcalm : IsCalm s.draft ps)
    (hsize : ∀ group ∈ groups (g ++ ps), o.maxSize.isExceededBy (groupSize d group) = false)
    (base : Nat) (done : List Statement) : ∃ t found,
      scan o base true s (scriptText d ps) done = .ok (t, found ++ done) ∧ t.mode = .normal ∧
        List.Forall₂ (Renders d) (groups (g ++ ps)) (found.reverse ++ (t.emit none).2.toList) := by
  -- By the number of pieces, since several are read at once where they make a word.
  induction hn : ps.length using Nat.strongRecOn generalizing s g ps done with
  | ind n ih =>
    cases ps with
    | nil =>
      refine ⟨s.retag [] 0, [], rfl, h.mode, ?_⟩
      rw [List.append_nil, emit_retag]
      exact h.emit hg none
    | cons p ps =>
      by_cases hp : p.isSemicolon = true
      · cases p with
        | semicolon =>
          have hchain := (List.isChain_append.1 hapart).2.1
          have hnext := h.next (some [';']) [';']
          have hfresh : ((s.emit (some [';'])).1.advance [';']).draft = {} := emit_draft s _
          rw [groups_semicolon] at hsize ⊢
          obtain ⟨t, found, hscan, hmode, hfound⟩ := ih ps.length (by simp [← hn])
            hnext (by simp) (fun x hx => hsound x (List.mem_cons_of_mem _ hx)) hchain.tail
            ⟨hfresh ▸ hcalm.later [] ps rfl, fun a b hab => hcalm.later (.semicolon :: a) b
              (by rw [hab, List.cons_append])⟩
            (fun group hgroup => hsize group (List.mem_append_right _ hgroup))
            ((s.emit (some [';'])).2.toList ++ done) rfl
          refine ⟨t, found ++ (s.emit (some [';'])).2.toList, ?_, hmode, ?_⟩
          · rw [List.append_assoc, ← hscan, scriptText, List.flatMap_cons, Piece.text,
              List.singleton_append, scan_cons, step_semicolon h hcalm.first.compound]
            rfl
          · have hemit := h.emit hg (some [';'])
            have hreverse : (s.emit (some [';'])).2.toList.reverse =
                (s.emit (some [';'])).2.toList := by
              cases (s.emit (some [';'])).2 <;> rfl
            rw [List.reverse_append, hreverse, List.append_assoc]
            exact List.rel_append hemit hfound
        | plain c | literal v | name n | lineComment cs | blockComment cs => cases hp
      · obtain ⟨q, ps', t, hq, heq, hq', hcalm', hpass, ht⟩ :=
          h.passes ho hk hg hsound hapart hcalm.first hsize (by simpa using hp)
        have hlength : ps'.length < n := by
          have := congrArg List.length heq
          have := List.length_pos_iff.2 hq
          simp only [List.length_append] at *
          omega
        have hlater := hcalm.later
        rw [heq] at hsound hapart hsize hlater ⊢
        rw [← List.append_assoc] at hapart hsize ⊢
        obtain ⟨u, found, hscan, hrest⟩ := ih ps'.length hlength ht
          (fun x hx => (List.mem_append.1 hx).elim (hg x) (hq' x))
          (fun x hx => hsound x (List.mem_append_right _ hx)) hapart
          ⟨hcalm', fun a b hab => hlater (q ++ a) b (by rw [hab, List.append_assoc])⟩ hsize done rfl
        exact ⟨u, found, by rw [scriptText_append, hpass, hscan], hrest⟩

/-- A script of calm groups is split at its semicolons and nowhere else. -/
theorem parse_pieces (d : Dialect) (maxSize : SizeLimit) (ps : List Piece)
    (hsound : ∀ p ∈ ps, p.IsSound d) (hapart : ps.IsChain (Piece.MayAdjoin d))
    (hcalm : IsCalm {} ps)
    (hsize : ∀ group ∈ groups ps, maxSize.isExceededBy (groupSize d group) = false) :
    ∃ found, (parse { dialect := some d, maxSize } (scriptText d ps)).2 = .ok found ∧
      List.Forall₂ (Renders d) (groups ps) found := by
  let o : Options := { dialect := some d, maxSize }
  obtain ⟨t, found, hfound, hparse, -⟩ := parse_of_scan (o := o) (scriptText d ps)
    (P := fun t found => List.Forall₂ (Renders d) (groups ps)
      (found.reverse ++ (t.emit none).2.toList)) fun base held => by
    obtain ⟨t, found, hscan, hmode, hfound⟩ := scan_script (o := o)
      (s := ({} : Splitter).retag held _) (ready_of_fresh rfl rfl rfl) rfl rfl
      (by simp) hsound hapart hcalm hsize base []
    exact ⟨t, found, by rw [hscan, List.append_nil], hmode, hfound⟩
  exact ⟨_, hparse, hfound⟩

namespace IsScript

theorem isChain (h : IsScript ps) (d : Dialect) : ps.IsChain (Piece.MayAdjoin d) := by
  refine List.IsChain.imp_of_mem_imp (fun p q hp _ hfollow => hfollow.mayAdjoin ?_ d) h.apart
  rintro rfl
  exact absurd (show Piece.isPlain '-' = true from h.whole _ hp) (by decide)

theorem isCalm (h : IsScript ps) : IsCalm {} ps where
  first := h.undirected.calm rfl rfl
  later := by
    rintro a b rfl
    exact h.undirected.of_semicolon.calm rfl rfl

end IsScript

/-- A script made of pieces is split at its semicolons and nowhere else: what semicolons, quotes and
comment marks stand within quotes or comments neither end a statement nor open anything. There is
one statement for each group of pieces that has a quoted piece or a character other than a blank,
in order, and its text is that of the group with a space for every comment. -/
theorem parse_script (d : Dialect) (maxSize : SizeLimit) (ps : List Piece) (h : IsScript ps)
    (hsize : ∀ group ∈ groups ps, maxSize.isExceededBy (groupSize d group) = false) :
    ∃ found, (parse { dialect := some d, maxSize } (scriptText d ps)).2 = .ok found ∧
      List.Forall₂ (IsStatementOf d) (groups ps) found := by
  obtain ⟨found, hparse, hfound⟩ := parse_pieces d maxSize ps
    (fun p hp => (h.whole p hp).isSound d) (h.isChain d) h.isCalm hsize
  exact ⟨found, hparse, hfound.imp fun _ _ hst => hst.toIsStatementOf⟩

/-- Of the semicolons of a script only the one outside quotes and comments splits it. -/
theorem parse_script_of_hidden_semicolons :
    let ps : List Piece := [.plain 'a', .plain ' ', .literal "b;'c", .lineComment [';', '\''],
      .blockComment ['*', ';'], .name "d;", .semicolon, .plain 'e']
    IsScript ps ∧ (∀ group ∈ groups ps,
      (SizeLimit.ofInt 20).isExceededBy (groupSize .postgresql group) = false) ∧
      ∃ found, (parse { dialect := some .postgresql, maxSize := .ofInt 20 }
        (scriptText .postgresql ps)).2 = .ok found ∧
        List.Forall₂ (IsStatementOf .postgresql) (groups ps) found := by
  intro ps
  have hscript : IsScript ps := by
    refine ⟨?_, ?_, ?_⟩
    · simp only [ps, List.forall_mem_cons, Piece.IsWhole, List.not_mem_nil, false_implies,
        implies_true, and_true, true_and]
      decide
    · simp only [ps, List.isChain_cons_cons, Piece.MayFollow, List.isChain_singleton, and_true]
      decide
    · unfold Undirected
      decide
  have hsize : ∀ group ∈ groups ps,
      (SizeLimit.ofInt 20).isExceededBy (groupSize .postgresql group) = false := by
    decide
  exact ⟨hscript, hsize, parse_script .postgresql (.ofInt 20) ps hscript hsize⟩

end SqlFerry.Splitter
