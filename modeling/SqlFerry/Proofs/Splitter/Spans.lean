import SqlFerry.Proofs.Splitter.Drafts

/-!
# Where statements stand

The offsets and lines of the statements found in a script are those of their texts. A splitter
knows where it stands in the script; the draft knows where its first character stands, and as long
as no comment is left out it holds the very characters from there on.
-/

namespace SqlFerry

open Text

def Text.lineAt (script : Chars) (offset : Nat) : Nat :=
  1 + (script.take offset).count '\n'

def Statement.finish (st : Statement) : Nat :=
  st.stop + (st.terminator.getD "").length

/-- A statement that lies in a script where it says. -/
structure Statement.LiesIn (script : Chars) (st : Statement) : Prop where
  start_lt_stop : st.start < st.stop
  line : st.line = lineAt script st.start
  terminated : ∀ t ∈ st.terminator, t.toList <+: script.drop st.stop
  ended : st.terminator = none → st.stop = script.length

namespace Splitter

variable {o : Options} {script held cs rest : Chars} {s next : Splitter} {c : Char}
  {d : Draft} {found : List Statement} {more : Option Statement} {st : Statement}

/-! ## Places in a script -/

structure At (script : Chars) (s : Splitter) (held : Chars) : Prop where
  offset_le : s.offset ≤ script.length
  drop_eq : script.drop s.offset = held
  line : s.line = lineAt script s.offset

namespace At

theorem length_eq (h : At script s held) : s.offset + held.length = script.length := by
  have hlength := congrArg List.length h.drop_eq
  rw [List.length_drop] at hlength
  have := h.offset_le
  omega

theorem take_eq (h : At script s (cs ++ rest)) :
    script.take (s.offset + cs.length) = script.take s.offset ++ cs := by
  rw [List.take_add, h.drop_eq, List.take_left]

theorem advance (h : At script s (cs ++ rest)) (hoffset : next.offset = s.offset)
    (hline : next.line = s.line) : At script (next.advance cs) rest where
  offset_le := by
    have := h.length_eq
    rw [List.length_append] at this
    simp only [Splitter.advance, hoffset]
    omega
  drop_eq := by
    simp only [Splitter.advance, hoffset]
    rw [← List.drop_drop, h.drop_eq, List.drop_left]
  line := by
    simp only [Splitter.advance, hoffset, hline, lineAt]
    rw [h.take_eq, List.count_append, h.line, lineAt, Nat.add_assoc]

end At

/-- What a text becomes when the characters at hand are added. -/
theorem slice_append {n : Nat} (h : At script s (cs ++ rest)) (hn : n ≤ s.offset) :
    slice script n (s.offset + cs.length) = slice script n s.offset ++ cs := by
  have hdrop : (script.drop n).drop (s.offset - n) = cs ++ rest := by
    rw [List.drop_drop, ← h.drop_eq]
    congr 1
    omega
  rw [slice, slice, show s.offset + cs.length - n = (s.offset - n) + cs.length by omega,
    List.take_add, hdrop, List.take_left]

/-! ## The statement under way -/

structure Anchored (script : Chars) (s : Splitter) : Prop where
  started : ∀ n ∈ s.draft.start, n < s.offset ∧ s.draft.line = lineAt script n
  /-- As long as no comment was left out, the draft holds what stands there. -/
  verbatim : s.statistics.commentsRemoved = 0 →
    (s.mode = .normal ∨ s.mode.isText = true) ∧ s.draft.afterComment = false ∧
      ∀ n ∈ s.draft.start, s.draft.out.reverse = slice script n s.offset

namespace Anchored

/-- A text is added to the statement, or begins it. -/
theorem adds (h : Anchored script s) (hat : At script s (c :: cs ++ rest)) (hs : InOrder s)
    (hadds : s.Adds (c :: cs) next.draft) (hoffset : next.offset = s.offset)
    (hmode : next.mode = .normal ∨ next.mode.isText = true)
    (hremoved : next.statistics.commentsRemoved = s.statistics.commentsRemoved) :
    Anchored script (next.advance (c :: cs)) := by
  have hlt : s.offset < next.offset + (c :: cs).length := by
    rw [hoffset, List.length_cons]
    omega
  refine ⟨fun n hn => ?_, fun hzero => ⟨hmode, hadds.afterComment, fun n hn => ?_⟩⟩
  · cases hadds.start.symm.trans hn
    simp only [Splitter.advance, hadds.line]
    cases hstart : s.draft.start with
    | none => exact ⟨hlt, hat.line⟩
    | some n => exact ⟨(h.started n hstart).1.trans hlt, (h.started n hstart).2⟩
  · cases hadds.start.symm.trans hn
    simp only [Splitter.advance, hoffset, hadds.out, List.reverse_append, List.reverse_reverse]
    cases hstart : s.draft.start with
    | none =>
      rw [hs.out_eq_nil hstart, Option.getD_none, slice_append hat le_rfl]
      simp [slice]
    | some n =>
      rw [Option.getD_some, slice_append hat (h.started n hstart).1.le,
        (h.verbatim (hremoved.symm.trans hzero)).2.2 n hstart]

/-- Blanks and what a comment leaves do not move the statement. -/
theorem follows (h : Anchored script s) (hstart : next.draft.start = s.draft.start)
    (hline : next.draft.line = s.draft.line) (hoffset : s.offset ≤ next.offset)
    (hverbatim : next.statistics.commentsRemoved = 0 →
      (next.mode = .normal ∨ next.mode.isText = true) ∧ next.draft.afterComment = false ∧
        ∀ n ∈ s.draft.start, next.draft.out.reverse = slice script n next.offset) :
    Anchored script next := by
  refine ⟨fun n hn => ?_, fun hzero => ?_⟩
  · obtain ⟨hlt, hat⟩ := h.started n (hstart ▸ hn)
    exact ⟨hlt.trans_le hoffset, hline ▸ hat⟩
  · rw [hstart]
    exact hverbatim hzero

theorem atPlace (h : Anchored script s) (c : Char) (rest : Chars) :
    Anchored script (s.atPlace c rest) := by
  obtain ⟨depth, pendingEnd, heq⟩ := s.atPlace_eq c rest
  rw [heq]
  exact ⟨h.started, h.verbatim⟩

/-- A comment that is left out was counted. -/
theorem removed_ne_zero (h : Anchored script s) (hmode : s.mode ≠ .normal)
    (htext : s.mode.isText = false) : s.statistics.commentsRemoved ≠ 0 := by
  intro hzero
  rcases (h.verbatim hzero).1 with hnormal | hisText
  · exact hmode hnormal
  · rw [htext] at hisText
    cases hisText

theorem pushBlank (h : Anchored script s) (hat : At script s (c :: rest)) (hs : InOrder s) :
    Anchored script (({ s with draft := s.draft.pushBlank c } : Splitter).advance [c]) := by
  rcases s.draft.pushBlank_cases c with ⟨hpush, hskip⟩ | ⟨-, -, hpush⟩
  · rw [hpush]
    refine h.follows rfl rfl (Nat.le_add_right _ _) fun hzero => ?_
    obtain ⟨hmode, hafter, -⟩ := h.verbatim hzero
    refine ⟨hmode, hafter, fun n hn => ?_⟩
    rcases hskip with hnil | htrue
    · exact absurd hnil (hs.out_ne_nil (by rw [hn]; rfl))
    · cases hafter.symm.trans htrue
  · rw [hpush]
    refine h.follows rfl rfl (Nat.le_add_right _ _) fun hzero => ?_
    obtain ⟨hmode, hafter, hverbatim⟩ := h.verbatim hzero
    refine ⟨hmode, hafter, fun n hn => ?_⟩
    simp only [Splitter.advance, List.reverse_cons, hverbatim n hn]
    exact (slice_append (show At script s ([c] ++ rest) from hat) (h.started n hn).1.le).symm

end Anchored

/-- The draft stays where it is, at whatever a step reads. -/
theorem Reads.anchored (h : Reads o s c cs rest next more) (hat : At script s (c :: cs ++ rest))
    (hs : InOrder s) (ha : Anchored script s) : Anchored script (next.advance (c :: cs)) := by
  cases h with
  | close hmode htext hends =>
    obtain ⟨statistics, hemit, -⟩ := (s.atPlace c (cs ++ rest)).emit_fst (some s.delimiter)
    rw [hemit]
    refine ⟨?_, fun _ => ⟨.inl hmode, rfl, ?_⟩⟩ <;> rintro n ⟨⟩
  | direct delimiter changes hmode hstart hdelimiter =>
    refine ha.follows rfl rfl (Nat.le_add_right _ _) fun hzero => ?_
    obtain ⟨hverbatim, hafter, -⟩ := ha.verbatim hzero
    refine ⟨hverbatim, hafter, fun n hn => ?_⟩
    rw [hstart] at hn
    cases hn
  | token t hmode hends ht htext hset hfits =>
    replace ha := ha.atPlace c (cs ++ rest)
    replace hs := hs.atPlace c (cs ++ rest)
    have hat : At script (s.atPlace c (cs ++ rest)) (c :: cs ++ rest) :=
      ⟨hat.offset_le, hat.drop_eq, hat.line⟩
    have hnormal : (s.atPlace c (cs ++ rest)).mode = .normal := hmode
    generalize s.atPlace c (cs ++ rest) = u at ha hs hat ht hnormal ⊢
    by_cases hisText : t.isText = true
    · exact ha.adds hat hs (htext ▸ t.read_adds hisText u c) (t.read_offset u c)
        (Token.read_mode (.inl hisText) hnormal c)
        (congrArg _ (Token.read_statistics (.inl hisText) u c))
    cases t with
    | blank =>
      obtain ⟨-, rfl⟩ := List.cons.inj htext
      exact ha.pushBlank hat hs
    | lineComment marker | blockComment =>
      exact ha.follows rfl rfl (Nat.le_add_right _ _)
        fun hzero => absurd hzero (Nat.succ_ne_zero _)
    | word others | quote mark escapes | executable | dollar tag | symbol =>
      exact absurd rfl hisText
  | piece last hmode hp hfits =>
    by_cases hisText : s.mode.isText = true
    · have hstart := hs.started_of_text hisText
      refine ha.adds hat hs (readPiece_adds s hisText hstart (c :: cs, last)) rfl ?_ rfl
      cases last with
      | true => exact .inl rfl
      | false => exact .inr hisText
    · have hremoved := ha.removed_ne_zero hmode (by simpa using hisText)
      have hdraft : ((s.readPiece (c :: cs, last)).advance (c :: cs)).draft =
          if last then s.draft.gap else s.draft := by
        simp [Splitter.advance, readPiece, hisText]
      have hgap : s.draft.gap.start = s.draft.start ∧ s.draft.gap.line = s.draft.line := by
        rcases s.draft.gap_cases with ⟨hgap, -⟩ | ⟨-, -, hgap⟩ <;> rw [hgap] <;> exact ⟨rfl, rfl⟩
      refine ha.follows ?_ ?_ (Nat.le_add_right _ _) fun hzero => absurd hzero hremoved
      · rw [hdraft]
        cases last <;> [rfl; exact hgap.1]
      · rw [hdraft]
        cases last <;> [rfl; exact hgap.2]

/-! ## The statements found -/

/-- What is known of the statements found, the latest first, where a splitter has come to `held`. -/
structure Tracks (script : Chars) (s : Splitter) (held : Chars) (found : List Statement) :
    Prop where
  place : At script s held
  order : InOrder s
  anchored : Anchored script s
  index : s.index = found.length
  indices : found.reverse.map (·.index) = List.range found.length
  lies : ∀ st ∈ found, st.LiesIn script ∧ st.terminator.isSome = true
  apart : found.Pairwise fun later earlier => earlier.finish ≤ later.start
  behind : ∀ st ∈ found, st.finish ≤ s.draft.start.getD s.offset
  verbatim : s.statistics.commentsRemoved = 0 →
    ∀ st ∈ found, st.text.toList = trimRight (slice script st.start st.stop)

theorem Tracks.atPlace (h : Tracks script s held found) (c : Char) (rest : Chars) :
    Tracks script (s.atPlace c rest) held found := by
  obtain ⟨depth, pendingEnd, heq⟩ := s.atPlace_eq c rest
  have horder := h.order.atPlace c rest
  have hanchored := h.anchored.atPlace c rest
  rw [heq] at horder hanchored ⊢
  exact ⟨⟨h.place.offset_le, h.place.drop_eq, h.place.line⟩, horder, hanchored, h.index, h.indices,
    h.lies, h.apart, h.behind, h.verbatim⟩

/-- The statement that is closed at a place lies up to it. -/
theorem Tracks.of_emit (h : Tracks script s held found) {terminator : Option Chars}
    (hst : (s.emit terminator).2 = some st) (hterminator : ∀ t ∈ terminator, t <+: held)
    (hend : terminator = none → held = []) :
    st.LiesIn script ∧ st.index = found.length ∧ (∀ e ∈ found, e.finish ≤ st.start) ∧
      st.stop = s.offset ∧ st.terminator = terminator.map String.ofList ∧
      (s.statistics.commentsRemoved = 0 →
        st.text.toList = trimRight (slice script st.start st.stop)) := by
  obtain ⟨n, hstart, rfl⟩ := eq_of_emit hst
  obtain ⟨hlt, hline⟩ := h.anchored.started n hstart
  have hsolid := h.order.started (by rw [hstart]; rfl)
  refine ⟨⟨hlt, hline, ?_, ?_⟩, h.index, fun e he => ?_, rfl, rfl, fun hzero => ?_⟩
  · intro t ht
    obtain ⟨t, hmem, rfl⟩ := Option.map_eq_some_iff.1 ht
    rw [String.toList_ofList, h.place.drop_eq]
    exact hterminator t hmem
  · intro hnone
    have hheld := hend (Option.map_eq_none_iff.1 hnone)
    have hlength := h.place.length_eq
    rw [hheld] at hlength
    exact hlength
  · have hbehind := h.behind e he
    rwa [hstart] at hbehind
  · have hfirst : ∀ c ∈ s.draft.out.reverse.head?, isBlank c = false := by
      rw [List.head?_reverse]
      exact hsolid.not_isBlank
    rw [String.toList_ofList, Draft.text, trim, trimLeft_eq_self hfirst,
      (h.anchored.verbatim hzero).2.2 n hstart]

theorem Reads.removed_eq_zero (h : Reads o s c cs rest next more)
    (hzero : next.statistics.commentsRemoved = 0) : s.statistics.commentsRemoved = 0 := by
  cases h with
  | close hmode htext hends =>
    obtain ⟨statistics, hemit, hremoved⟩ :=
      (s.atPlace c (cs ++ rest)).emit_fst (some s.delimiter)
    rw [hemit] at hzero
    exact hremoved.symm.trans hzero
  | token t hmode hends ht htext hset hfits =>
    cases t with
    | lineComment marker | blockComment => exact absurd hzero (Nat.succ_ne_zero _)
    | word others | blank | quote mark escapes | executable | dollar tag | symbol => exact hzero
  | direct delimiter changes hmode hstart hdelimiter | piece last hmode hp hfits => exact hzero

theorem Tracks.reads (h : Tracks script s (c :: cs ++ rest) found)
    (hreads : Reads o s c cs rest next more) :
    Tracks script (next.advance (c :: cs)) rest (more.toList ++ found) := by
  have hplace := h.place.advance hreads.offset_eq hreads.line_eq
  have horder := hreads.inOrder h.order
  have hanchored := hreads.anchored h.place h.order h.anchored
  have hnewOffset : (next.advance (c :: cs)).offset = s.offset + (c :: cs).length := by
    rw [← hreads.offset_eq]
    rfl
  have hbehind : ∀ e ∈ found, e.finish ≤ (next.advance (c :: cs)).draft.start.getD
      (next.advance (c :: cs)).offset := by
    intro e he
    refine (h.behind e he).trans ?_
    rcases hreads.start_cases with hstart | hstart
    · rw [show (next.advance (c :: cs)).draft.start = none from hstart, Option.getD_none,
        hnewOffset]
      cases hs : s.draft.start with
      | none => exact Nat.le_add_right _ _
      | some n => exact (h.anchored.started n hs).1.le.trans (Nat.le_add_right _ _)
    · rw [show (next.advance (c :: cs)).draft.start = _ from hstart, Option.getD_some]
  cases more with
  | none =>
    refine ⟨hplace, horder, hanchored, ?_, h.indices, h.lies, h.apart, hbehind,
      fun hzero => h.verbatim (hreads.removed_eq_zero hzero)⟩
    exact hreads.index_eq.trans h.index
  | some st =>
    obtain ⟨-, hdelimiter, hfresh, hemit⟩ := hreads.closes
    have hstart : (next.advance (c :: cs)).draft.start = none := by
      rw [Splitter.advance, hfresh]
    obtain ⟨hlies, hindex, hapart, hstop, hterminator, hverbatim⟩ :=
      (h.atPlace c (cs ++ rest)).of_emit hemit (by rintro t ⟨⟩; exact ⟨rest, by rw [hdelimiter]⟩)
        (by rintro ⟨⟩)
    refine ⟨hplace, horder, hanchored, ?_, ?_, ?_, List.pairwise_cons.2 ⟨hapart, h.apart⟩, ?_, ?_⟩
    · exact hreads.index_eq.trans (by rw [h.index, Nat.add_comm, List.length_append])
    · rw [Option.toList_some, List.singleton_append, List.reverse_cons, List.map_append, h.indices,
        List.length_cons, List.range_succ, List.map_singleton, hindex]
    · exact List.forall_mem_cons.2 ⟨⟨hlies, by rw [hterminator]; rfl⟩, h.lies⟩
    · refine List.forall_mem_cons.2 ⟨?_, hbehind⟩
      rw [hstart, Option.getD_none, hnewOffset, Statement.finish, hstop, hterminator,
        Option.map_some, Option.getD_some, String.length_ofList, hdelimiter]
      exact le_rfl
    · intro hzero
      have hzero := hreads.removed_eq_zero hzero
      exact List.forall_mem_cons.2 ⟨hverbatim hzero, h.verbatim hzero⟩

/-- What is known of the statements stays so along a scan. -/
theorem Tracks.scan (hk : o.keepComments = false) {base : Nat} (hs : s.IsSound)
    (h : Tracks script s held found) {t : Splitter} {all : List Statement}
    (hscan : Splitter.scan o base true s held found = .ok (t, all)) : Tracks script t [] all := by
  revert h t all
  refine scan_reads hk (motive := fun s held found r => Tracks script s held found →
    ∀ {t all}, r = .ok (t, all) → Tracks script t [] all) ?nil ?overflow ?read hs held found
  case nil =>
    rintro s found h _ _ ⟨⟩
    obtain ⟨hplace, horder, hanchored, hindex, hindices, hlies, hapart, hbehind, hverbatim⟩ := h
    exact ⟨⟨hplace.offset_le, hplace.drop_eq, hplace.line⟩,
      ⟨horder.fresh, horder.started, horder.gap, horder.wordEnd, horder.tag⟩,
      ⟨hanchored.started, hanchored.verbatim⟩, hindex, hindices, hlies, hapart, hbehind, hverbatim⟩
  case overflow =>
    rintro s c rest found _ _ _ _ _ ⟨⟩
  case read =>
    intro s c cs rest found next more r _ hreads ih h
    exact ih (h.reads hreads)

theorem anchored_fresh (script held : Chars) (n : Nat) :
    Anchored script (({} : Splitter).retag held n) := by
  refine ⟨?_, fun _ => ⟨.inl rfl, rfl, ?_⟩⟩ <;> rintro n ⟨⟩

theorem tracks_fresh (script held : Chars) :
    Tracks script (({} : Splitter).retag held script.length) script [] where
  place := ⟨Nat.zero_le _, rfl, rfl⟩
  order := inOrder_of_fresh rfl rfl
  anchored := anchored_fresh script held script.length
  index := rfl
  indices := rfl
  lies := List.forall_mem_nil _
  apart := .nil
  behind := List.forall_mem_nil _
  verbatim := fun _ => List.forall_mem_nil _

structure AreSpans (script : Chars) (all : List Statement) : Prop where
  indices : all.map (·.index) = List.range all.length
  lies : ∀ st ∈ all, st.LiesIn script
  apart : all.Pairwise fun earlier later => earlier.finish ≤ later.start
  /-- Only the last statement can lack a delimiter. -/
  terminated : ∀ st ∈ all.dropLast, st.terminator.isSome = true

theorem Tracks.close (h : Tracks script s [] found) :
    AreSpans script (found.reverse ++ (s.emit none).2.toList) ∧
      (s.statistics.commentsRemoved = 0 → ∀ st ∈ found.reverse ++ (s.emit none).2.toList,
        st.text.toList = trimRight (slice script st.start st.stop)) := by
  have hlies : ∀ st ∈ found.reverse, st.LiesIn script ∧ st.terminator.isSome = true :=
    fun st hst => h.lies st (List.mem_reverse.1 hst)
  have hapart : found.reverse.Pairwise fun earlier later => earlier.finish ≤ later.start :=
    List.pairwise_reverse.2 h.apart
  cases hlast : (s.emit none).2 with
  | none =>
    rw [Option.toList_none, List.append_nil]
    refine ⟨⟨by rw [h.indices, List.length_reverse], fun st hst => (hlies st hst).1, hapart,
      fun st hst => (hlies st (List.mem_of_mem_dropLast hst)).2⟩, fun hzero st hst => ?_⟩
    exact h.verbatim hzero st (List.mem_reverse.1 hst)
  | some st =>
    obtain ⟨hst, hindex, hbehind, -, -, hverbatim⟩ := h.of_emit hlast (by rintro t ⟨⟩) fun _ => rfl
    rw [Option.toList_some]
    refine ⟨⟨?_, fun e he => ?_, ?_, fun e he => ?_⟩, fun hzero e he => ?_⟩
    · rw [List.map_append, h.indices, List.length_append, List.length_reverse,
        List.length_singleton, List.range_succ, List.map_singleton, hindex]
    · rcases List.mem_append.1 he with he | he
      · exact (hlies e he).1
      · exact List.mem_singleton.1 he ▸ hst
    · refine List.pairwise_append.2
        ⟨hapart, List.pairwise_singleton _ _, fun e he later hlater => ?_⟩
      rw [List.mem_singleton.1 hlater]
      exact hbehind e (List.mem_reverse.1 he)
    · rw [List.dropLast_concat] at he
      exact (hlies e he).2
    · rcases List.mem_append.1 he with he | he
      · exact h.verbatim hzero e (List.mem_reverse.1 he)
      · exact List.mem_singleton.1 he ▸ hverbatim hzero

/-- The statements of a script stand where they say. They are numbered in order; each begins on the
line that it names, before it ends, and ends where its delimiter stands or, if it is the last and
has none, with the script; the next one begins behind its delimiter. If no comment was left out, its
text is what stands there, without the blanks at the end. -/
theorem parse_spans (hk : o.keepComments = false) (h : (parse o script).2 = .ok found) {k : Nat}
    (hst : found[k]? = some st) :
    st.index = k ∧ st.start < st.stop ∧ st.line = lineAt script st.start ∧
      (match st.terminator with
        | some t => t.toList <+: script.drop st.stop
        | none => k + 1 = found.length ∧ st.stop = script.length) ∧
      (∀ next, found[k + 1]? = some next →
        st.stop + (st.terminator.getD "").length ≤ next.start) ∧
      ((parse o script).1.statistics.commentsRemoved = 0 →
        st.text.toList = trimRight (slice script st.start st.stop)) := by
  obtain ⟨base, held, t, done, hscan, -, rfl, hstatistics⟩ := scan_of_parse h
  have htracks := (tracks_fresh script held).scan hk (isSound_fresh _ _) hscan
  obtain ⟨statistics, hemit, hremoved⟩ := t.emit_fst none
  obtain ⟨hspans, hverbatim⟩ := htracks.close
  generalize done.reverse ++ (t.emit none).2.toList = found at hst hspans hverbatim ⊢
  have hmem := List.mem_of_getElem? hst
  have hlies := hspans.lies st hmem
  obtain ⟨hlt, hget⟩ := List.getElem?_eq_some_iff.1 hst
  refine ⟨?_, hlies.start_lt_stop, hlies.line, ?_, fun next hnext => ?_, fun hzero => ?_⟩
  · have hindex := congrArg (·[k]?) hspans.indices
    simpa only [List.getElem?_map, hst, List.getElem?_range hlt, Option.map_some,
      Option.some.injEq] using hindex
  · cases hterminator : st.terminator with
    | some t => exact hlies.terminated t hterminator
    | none =>
      refine ⟨?_, hlies.ended hterminator⟩
      by_contra hne
      have hdrop : k < found.dropLast.length := by
        rw [List.length_dropLast]
        omega
      have hsome := hspans.terminated _ (List.getElem_mem hdrop)
      rw [List.getElem_dropLast, hget, hterminator] at hsome
      cases hsome
  · obtain ⟨hlt', hget'⟩ := List.getElem?_eq_some_iff.1 hnext
    have := List.pairwise_iff_getElem.1 hspans.apart k (k + 1) hlt hlt' (Nat.lt_succ_self k)
    rwa [hget, hget'] at this
  · rw [hstatistics, hemit, hremoved] at hzero
    exact hverbatim hzero st hmem

/-- The second of two statements, on the second line and behind a semicolon of its own. -/
theorem parse_spans_second :
    let o : Options := { dialect := some .mysql }
    let script := " a;\nb c ;".toList
    let st : Statement :=
      { text := "b c", index := 1, start := 4, stop := 8, line := 2, terminator := some ";"
        inRoutine := false }
    o.keepComments = false ∧
      (∃ found, (parse o script).2 = .ok found ∧ found[1]? = some st) ∧
      (parse o script).1.statistics.commentsRemoved = 0 ∧
      st.line = lineAt script st.start ∧ st.text.toList = trimRight (slice script 4 8) := by
  intro o script st
  have hparse : (parse o script).2 = .ok [
      { text := "a", index := 0, start := 1, stop := 2, line := 1, terminator := some ";"
        inRoutine := false }, st] := eq_ok_of_toOption (by decide +kernel)
  have hremoved : (parse o script).1.statistics.commentsRemoved = 0 := by decide +kernel
  obtain ⟨-, -, hline, -, -, htext⟩ := parse_spans (k := 1) rfl hparse (rfl : _ = some st)
  exact ⟨rfl, ⟨_, hparse, rfl⟩, hremoved, hline, htext hremoved⟩

end Splitter

end SqlFerry
