import SqlFerry.Proofs.Splitter.Lookahead

/-!
# Statements split again

The text of a statement, split as a script of its own, is one statement with the same text, and no
comment is found in it. The second scan follows the first one from the first character of the
statement on: both read the same tokens, and where the first leaves out a comment the second reads
the space left for it, or nothing.
-/

namespace SqlFerry.Splitter

open Text

variable {o : Options} {s t u v next : Splitter} {c : Char} {cs rest held future : Chars}
  {st : Statement}

/-! ## The second scan beside the first -/

structure Resembles (s t : Splitter) : Prop where
  mode : t.mode = if s.mode.isText then s.mode else .normal
  delimiter : t.delimiter = [';']
  started : t.draft.start.isSome = true
  out : t.draft.out ≠ []
  afterComment : t.draft.afterComment = false
  size : t.draft.size = s.draft.size
  blocks : t.draft.blocks = s.draft.blocks
  lastWord : t.draft.lastWord = s.draft.lastWord
  wordEnd : ∀ n ∈ t.draft.lastWordEnd, n ≤ t.offset
  /-- Both stand right behind a word or neither does. -/
  afterWord : s.mode = .normal →
    (t.draft.lastWordEnd = some t.offset ↔ s.draft.lastWordEnd = some s.offset)
  apart : s.draft.trailingSpace = true → t.draft.lastWordEnd ≠ some t.offset

theorem Token.read_lastWord (t : Token) (s : Splitter) (c : Char) :
    (t.read s c).draft.lastWord = match t with
      | word _ => t.text c
      | _ => s.draft.lastWord := by
  have hbegin : (s.draft.begin s.offset s.line).lastWord = s.draft.lastWord := by
    unfold Draft.begin
    split <;> rfl
  cases t with
  | word others =>
    obtain ⟨header, compound, depth, pendingEnd, routine, hnest⟩ :=
      Draft.nest_eq { (s.draft.begin s.offset s.line).push (c :: others) with
        lastWord := c :: others, lastWordEnd := some (s.offset + (c :: others).length) }
        (upperWord (c :: others))
    rw [Token.read, Token.text]
    dsimp only
    rw [hnest]
  | blank =>
    simp only [Token.read, Draft.pushBlank]
    split <;> rfl
  | lineComment marker | blockComment => rfl
  | quote mark escapes | executable | dollar tag | symbol =>
    simp [Token.read, Draft.push, markOpen, hbegin]

/-- What a token does to the blocks depends on the blocks alone. -/
theorem Token.read_blocks (t : Token) (c : Char) (h : u.draft.blocks = v.draft.blocks) :
    (t.read u c).draft.blocks = (t.read v c).draft.blocks := by
  have hpush (s : Splitter) (cs : Chars) :
      ((s.draft.begin s.offset s.line).push cs).blocks = s.draft.blocks :=
    s.draft.blocks_begin s.offset s.line
  cases t with
  | word others =>
    rw [Token.read, Token.read]
    dsimp only
    rw [Draft.blocks_nest, Draft.blocks_nest]
    congr 1
    exact (hpush u (c :: others)).trans (h.trans (hpush v (c :: others)).symm)
  | blank =>
    have hblank (d : Draft) : (d.pushBlank c).blocks = d.blocks := by
      unfold Draft.pushBlank
      split <;> rfl
    exact (hblank _).trans (h.trans (hblank _).symm)
  | dollar tag =>
    have hroutine (s : Splitter) : ((dollar tag).read s c).draft.blocks =
        { s.draft.blocks with routine := true } := by
      rw [← hpush s tag]
      rfl
    rw [hroutine, hroutine, h]
  | quote mark escapes | executable | symbol => exact (hpush u _).trans (h.trans (hpush v _).symm)
  | lineComment marker | blockComment => exact h

/-- Both scans read the same token. -/
theorem Token.read_resembles {t : Token} (hisText : t.isText = true) (htext : t.text c = c :: cs)
    (hu : u.mode = .normal) (hv : v.mode = .normal) (hdelimiter : v.delimiter = [';'])
    (hsize : v.draft.size = u.draft.size) (hblocks : v.draft.blocks = u.draft.blocks)
    (hlastWord : v.draft.lastWord = u.draft.lastWord)
    (huEnd : ∀ n ∈ u.draft.lastWordEnd, n ≤ u.offset)
    (hvEnd : ∀ n ∈ v.draft.lastWordEnd, n ≤ v.offset) :
    Resembles ((t.read u c).advance (c :: cs)) ((t.read v c).advance (c :: cs)) := by
  have huAdds := t.read_adds hisText u c
  have hvAdds := t.read_adds hisText v c
  have hend (s : Splitter) (hs : ∀ n ∈ s.draft.lastWordEnd, n ≤ s.offset) :
      (∀ n ∈ (t.read s c).draft.lastWordEnd, n ≤ s.offset + (c :: cs).length) ∧
        ((t.read s c).draft.lastWordEnd = some (s.offset + (c :: cs).length) ↔
          ∃ others, t = .word others) := by
    have hshort : ∀ n ∈ s.draft.lastWordEnd, n < s.offset + (c :: cs).length := by
      intro n hn
      have := hs n hn
      rw [List.length_cons]
      omega
    rw [t.read_lastWordEnd, htext]
    cases t with
    | word others =>
      refine ⟨?_, fun _ => ⟨others, rfl⟩, fun _ => rfl⟩
      rintro n ⟨⟩
      exact le_rfl
    | blank | quote mark escapes | executable | dollar tag | lineComment marker | blockComment
    | symbol =>
      refine ⟨fun n hn => (hshort n hn).le, fun heq => absurd (hshort _ heq) (lt_irrefl _), ?_⟩
      rintro ⟨others, ⟨⟩⟩
  have hoffset (s : Splitter) :
      ((t.read s c).advance (c :: cs)).offset = s.offset + (c :: cs).length := by
    simp [Splitter.advance]
  refine ⟨?_, ?_, ?_, ?_, hvAdds.afterComment, ?_, t.read_blocks c hblocks, ?_, ?_, fun _ => ?_,
    fun htrailing => ?_⟩
  · change (t.read v c).mode = if (t.read u c).mode.isText then (t.read u c).mode else .normal
    cases t with
    | word others | symbol =>
      change v.mode = if u.mode.isText then u.mode else .normal
      rw [hu, hv]
      rfl
    | quote mark escapes | executable | dollar tag => rfl
    | blank | lineComment marker | blockComment => cases hisText
  · change (t.read v c).delimiter = _
    rw [t.read_delimiter, hdelimiter]
  · change (t.read v c).draft.start.isSome = true
    rw [hvAdds.start]
    rfl
  · change (t.read v c).draft.out ≠ []
    rw [hvAdds.out, htext]
    simp
  · change (t.read v c).draft.size = (t.read u c).draft.size
    rw [huAdds.size, hvAdds.size, hsize]
  · change (t.read v c).draft.lastWord = (t.read u c).draft.lastWord
    rw [t.read_lastWord, t.read_lastWord, hlastWord]
  · rw [hoffset]
    exact (hend v hvEnd).1
  · rw [hoffset, hoffset]
    exact (hend v hvEnd).2.trans (hend u huEnd).2.symm
  · cases huAdds.trailingSpace.symm.trans htrailing

/-! ## Steps of the second scan -/

/-- Whether a semicolon ends the statement is told by the blocks alone. -/
theorem settled_of_blocks (hu : u.delimiter = [';']) (hv : v.delimiter = [';'])
    (h : v.draft.blocks = u.draft.blocks) (c : Char) (rest after : Chars) :
    (v.settled c after).2 = (u.settled c rest).2 ∧
      (v.atPlace c after).draft.blocks = (u.atPlace c rest).draft.blocks := by
  have hsettle := v.draft.blocks_settle
  rw [h, u.draft.blocks_settle, Prod.mk.injEq] at hsettle
  simp only [atPlace, settled_of_semicolon hu, settled_of_semicolon hv]
  split
  · exact ⟨hsettle.2.symm, hsettle.1.symm⟩
  · exact ⟨rfl, h⟩

theorem stringEscapes_congr (o : Options) (hlastWord : v.draft.lastWord = u.draft.lastWord)
    (hend : v.draft.lastWordEnd = some v.offset ↔ u.draft.lastWordEnd = some u.offset) :
    stringEscapes o v = stringEscapes o u := by
  have hend : (v.draft.lastWordEnd == some v.offset) = (u.draft.lastWordEnd == some u.offset) := by
    rw [Bool.eq_iff_iff, beq_iff_eq, beq_iff_eq, hend]
  unfold stringEscapes
  rw [hlastWord, hend]

theorem passes_token (hk : o.keepComments = false) {tok : Token} (hmode : s.mode = .normal)
    (hends : (s.settled c (cs ++ rest)).2 = false)
    (ht : tokenAt o (stringEscapes o (s.atPlace c (cs ++ rest))) c (cs ++ rest) = tok)
    (htext : tok.text c = c :: cs) (hset : setsDelimiter o s c tok = false)
    (hfits : o.maxSize.isExceededBy (s.draft.size + (c :: cs).length) = false) :
    Passes o s (c :: cs) rest ((tok.read (s.atPlace c (cs ++ rest)) c).advance (c :: cs)) := by
  refine .of_step cs _ fun base => ?_
  rw [step_outside hk hmode]
  dsimp only
  rw [hends, ht, if_neg Bool.false_ne_true, Token.act, setsDelimiter_atPlace, hset,
    if_neg Bool.false_ne_true, atPlace_size, htext, hfits, Bool.and_false,
    if_neg Bool.false_ne_true, List.length_cons, Nat.add_sub_cancel]

theorem passes_piece (hk : o.keepComments = false) {last : Bool} (hmode : s.mode ≠ .normal)
    (hp : pieceAt s.mode c (cs ++ rest) = (c :: cs, last))
    (hfits : o.maxSize.isExceededBy (s.draft.size + (c :: cs).length) = false) :
    Passes o s (c :: cs) rest ((s.readPiece (c :: cs, last)).advance (c :: cs)) := by
  refine .of_step cs _ fun base => ?_
  rw [step_inside hk hmode, hp, actPiece]
  dsimp only
  rw [hfits, Bool.and_false, if_neg Bool.false_ne_true, List.length_cons, Nat.add_sub_cancel]

theorem setsDelimiter_of_started (o : Options) (hstart : s.draft.start.isSome = true) (c : Char)
    (tok : Token) : setsDelimiter o s c tok = false := by
  rw [Bool.eq_false_iff]
  intro hset
  rw [start_of_setsDelimiter hset] at hstart
  cases hstart

/-! ## The rest of a statement -/

/-- What the first scan still adds to the statement `st` from `held` on is `future`, and the second
scan reads it to the end. -/
structure Replays (o : Options) (s : Splitter) (held future : Chars) (st : Statement) : Prop where
  held_ne_nil : held ≠ []
  delimiter : s.delimiter = [';']
  text : st.text = String.ofList (trim (s.draft.out.reverse ++ future))
  ends : future = [] ∨ EndsSolid future
  settled : future = [] → s.mode.isText = false ∧ s.draft.routine = st.inRoutine
  /-- Nothing stands behind a comment but the blank that it leaves. -/
  ahead : s.draft.trailingSpace = false →
    Agrees (if s.mode = .normal ∨ s.mode.isText = true then held else []) future
  again : ∀ t, Resembles s t → ∃ t', Passes o t future [] t' ∧ t'.mode = .normal ∧
    t'.draft.start = t.draft.start ∧ t'.draft.out = future.reverse ++ t.draft.out ∧
      t'.draft.routine = st.inRoutine ∧
      t'.statistics.commentsRemoved = t.statistics.commentsRemoved

namespace Replays

/-- Where nothing is added, the second scan is at its end. -/
theorem nil (hheld : held ≠ []) (hdelimiter : s.delimiter = [';'])
    (htext : st.text = String.ofList (trim s.draft.out.reverse)) (hmode : s.mode.isText = false)
    (hroutine : s.draft.routine = st.inRoutine) : Replays o s held [] st where
  held_ne_nil := hheld
  delimiter := hdelimiter
  text := by rw [List.append_nil, htext]
  ends := .inl rfl
  settled := fun _ => ⟨hmode, hroutine⟩
  ahead := fun _ => .nil _
  again := by
    intro t ht
    have hblocks := congrArg Draft.routine ht.blocks
    refine ⟨t, .nil t, ?_, rfl, rfl, hblocks.trans hroutine, rfl⟩
    rw [ht.mode, hmode]
    rfl

theorem agrees (h : Replays o s held future st) (htrailing : s.draft.trailingSpace = false)
    (hmode : s.mode = .normal ∨ s.mode.isText = true) : Agrees held future := by
  have hahead := h.ahead htrailing
  rwa [if_pos hmode] at hahead

/-- A text of the statement is read by both scans. -/
theorem adds (h : Replays o (next.advance (c :: cs)) rest future st)
    (hdelimiter : next.delimiter = s.delimiter)
    (hout : next.draft.out = (c :: cs).reverse ++ s.draft.out)
    (htrailing : next.draft.trailingSpace = false)
    (hmode : next.mode = .normal ∨ next.mode.isText = true)
    (hsmode : s.mode = .normal ∨ s.mode.isText = true)
    (hsolid : next.mode = .normal → EndsSolid (c :: cs))
    (hpass : ∀ t, Resembles s t → Agrees rest future → ∃ t', Passes o t (c :: cs) future t' ∧
      Resembles (next.advance (c :: cs)) t' ∧ t'.draft.start = t.draft.start ∧
        t'.draft.out = (c :: cs).reverse ++ t.draft.out ∧ t'.statistics = t.statistics) :
    Replays o s (c :: cs ++ rest) (c :: cs ++ future) st where
  held_ne_nil := List.cons_ne_nil _ _
  delimiter := hdelimiter ▸ h.delimiter
  text := by
    rw [h.text]
    simp only [Splitter.advance, hout, List.reverse_append, List.reverse_reverse, List.append_assoc]
  ends := by
    rcases h.ends with hnil | hends
    · have hnormal : next.mode = .normal := by
        refine hmode.resolve_right fun hisText => ?_
        have := (h.settled hnil).1
        rw [show (next.advance (c :: cs)).mode = next.mode from rfl, hisText] at this
        cases this
      rw [hnil, List.append_nil]
      exact .inr (hsolid hnormal)
    · exact .inr (hends.behind _)
  settled := by rintro ⟨⟩
  ahead := by
    intro _
    rw [if_pos hsmode]
    exact (h.agrees htrailing hmode).append (c :: cs)
  again := by
    intro t ht
    obtain ⟨t', hpass, hresembles, hstart, hout, hstatistics⟩ :=
      hpass t ht (h.agrees htrailing hmode)
    obtain ⟨t'', hpass', hmode, hstart', hout', hroutine, hremoved⟩ := h.again t' hresembles
    refine ⟨t'', ?_, hmode, hstart'.trans hstart, ?_, hroutine, by rw [hremoved, hstatistics]⟩
    · exact hpass.trans_nil hpass'
    · rw [hout', hout, List.reverse_append, List.append_assoc]

/-- Where the first scan adds nothing, the second one waits. -/
theorem skip (h : Replays o next rest future st) {b : Bool} (hheld : held ≠ [])
    (hdelimiter : next.delimiter = s.delimiter)
    (hdraft : next.draft = { s.draft with afterComment := b }) (hmode : s.mode.isText = false)
    (hnext : next.mode.isText = false)
    (hcase : next.mode ≠ .normal ∨
      s.draft.trailingSpace = true ∧ next.draft.lastWordEnd ≠ some next.offset) :
    Replays o s held future st where
  held_ne_nil := hheld
  delimiter := hdelimiter ▸ h.delimiter
  text := by rw [h.text, hdraft]
  ends := h.ends
  settled := by
    intro hnil
    refine ⟨hmode, ?_⟩
    rw [← (h.settled hnil).2, hdraft]
  ahead := by
    intro htrailing
    rcases hcase with hcomment | ⟨htrue, -⟩
    · have hahead := h.ahead (by rw [hdraft]; exact htrailing)
      rw [if_neg (by simp [hcomment, hnext])] at hahead
      exact hahead.of_nil _
    · cases htrue.symm.trans htrailing
  again := by
    intro t ht
    refine h.again t ⟨?_, ht.delimiter, ht.started, ht.out, ht.afterComment, ?_, ?_, ?_, ht.wordEnd,
      fun hnormal => ?_, ?_⟩
    · rw [ht.mode, hmode, hnext]
      rfl
    · rw [ht.size, hdraft]
    · rw [ht.blocks, hdraft]
      rfl
    · rw [ht.lastWord, hdraft]
    · obtain ⟨htrue, hend⟩ := hcase.resolve_left (not_not_intro hnormal)
      exact iff_of_false (ht.apart htrue) hend
    · rw [hdraft]
      exact ht.apart

/-- A blank is read by both scans, unless the text of the statement ends before it. -/
theorem blank (h : Replays o next rest future st) {b : Bool} (hc : isBlank c = true)
    (hheld : held ≠ []) (hdelimiter : next.delimiter = s.delimiter)
    (hdraft : next.draft =
      { s.draft with out := c :: s.draft.out, trailingSpace := true, afterComment := b })
    (hmode : s.mode.isText = false) (hnext : next.mode = .normal)
    (hend : next.draft.lastWordEnd ≠ some next.offset) :
    ∃ future', Replays o s held future' st := by
  by_cases hfuture : future = []
  · refine ⟨[], .nil hheld (hdelimiter ▸ h.delimiter) ?_ hmode ?_⟩
    · rw [h.text, hfuture, List.append_nil, hdraft, List.reverse_cons,
        trim_append (List.forall_mem_singleton.2 hc)]
    · rw [← (h.settled hfuture).2, hdraft]
  · refine ⟨c :: future, hheld, hdelimiter ▸ h.delimiter, ?_, .inr ?_, ?_, fun _ => .blank hc _ _,
      fun t ht => ?_⟩
    · rw [h.text, hdraft, List.reverse_cons, List.append_assoc]
      rfl
    · exact (h.ends.resolve_left hfuture).behind [c]
    · rintro ⟨⟩
    · have hnormal : t.mode = .normal := by
        rw [ht.mode, hmode]
        rfl
      have hpush : t.draft.pushBlank c =
          { t.draft with out := c :: t.draft.out, trailingSpace := true } := by
        rw [Draft.pushBlank, if_neg (by simp [ht.out, ht.afterComment])]
      have hpass : Passes o t [c] future _ := passes_blank hnormal ht.delimiter hc
      rw [hpush] at hpass
      have hlate : t.draft.lastWordEnd ≠ some (t.offset + 1) := by
        intro heq
        have := ht.wordEnd _ heq
        omega
      have hresembles : Resembles next (t.goTo .normal
          { t.draft with out := c :: t.draft.out, trailingSpace := true } [c]) := by
        refine ⟨?_, ht.delimiter, ht.started, List.cons_ne_nil _ _, ht.afterComment, ?_, ?_, ?_,
          fun n hn => (ht.wordEnd n hn).trans (Nat.le_add_right _ _),
          fun _ => iff_of_false hlate hend, fun _ => hlate⟩
        · rw [hnext]
          rfl
        · rw [hdraft]
          exact ht.size
        · rw [hdraft]
          exact ht.blocks
        · rw [hdraft]
          exact ht.lastWord
      obtain ⟨t', hpass', hmode', hstart, hout, hroutine, hremoved⟩ := h.again _ hresembles
      refine ⟨t', hpass.trans_nil hpass', hmode', hstart, ?_,
        hroutine, hremoved⟩
      rw [hout, goTo_draft, List.reverse_cons, List.append_assoc]
      rfl

end Replays

theorem endsSolid_of_forall (h : ∀ x ∈ c :: cs, isBlank x = false) : EndsSolid (c :: cs) := by
  rw [EndsSolid, List.getLast?_eq_some_getLast (List.cons_ne_nil c cs), Option.any_some,
    h _ (List.getLast_mem _)]
  rfl

/-- What closes a text is no blank. -/
theorem endsSolid_of_pieceAt {mode : Mode} (hmode : mode.isText = true)
    (htag : ∀ tag, mode = .dollarQuoted tag → ∀ c ∈ tag, isBlank c = false)
    (hp : pieceAt mode c rest = (c :: cs, true)) : EndsSolid (c :: cs) := by
  refine endsSolid_of_forall fun x hx => ?_
  cases mode with
  | normal | lineComment => cases hmode
  | quoted mark escapes =>
    have hclosing : isBlank mark.closing = false := by cases mark <;> decide
    dsimp only [pieceAt] at hp
    split at hp
    · cases hp
    · split at hp
      · next hc =>
        split at hp
        · cases hp
        · cases hp
          rw [List.mem_singleton.1 hx, beq_iff_eq.1 hc, hclosing]
      · cases hp
  | blockComment kept =>
    dsimp only [pieceAt] at hp
    split at hp
    · cases hp
      have hclosing : ['*', '/'].all (isBlank · = false) = true := by decide
      exact List.all_iff_forall_prop.1 hclosing x hx
    · cases hp
  | dollarQuoted tag =>
    dsimp only [pieceAt] at hp
    split at hp
    · cases hp
      exact htag _ rfl x hx
    · cases hp

/-- A piece of a text is read by both scans. -/
theorem readPiece_resembles (hisText : s.mode.isText = true) (h : Resembles s t)
    (hs : ∀ n ∈ s.draft.lastWordEnd, n ≤ s.offset) (last : Bool) :
    Resembles ((s.readPiece (c :: cs, last)).advance (c :: cs))
      ((t.readPiece (c :: cs, last)).advance (c :: cs)) := by
  have hmode : t.mode = s.mode := by rw [h.mode, hisText, if_pos rfl]
  have hdraft (u : Splitter) (hu : u.mode.isText = true) :
      ((u.readPiece (c :: cs, last)).advance (c :: cs)).draft = u.draft.push (c :: cs) := by
    simp [Splitter.advance, readPiece, hu]
  have hlate (u : Splitter) (hu : ∀ n ∈ u.draft.lastWordEnd, n ≤ u.offset) :
      u.draft.lastWordEnd ≠ some (u.offset + (c :: cs).length) := by
    intro heq
    have := hu _ heq
    rw [List.length_cons] at this
    omega
  have hs' := hdraft s hisText
  have ht' := hdraft t (by rw [hmode, hisText])
  refine ⟨?_, h.delimiter, ?_, ?_, ?_, ?_, ?_, ?_, ?_, fun _ => ?_, fun htrailing => ?_⟩
  · change (if last then Mode.normal else t.mode) =
      if (if last then Mode.normal else s.mode).isText then _ else _
    rw [hmode]
    cases last with
    | true => rfl
    | false => exact (if_pos hisText).symm
  · rw [ht']
    exact h.started
  · rw [ht']
    simp [Draft.push]
  · rw [ht']
    rfl
  · rw [ht', hs']
    simp [Draft.push, h.size]
  · rw [ht', hs']
    exact h.blocks
  · rw [ht', hs']
    exact h.lastWord
  · rw [ht']
    exact fun n hn => (h.wordEnd n hn).trans (Nat.le_add_right _ _)
  · rw [ht', hs']
    exact iff_of_false (hlate t h.wordEnd) (hlate s hs)
  · rw [hs'] at htrailing
    cases htrailing

theorem late_of_inOrder (hs : InOrder s) :
    s.draft.lastWordEnd ≠ some (s.offset + (c :: cs).length) := by
  intro heq
  have := hs.wordEnd _ heq
  rw [List.length_cons] at this
  omega

/-! ## The steps within a statement -/

namespace Replays

/-- A token of the statement. -/
theorem token (hk : o.keepComments = false) (hs : InOrder s) {tok : Token}
    (hmode : s.mode = .normal) (hends : (s.settled c (cs ++ rest)).2 = false)
    (ht : tokenAt o (stringEscapes o (s.atPlace c (cs ++ rest))) c (cs ++ rest) = tok)
    (htext : tok.text c = c :: cs) (hisText : tok.isText = true)
    (hfits : o.maxSize.isExceededBy (s.draft.size + (c :: cs).length) = false)
    (h : Replays o ((tok.read (s.atPlace c (cs ++ rest)) c).advance (c :: cs)) rest future st) :
    Replays o s (c :: cs ++ rest) (c :: cs ++ future) st := by
  have hdelimiter : s.delimiter = [';'] :=
    (tok.read_delimiter (s.atPlace c (cs ++ rest)) c).symm.trans h.delimiter
  obtain ⟨depth, pendingEnd, heq⟩ := s.atPlace_eq c (cs ++ rest)
  have hadds := htext ▸ tok.read_adds hisText (s.atPlace c (cs ++ rest)) c
  refine h.adds (tok.read_delimiter _ c) ?_ hadds.trailingSpace
    (Token.read_mode (s := s.atPlace c (cs ++ rest)) (.inl hisText) hmode c) (.inl hmode)
    (fun _ => ?_) fun t ht' hagrees => ?_
  · rw [hadds.out, heq]
  · have hsolid := not_isBlank_of_mem_text ht hisText
    rw [htext] at hsolid
    exact endsSolid_of_forall hsolid
  · have htmode : t.mode = .normal := by
      rw [ht'.mode, hmode]
      rfl
    obtain ⟨hends', hblocks⟩ := settled_of_blocks hdelimiter ht'.delimiter ht'.blocks c
      (cs ++ rest) (cs ++ future)
    obtain ⟨depth', pendingEnd', heq'⟩ := t.atPlace_eq c (cs ++ future)
    have hescapes : stringEscapes o (t.atPlace c (cs ++ future)) =
        stringEscapes o (s.atPlace c (cs ++ rest)) := by
      rw [heq, heq']
      exact stringEscapes_congr o ht'.lastWord (ht'.afterWord hmode)
    have hagain := tokenAt_agrees hagrees ht htext hisText
    rw [← hescapes] at hagain
    refine ⟨_, passes_token hk htmode (hends'.trans hends) hagain htext
      (setsDelimiter_of_started o ht'.started c tok) (by rwa [ht'.size]), ?_, ?_, ?_, ?_⟩
    · refine Token.read_resembles hisText htext hmode htmode ht'.delimiter ?_ hblocks ?_ ?_ ?_
      · rw [atPlace_size, atPlace_size, ht'.size]
      · rw [heq, heq']
        exact ht'.lastWord
      · rw [heq]
        exact hs.wordEnd
      · rw [heq']
        exact ht'.wordEnd
    · refine (tok.read_adds hisText (t.atPlace c (cs ++ future)) c).start.trans ?_
      rw [heq']
      obtain ⟨n, hn⟩ := Option.isSome_iff_exists.1 ht'.started
      rw [hn, Option.getD_some]
    · refine (tok.read_adds hisText (t.atPlace c (cs ++ future)) c).out.trans ?_
      rw [htext, heq']
    · exact Token.read_statistics (.inl hisText) (t.atPlace c (cs ++ future)) c

/-- A blank, or what opens a comment. -/
theorem gapToken (hs : InOrder s) {tok : Token} (hmode : s.mode = .normal) {escapes : Bool}
    (ht : tokenAt o escapes c (cs ++ rest) = tok) (htext : tok.text c = c :: cs)
    (hgap : tok.isText = false) (hstart : s.draft.start.isSome = true)
    (h : Replays o ((tok.read s c).advance (c :: cs)) rest future st) :
    ∃ future', Replays o s (c :: cs ++ rest) future' st := by
  have hheld : c :: cs ++ rest ≠ [] := List.cons_ne_nil _ _
  have hnotText : s.mode.isText = false := by
    rw [hmode]
    rfl
  cases tok with
  | blank =>
    obtain ⟨-, rfl⟩ := List.cons.inj htext
    have hlate : s.draft.lastWordEnd ≠ some (s.offset + [c].length) := late_of_inOrder hs
    rcases s.draft.pushBlank_cases c with ⟨hpush, hskip⟩ | ⟨-, -, hpush⟩
    · have hafter := hskip.resolve_left (hs.out_ne_nil hstart)
      refine ⟨_, h.skip (b := s.draft.afterComment) hheld rfl hpush hnotText hnotText
        (.inr ⟨hs.gap hafter, ?_⟩)⟩
      change (s.draft.pushBlank c).lastWordEnd ≠ _
      rw [hpush]
      exact hlate
    · refine h.blank (b := s.draft.afterComment) (isBlank_of_tokenAt ht) hheld rfl hpush hnotText
        hmode ?_
      change (s.draft.pushBlank c).lastWordEnd ≠ _
      rw [hpush]
      exact hlate
  | lineComment marker | blockComment =>
    refine ⟨_, h.skip (b := s.draft.afterComment) hheld rfl rfl hnotText rfl (.inl ?_)⟩
    rintro ⟨⟩
  | word others | quote mark escapes | executable | dollar tag | symbol => cases hgap

/-- A piece of a quoted text. -/
theorem textPiece (hk : o.keepComments = false) (hs : InOrder s) {last : Bool}
    (hmode : s.mode ≠ .normal) (hp : pieceAt s.mode c (cs ++ rest) = (c :: cs, last))
    (hisText : s.mode.isText = true)
    (hfits : o.maxSize.isExceededBy (s.draft.size + (c :: cs).length) = false)
    (hstart : s.draft.start.isSome = true)
    (h : Replays o ((s.readPiece (c :: cs, last)).advance (c :: cs)) rest future st) :
    Replays o s (c :: cs ++ rest) (c :: cs ++ future) st := by
  have hadds := readPiece_adds s hisText hstart (c :: cs, last)
  refine h.adds rfl hadds.out hadds.trailingSpace ?_ (.inr hisText) (fun hnormal => ?_)
    fun t ht hagrees => ?_
  · cases last with
    | true => exact .inl rfl
    | false => exact .inr hisText
  · cases last with
    | true => exact endsSolid_of_pieceAt hisText hs.tag hp
    | false => exact absurd hnormal hmode
  · have htmode : t.mode = s.mode := by rw [ht.mode, hisText, if_pos rfl]
    have htText : t.mode.isText = true := by rw [htmode, hisText]
    have hagain := pieceAt_agrees hagrees hp hisText hs.tag h.held_ne_nil
    rw [← htmode] at hagain
    have htAdds := readPiece_adds t htText ht.started (c :: cs, last)
    refine ⟨_, passes_piece hk (htmode ▸ hmode) hagain (by rwa [ht.size]),
      readPiece_resembles hisText ht hs.wordEnd last, htAdds.start.trans ?_, htAdds.out, rfl⟩
    obtain ⟨n, hn⟩ := Option.isSome_iff_exists.1 ht.started
    rw [hn, Option.getD_some]

/-- A piece of a comment. Its end leaves a blank. -/
theorem commentPiece (hs : InOrder s) {last : Bool} (hmode : s.mode ≠ .normal)
    (hcomment : s.mode.isText = false) (hstart : s.draft.start.isSome = true)
    (h : Replays o ((s.readPiece (c :: cs, last)).advance (c :: cs)) rest future st) :
    ∃ future', Replays o s (c :: cs ++ rest) future' st := by
  have hheld : c :: cs ++ rest ≠ [] := List.cons_ne_nil _ _
  have hdraft : ((s.readPiece (c :: cs, last)).advance (c :: cs)).draft =
      if last then s.draft.gap else s.draft := by
    simp [Splitter.advance, readPiece, hcomment]
  cases last with
  | false =>
    exact ⟨_, h.skip (b := s.draft.afterComment) hheld rfl hdraft hcomment hcomment (.inl hmode)⟩
  | true =>
    rcases s.draft.gap_cases with ⟨hgap, hskip⟩ | ⟨-, -, hgap⟩
    · have htrailing := hskip.resolve_left (hs.out_ne_nil hstart)
      refine ⟨_, h.skip (b := true) hheld rfl (hdraft.trans hgap) hcomment rfl
        (.inr ⟨htrailing, ?_⟩)⟩
      rw [hdraft, if_pos rfl, hgap]
      exact late_of_inOrder hs
    · refine h.blank (b := true) (c := ' ') (by decide) hheld rfl (hdraft.trans hgap) hcomment
        rfl ?_
      rw [hdraft, if_pos rfl, hgap]
      exact late_of_inOrder hs

end Replays

/-- A step of the first scan within a statement, and what the second scan makes of it. -/
theorem Reads.replays (hk : o.keepComments = false) {more : Option Statement} (hs : InOrder s)
    (hreads : Reads o s c cs rest next more) (hstart : s.draft.start.isSome = true)
    (hnext : next.draft.start.isSome = true)
    (h : Replays o (next.advance (c :: cs)) rest future st) :
    ∃ future', Replays o s (c :: cs ++ rest) future' st := by
  cases hreads with
  | close hmode htext hends =>
    rw [emit_draft] at hnext
    cases hnext
  | direct delimiter changes hmode hnone hdelimiter =>
    rw [hnone] at hstart
    cases hstart
  | token tok hmode hends ht htext hset hfits =>
    by_cases hisText : tok.isText = true
    · exact ⟨_, h.token hk hs hmode hends ht htext hisText (hfits hisText)⟩
    · have hc : c ≠ ';' := by
        rintro rfl
        rw [tokenAt_semicolon] at ht
        exact hisText (ht ▸ rfl)
      rw [atPlace_of_ne hc] at h
      exact h.gapToken hs hmode ht htext (by simpa using hisText) hstart
  | piece last hmode hp hfits =>
    by_cases hisText : s.mode.isText = true
    · exact ⟨_, h.textPiece hk hs hmode hp hisText (hfits hisText) hstart⟩
    · exact h.commentPiece hs hmode (by simpa using hisText) hstart

/-! ## From the first character on -/

/-- Whether the text of a statement, split as a script, is one statement with the same text. -/
def IsFixed (o : Options) (st : Statement) : Prop :=
  ∃ again, (parse o st.text.toList).2 = .ok [again] ∧ again.text = st.text ∧
    again.inRoutine = st.inRoutine ∧
    (parse o st.text.toList).1.statistics.commentsRemoved = 0

/-- A text that is read to its end is one statement. -/
theorem isFixed_of_passes (htext : st.text = String.ofList cs) (hne : cs ≠ [])
    (htrim : trim cs = cs)
    (h : ∀ held n, ∃ t, Passes o (({} : Splitter).retag held n) cs [] t ∧ t.mode = .normal ∧
      t.draft.start.isSome = true ∧ t.draft.out.reverse = cs ∧ t.draft.routine = st.inRoutine ∧
      t.statistics.commentsRemoved = 0) : IsFixed o st := by
  obtain ⟨t, found, ⟨rfl, again, hagain, hsame, hroutine, hremoved⟩, hparse, hstatistics⟩ :=
    parse_of_scan (o := o) cs (P := fun t found => found = [] ∧ ∃ again,
      (t.emit none).2 = some again ∧
      again.text = st.text ∧ again.inRoutine = st.inRoutine ∧
      t.statistics.commentsRemoved = 0) fun base held => by
    obtain ⟨t, hpass, hmode, hstart, hout, hroutine, hremoved⟩ := h held cs.length
    have hscan := hpass base []
    rw [List.append_nil, scan_nil] at hscan
    obtain ⟨n, hn⟩ := Option.isSome_iff_exists.1 hstart
    have hdraft : t.draft.text = cs := by rw [Draft.text, hout, htrim]
    refine ⟨_, _, hscan, hmode, rfl, _,
      emit_snd_of_text (s := { t with held := [] }) hn (by rw [hdraft]; exact hne), ?_, hroutine,
      hremoved⟩
    rw [htext, hdraft]
  obtain ⟨statistics, hemit, hkept⟩ := t.emit_fst none
  rw [IsFixed, htext, String.toList_ofList, ← htext]
  refine ⟨again, ?_, hsame, hroutine, ?_⟩
  · rw [hparse, hagain]
    rfl
  · rw [hstatistics, hemit]
    exact hkept.trans hremoved

theorem setsDelimiter_congr (o : Options) (h : u.draft.start = v.draft.start) (c : Char)
    (tok : Token) : setsDelimiter o u c tok = setsDelimiter o v c tok := by
  cases tok with
  | word others => rw [setsDelimiter, setsDelimiter, h]
  | blank | quote mark escapes | executable | dollar tag | lineComment marker | blockComment
  | symbol => rfl

/-- What the first token of a statement is in the script, it is in the text of the statement. -/
theorem Replays.first (hk : o.keepComments = false) (hs : InOrder s) (hstart : s.draft.start = none)
    {tok : Token} (hmode : s.mode = .normal) (hc : c ≠ ';')
    (ht : tokenAt o (stringEscapes o s) c (cs ++ rest) = tok) (htext : tok.text c = c :: cs)
    (hisText : tok.isText = true) (hset : setsDelimiter o s c tok = false)
    (hfits : o.maxSize.isExceededBy (s.draft.size + (c :: cs).length) = false)
    (h : Replays o ((tok.read s c).advance (c :: cs)) rest future st) (held : Chars) (n : Nat) :
    ∃ t, Passes o (({} : Splitter).retag held n) (c :: cs) future t ∧
      Resembles ((tok.read s c).advance (c :: cs)) t ∧ t.draft.start.isSome = true ∧
      t.draft.out = (c :: cs).reverse ∧ t.statistics.commentsRemoved = 0 := by
  -- Where a statement begins, the draft of the first scan is fresh as well.
  have hdraft := (hs.fresh hstart).2
  have hfresh (rest : Chars) :
      (({} : Splitter).retag held n).atPlace c rest = ({} : Splitter).retag held n :=
    atPlace_of_ne hc rest
  have hlastWord : (({} : Splitter).retag held n).draft.lastWord = s.draft.lastWord := by
    rw [hdraft]
    rfl
  have hsize : (({} : Splitter).retag held n).draft.size = s.draft.size := by
    rw [hdraft]
    rfl
  have hescapes : stringEscapes o (({} : Splitter).retag held n) = stringEscapes o s := by
    refine stringEscapes_congr o hlastWord (iff_of_false ?_ ?_)
    · rintro ⟨⟩
    · rw [hdraft]
      rintro ⟨⟩
  have hadds := htext ▸ tok.read_adds hisText s c
  have hagrees := h.agrees hadds.trailingSpace (Token.read_mode (.inl hisText) hmode c)
  have hagain := tokenAt_agrees hagrees ht htext hisText
  rw [← hescapes] at hagain
  have hset' : setsDelimiter o (({} : Splitter).retag held n) c tok = false := by
    rw [← hset]
    exact setsDelimiter_congr o hstart.symm c tok
  have hpass := passes_token (s := ({} : Splitter).retag held n) hk rfl
    (by rw [settled_of_semicolon rfl, if_neg hc]) (by rwa [hfresh]) htext hset'
    (by rwa [hsize])
  rw [hfresh] at hpass
  have hadds' := htext ▸ tok.read_adds hisText (({} : Splitter).retag held n) c
  refine ⟨_, hpass, Token.read_resembles hisText htext hmode rfl rfl hsize ?_ hlastWord hs.wordEnd
    ?_, ?_, hadds'.out.trans (List.append_nil _), ?_⟩
  · rw [hdraft]
    rfl
  · rintro n ⟨⟩
  · change ((tok.read (({} : Splitter).retag held n) c).draft.start).isSome = true
    rw [hadds'.start]
    rfl
  · exact congrArg _ (Token.read_statistics (.inl hisText) (({} : Splitter).retag held n) c)

/-- From the first token of a statement on the second scan reads what the first reads. -/
theorem Replays.isFixed (hk : o.keepComments = false) (hs : InOrder s)
    (hstart : s.draft.start = none) {tok : Token} (hmode : s.mode = .normal) (hc : c ≠ ';')
    (ht : tokenAt o (stringEscapes o s) c (cs ++ rest) = tok) (htext : tok.text c = c :: cs)
    (hisText : tok.isText = true) (hset : setsDelimiter o s c tok = false)
    (hfits : o.maxSize.isExceededBy (s.draft.size + (c :: cs).length) = false)
    (h : Replays o ((tok.read s c).advance (c :: cs)) rest future st) : IsFixed o st := by
  have hadds := htext ▸ tok.read_adds hisText s c
  have hsolid := not_isBlank_of_mem_text ht hisText
  rw [htext] at hsolid
  have hout : (tok.read s c).draft.out.reverse ++ future = c :: cs ++ future := by
    rw [hadds.out, hs.out_eq_nil hstart, List.append_nil, List.reverse_reverse]
  have htrim : trim (c :: cs ++ future) = c :: cs ++ future := by
    refine trim_eq_self ?_ ?_
    · rintro x ⟨⟩
      exact hsolid c List.mem_cons_self
    · rcases h.ends with hnil | hends
      · rw [hnil, List.append_nil]
        exact (endsSolid_of_forall hsolid).not_isBlank
      · exact (hends.behind _).not_isBlank
  have hstText : st.text = String.ofList (c :: cs ++ future) := by
    rw [h.text, ← htrim, ← hout]
    rfl
  refine isFixed_of_passes hstText (List.cons_ne_nil _ _) htrim fun held n => ?_
  obtain ⟨u, hpass, hresembles, hustart, huout, huremoved⟩ :=
    h.first hk hs hstart hmode hc ht htext hisText hset hfits held n
  obtain ⟨t, hpass', hnormal, htstart, htout, hroutine, hremoved⟩ := h.again _ hresembles
  refine ⟨t, hpass.trans_nil hpass', hnormal, by rwa [htstart], ?_, hroutine,
    hremoved.trans huremoved⟩
  rw [htout, huout, List.reverse_append, List.reverse_reverse, List.reverse_reverse]

/-- The step that begins a statement. -/
theorem Reads.isFixed (hk : o.keepComments = false) {more : Option Statement} (hs : InOrder s)
    (hreads : Reads o s c cs rest next more) (hstart : s.draft.start = none)
    (hnext : next.draft.start.isSome = true)
    (h : Replays o (next.advance (c :: cs)) rest future st) : IsFixed o st := by
  have hbegins : next.draft.start ≠ s.draft.start := by
    intro heq
    rw [heq, hstart] at hnext
    cases hnext
  cases hreads with
  | close hmode htext hends =>
    rw [emit_draft] at hnext
    cases hnext
  | direct delimiter changes hmode hnone hdelimiter => exact absurd rfl hbegins
  | piece last hmode hp hfits =>
    exact absurd (readPiece_start s _) hbegins
  | token tok hmode hends ht htext hset hfits =>
    have hdelimiter : s.delimiter = [';'] :=
      (tok.read_delimiter (s.atPlace c (cs ++ rest)) c).symm.trans h.delimiter
    have hcompound : s.draft.compound ≠ some true := by
      rw [(hs.fresh hstart).2]
      rintro ⟨⟩
    have hc : c ≠ ';' := by
      intro hc
      rw [settled_of_semicolon hdelimiter, if_pos hc, Draft.settle,
        if_pos (by simpa using hcompound)] at hends
      cases hends
    rw [atPlace_of_calm hcompound] at h ht hbegins
    by_cases hisText : tok.isText = true
    · exact h.isFixed hk hs hstart hmode hc ht htext hisText hset (hfits hisText)
    · exact absurd (Token.read_start (by simpa using hisText) s c) hbegins

/-- Where a semicolon closes the statement, nothing is left to read. -/
theorem Reads.closing (hreads : Reads o s c cs rest next (some st))
    (hterminator : st.terminator = some ";") :
    s.draft.start.isSome = true ∧ Replays o s (c :: cs ++ rest) [] st := by
  obtain ⟨hmode, -, -, hemit⟩ := hreads.closes
  obtain ⟨depth, pendingEnd, heq⟩ := s.atPlace_eq c (cs ++ rest)
  obtain ⟨n, hstart, rfl⟩ := eq_of_emit hemit
  rw [heq] at hstart
  have hdelimiter : s.delimiter = [';'] := by
    have hchars := congrArg String.toList (Option.some.inj hterminator)
    rwa [String.toList_ofList] at hchars
  refine ⟨by rw [hstart]; rfl, .nil (List.cons_ne_nil _ _) hdelimiter ?_ ?_ ?_⟩
  · rw [heq]
    rfl
  · rw [hmode]
    rfl
  · rw [heq]

/-- Along a scan every statement that a semicolon ends was found before, is a fixed point, or is the
one under way. -/
theorem scan_fixed (hk : o.keepComments = false) {base : Nat} (hsound : s.IsSound)
    (hterminator : st.terminator = some ";") (done : List Statement) :
    InOrder s → ∀ t all, scan o base true s held done = .ok (t, all) → st ∈ all →
      st ∈ done ∨ IsFixed o st ∨
        s.draft.start.isSome = true ∧ ∃ future, Replays o s held future st := by
  refine scan_reads hk (motive := fun s held done r => InOrder s → ∀ t all, r = .ok (t, all) →
    st ∈ all → st ∈ done ∨ IsFixed o st ∨
      s.draft.start.isSome = true ∧ ∃ future, Replays o s held future st)
    ?nil ?overflow ?read hsound held done
  case nil =>
    rintro s done _ _ _ ⟨⟩ hst
    exact .inl hst
  case overflow =>
    rintro s c rest done _ _ _ _ _ ⟨⟩
  case read =>
    intro s c cs rest done next more r _ hreads ih hs t all hr hst
    rcases ih (hreads.inOrder hs) t all hr hst with hfound | hfixed | ⟨hnext, future, hreplays⟩
    · rcases List.mem_append.1 hfound with hmore | hdone
      · obtain rfl : more = some st := by simpa using hmore
        obtain ⟨hstart, hreplays⟩ := hreads.closing hterminator
        exact .inr (.inr ⟨hstart, [], hreplays⟩)
      · exact .inl hdone
    · exact .inr (.inl hfixed)
    · by_cases hstart : s.draft.start.isSome = true
      · exact .inr (.inr ⟨hstart, hreads.replays hk hs hstart hnext hreplays⟩)
      · exact .inr (.inl (hreads.isFixed hk hs (by simpa using hstart) hnext hreplays))

/-- The statements that end with a semicolon are fixed points: the text of each, split as a script
of its own, is one statement with the same text, as much of a routine body as it was, and no comment
is found in it. -/
theorem parse_fixed (hk : o.keepComments = false) {script : Chars} {found : List Statement}
    (h : (parse o script).2 = .ok found) (hst : st ∈ found)
    (hterminator : st.terminator = some ";") :
    ∃ again, (parse o st.text.toList).2 = .ok [again] ∧ again.text = st.text ∧
      again.inRoutine = st.inRoutine ∧
      (parse o st.text.toList).1.statistics.commentsRemoved = 0 := by
  obtain ⟨base, held, t, done, hscan, -, rfl, -⟩ := scan_of_parse h
  rcases List.mem_append.1 hst with hst | hlast
  · rcases scan_fixed hk (isSound_fresh _ _) hterminator [] (inOrder_of_fresh rfl rfl) t done
      hscan (List.mem_reverse.1 hst) with hnil | hfixed | ⟨hstart, -⟩
    · cases hnil
    · exact hfixed
    · cases hstart
  · obtain ⟨n, -, rfl⟩ := eq_of_emit (by simpa using hlast)
    cases hterminator

/-- A statement out of which two comments were taken, one with a semicolon and a quote in it. -/
theorem parse_fixed_of_comments :
    let o : Options := { dialect := some .mysql }
    let script := "a/*;'*/'-- b' -- c\n;".toList
    let st : Statement :=
      { text := "a '-- b'", index := 0, start := 0, stop := 19, line := 1, terminator := some ";"
        inRoutine := false }
    o.keepComments = false ∧ (∃ found, (parse o script).2 = .ok found ∧ st ∈ found) ∧
      st.terminator = some ";" ∧ ∃ again, (parse o st.text.toList).2 = .ok [again] ∧
        again.text = st.text ∧ again.inRoutine = st.inRoutine ∧
        (parse o st.text.toList).1.statistics.commentsRemoved = 0 := by
  intro o script st
  have hparse : (parse o script).2 = .ok [st] := eq_ok_of_toOption (by decide +kernel)
  exact ⟨rfl, ⟨[st], hparse, List.mem_singleton_self st⟩, rfl,
    parse_fixed rfl hparse (List.mem_singleton_self st) rfl⟩

end SqlFerry.Splitter
