import SqlFerry.Proofs.Splitter.Faults
import SqlFerry.Proofs.Splitter.Spans

/-!
# Where faults point

What is wrong with a script begins at a place in it: where a quoted text or a comment is opened that
does not end, or where a statement begins that becomes too long. A splitter that goes on from there
remembers the place, so that whatever it reports later has its line, and its offset too unless that
is where the script begins.
-/

namespace SqlFerry.Splitter

open Text

variable {o : Options} {P : Splitter → Prop} {script held cs rest : Chars} {s t next : Splitter}
  {c : Char} {more : Option Statement} {e f : Fault}

inductive Comes (o : Options) (P : Splitter → Prop) (s : Splitter) (cs : Chars) :
    Splitter → Chars → Prop where
  | here : Comes o P s cs s cs
  | step {t next : Splitter} {c : Char} {rest : Chars} {extra : Nat} {more : Option Statement}
    (h : Comes o P s cs t (c :: rest))
    (hstep : step o 0 true t c rest = .ok (.take extra next more))
    (hP : P (next.advance (c :: rest.take extra))) :
    Comes o P s cs (next.advance (c :: rest.take extra)) (rest.drop extra)

def Mode.opening : Mode → Chars
  | normal | lineComment => []
  | quoted mark _ => [mark.opening]
  | blockComment _ => ['/', '*']
  | dollarQuoted tag => tag

inductive Fault.PointsAt (o : Options) (script : Chars) : Fault → Prop where
  /-- What is opened there does not end. -/
  | unterminated {mode : Mode} {s t : Splitter} {held : Chars}
    (hcomes : Comes o (fun _ => True) {} script s held) (hnormal : s.mode = .normal)
    (hne : mode.opening ≠ []) (hopening : mode.opening <+: script.drop s.offset)
    (hstays : Comes o (·.mode = mode) s held t []) :
    PointsAt o script (.unterminated mode s.offset (lineAt script s.offset))
  /-- The statement that begins there is still under way where a text cannot be added. -/
  | oversized {s t : Splitter} {held rest : Chars} {c : Char} {e : Fault}
    (hcomes : Comes o (fun _ => True) {} script s held) (hnormal : s.mode = .normal)
    (hnone : s.draft.start = none)
    (hstays : Comes o (·.draft.start = some s.offset) s held t (c :: rest))
    (hstops : step o 0 true t c rest = .error e) :
    PointsAt o script (.oversized o.maxSize s.offset (lineAt script s.offset))

/-! ## One step -/

theorem opening_of_quote {escapes escapes' : Bool} {mark : Mark}
    (ht : tokenAt o escapes c rest = .quote mark escapes') : c = mark.opening := by
  unfold tokenAt at ht
  split at ht
  · cases ht
  split at ht
  · cases ht
  iterate 2
    split at ht
    · next h =>
      cases ht
      exact eq_of_beq h
  iterate 2
    split at ht
    · next h =>
      cases ht
      exact eq_of_beq (Bool.and_eq_true_iff.1 h).1
  repeat' split at ht
  all_goals cases ht

namespace Reads

/-- A step stays in the mode, leaves it, or opens one where it stands. -/
theorem mode_cases (h : Reads o s c cs rest next more) :
    (next.mode = s.mode ∧ next.openOffset = s.openOffset ∧ next.openLine = s.openLine) ∨
      next.mode.opening = [] ∨
      s.mode = .normal ∧ next.openOffset = s.offset ∧ next.openLine = s.line ∧
        next.mode.opening <+: c :: cs := by
  cases h with
  | close hmode htext hends =>
    obtain ⟨statistics, hemit, -⟩ := (s.atPlace c (cs ++ rest)).emit_fst (some s.delimiter)
    refine .inr (.inl ?_)
    rw [hemit]
    change s.mode.opening = []
    rw [hmode]
    rfl
  | direct delimiter changes hmode hstart hdelimiter => exact .inl ⟨rfl, rfl, rfl⟩
  | token t hmode hends ht htext hset hfits =>
    cases t with
    | word others | blank | symbol => exact .inl ⟨rfl, rfl, rfl⟩
    | lineComment marker => exact .inr (.inl rfl)
    | quote mark escapes =>
      refine .inr (.inr ⟨hmode, rfl, rfl, ?_⟩)
      rw [opening_of_quote ht]
      exact List.cons_prefix_cons.2 ⟨rfl, List.nil_prefix⟩
    | executable =>
      refine .inr (.inr ⟨hmode, rfl, rfl, ?_⟩)
      rw [← htext]
      exact List.prefix_append ['/', '*'] ['!']
    | dollar tag => exact .inr (.inr ⟨hmode, rfl, rfl, by rw [← htext]; exact List.prefix_rfl⟩)
    | blockComment => exact .inr (.inr ⟨hmode, rfl, rfl, by rw [← htext]; exact List.prefix_rfl⟩)
  | piece last hmode hp hfits =>
    cases last with
    | true => exact .inr (.inl rfl)
    | false => exact .inl ⟨rfl, rfl, rfl⟩

/-- A statement begins outside of quotes and comments. -/
theorem normal_of_begins (h : Reads o s c cs rest next more) (hnone : s.draft.start = none)
    (hsome : next.draft.start ≠ none) : s.mode = .normal := by
  cases h with
  | close hmode | direct _ _ hmode | token _ hmode => exact hmode
  | piece last hmode hp hfits => exact absurd ((readPiece_start s _).trans hnone) hsome

end Reads

/-! ## The places behind -/

/-- A splitter that has come to `held` in a script, and the places that it remembers. -/
structure Remembers (o : Options) (script : Chars) (s : Splitter) (held : Chars) : Prop where
  comes : Comes o (fun _ => True) {} script s held
  sound : s.IsSound
  place : At script s held
  order : InOrder s
  anchored : Anchored script s
  /-- Where the statement began that is under way. -/
  began : ∀ n ∈ s.draft.start, ∃ u cs, Comes o (fun _ => True) {} script u cs ∧ u.mode = .normal ∧
    u.draft.start = none ∧ u.offset = n ∧ Comes o (·.draft.start = some n) u cs s held
  /-- Where the quoted text or the comment was opened. -/
  opened : s.mode.opening ≠ [] → ∃ u cs, Comes o (fun _ => True) {} script u cs ∧
    u.mode = .normal ∧ u.offset = s.openOffset ∧ s.mode.opening <+: script.drop s.openOffset ∧
    s.openLine = lineAt script s.openOffset ∧ Comes o (·.mode = s.mode) u cs s held

theorem remembers_fresh (o : Options) (script : Chars) : Remembers o script {} script where
  comes := .here
  sound := isSound_fresh [] 0
  place := ⟨Nat.zero_le _, rfl, rfl⟩
  order := inOrder_of_fresh rfl rfl
  anchored := anchored_fresh script [] 0
  began := by rintro n ⟨⟩
  opened := fun hne => absurd rfl hne

theorem Remembers.reads (h : Remembers o script s (c :: cs ++ rest))
    (hstep : step o 0 true s c (cs ++ rest) = .ok (.take cs.length next more))
    (hreads : Reads o s c cs rest next more) :
    Remembers o script (next.advance (c :: cs)) rest := by
  have hgo {P : Splitter → Prop} {u : Splitter} {held : Chars}
      (hcomes : Comes o P u held s (c :: (cs ++ rest))) (hP : P (next.advance (c :: cs))) :
      Comes o P u held (next.advance (c :: cs)) rest := by
    have hgo := hcomes.step hstep
    rw [List.take_left, List.drop_left] at hgo
    exact hgo hP
  refine ⟨hgo h.comes trivial, (hreads.sound h.sound).advance _,
    h.place.advance hreads.offset_eq hreads.line_eq, hreads.inOrder h.order,
    hreads.anchored h.place h.order h.anchored, fun n hn => ?_, fun hne => ?_⟩
  · change next.draft.start = some n at hn
    have hstart : some n = some (s.draft.start.getD s.offset) := by
      rcases hreads.start_cases with hnone | hsome
      · cases hn.symm.trans hnone
      · exact hn.symm.trans hsome
    cases hs : s.draft.start with
    | none =>
      rw [hs, Option.getD_none] at hstart
      cases hstart
      exact ⟨s, _, h.comes, hreads.normal_of_begins hs (by rw [hn]; rintro ⟨⟩), hs, rfl,
        hgo .here hn⟩
    | some m =>
      rw [hs, Option.getD_some] at hstart
      cases hstart
      obtain ⟨u, held, hcomes, hnormal, hnone, hoffset, hstays⟩ := h.began n hs
      exact ⟨u, held, hcomes, hnormal, hnone, hoffset, hgo hstays hn⟩
  · change next.mode.opening ≠ [] at hne
    rcases hreads.mode_cases with
      ⟨hmode, hoffset, hline⟩ | hnil | ⟨hnormal, hoffset, hline, hopening⟩
    · obtain ⟨u, held, hcomes, hnormal, hu, hopening, hopenLine, hstays⟩ := h.opened (hmode ▸ hne)
      rw [show (next.advance (c :: cs)).mode = s.mode from hmode,
        show (next.advance (c :: cs)).openOffset = s.openOffset from hoffset,
        show (next.advance (c :: cs)).openLine = s.openLine from hline]
      exact ⟨u, held, hcomes, hnormal, hu, hopening, hopenLine, hgo hstays hmode⟩
    · exact absurd hnil hne
    · refine ⟨s, _, h.comes, hnormal, hoffset.symm, ?_, ?_, hgo .here rfl⟩
      · simp only [Splitter.advance]
        rw [hoffset, h.place.drop_eq]
        exact hopening.trans (List.prefix_append _ _)
      · simp only [Splitter.advance]
        rw [hoffset, hline, h.place.line]

/-- The fault of a text that is too long names the place where the statement began. -/
theorem overflow_eq (hmode : s.mode = .normal ∨ s.draft.start.isSome = true) :
    s.overflow o 0 = .oversized o.maxSize (s.draft.start.getD s.offset)
      (if s.draft.start.isNone then s.line else s.draft.line) := by
  have hzero (n : Nat) : (if n = 0 then 0 else n) = n := by
    cases n <;> rfl
  unfold overflow
  dsimp only
  rw [hzero]
  split
  · rw [Draft.begin_start_eq, Draft.begin_line_eq, Option.getD_some]
  · next hne =>
    obtain ⟨n, hn⟩ := Option.isSome_iff_exists.1 (hmode.resolve_left hne)
    simp [hn]

theorem Remembers.pointsAt_overflow (h : Remembers o script s (c :: rest))
    (hmode : s.mode = .normal ∨ s.mode.isText = true)
    (hstep : step o 0 true s c rest = .error e) : (s.overflow o 0).PointsAt o script := by
  have hmode : s.mode = .normal ∨ s.draft.start.isSome = true :=
    hmode.imp_right h.order.started_of_text
  rw [overflow_eq hmode]
  cases hstart : s.draft.start with
  | none =>
    rw [Option.getD_none, Option.isNone_none, if_pos rfl, h.place.line]
    refine .oversized h.comes (hmode.resolve_right ?_) hstart .here hstep
    rw [hstart]
    rintro ⟨⟩
  | some n =>
    rw [Option.getD_some, Option.isNone_some, if_neg (by simp), (h.anchored.started n hstart).2]
    obtain ⟨u, held, hcomes, hnormal, hnone, rfl, hstays⟩ := h.began n hstart
    exact .oversized hcomes hnormal hnone hstays hstep

theorem Remembers.pointsAt_unclosed (h : Remembers o script s []) (hf : s.unclosed? = some f) :
    f.PointsAt o script := by
  obtain ⟨hne, rfl⟩ : s.mode.opening ≠ [] ∧ f = .unterminated s.mode s.openOffset s.openLine := by
    have htag := h.sound.tag
    unfold unclosed? at hf
    cases hmode : s.mode with
    | normal | lineComment =>
      rw [hmode] at hf
      cases hf
    | quoted mark escapes | blockComment kept =>
      rw [hmode] at hf
      cases hf
      exact ⟨List.cons_ne_nil _ _, rfl⟩
    | dollarQuoted tag =>
      rw [hmode] at hf htag
      cases hf
      exact ⟨fun hnil => htag (congrArg _ hnil), rfl⟩
  obtain ⟨u, held, hcomes, hnormal, hoffset, hopening, hline, hstays⟩ := h.opened hne
  rw [hline, ← hoffset]
  exact .unterminated hcomes hnormal hne (hoffset ▸ hopening) hstays

/-! ## Whole scripts -/

/-- What is wrong with a script is where it says. -/
theorem pointsAt_of_culprit? (hk : o.keepComments = false) (hf : culprit? o {} script = some f) :
    f.PointsAt o script := by
  suffices h : ∀ s held done, Remembers o script s held →
      flaw? (scan o 0 true s held done) = some f → f.PointsAt o script from
    h {} script [] (remembers_fresh o script) hf
  intro s held done
  apply scan_induction (motive := fun s held _ r => Remembers o script s held →
    flaw? r = some f → f.PointsAt o script)
  case nil =>
    intro s done h hf
    exact h.pointsAt_unclosed hf
  case error =>
    rintro s c rest done e hstep h ⟨⟩
    rcases step_eq_take_or_overflow hk 0 s c rest with ⟨extra, next, more, h'⟩ | ⟨hmode, h'⟩
    · cases hstep.symm.trans h'
    · cases hstep.symm.trans h'
      exact h.pointsAt_overflow hmode hstep
  case hold =>
    intro s c rest done hstep
    rcases step_eq_take_or_overflow hk 0 s c rest with ⟨extra, next, more, h⟩ | ⟨-, h⟩
    · cases hstep.symm.trans h
    · cases hstep.symm.trans h
  case take =>
    intro s c rest done extra next more hstep ih h
    obtain ⟨cs, after, rfl, rfl, hreads⟩ := reads_of_step hk h.sound hstep
    rw [List.take_left, List.drop_left] at ih ⊢
    exact ih (h.reads hstep hreads)

theorem Comes.eq_or (h : Comes o P s cs t rest) : t = s ∨ P t := by
  cases h with
  | here => exact .inl rfl
  | step h hstep hP => exact .inr hP

theorem Comes.culprit?_eq (h : Comes o P s cs t rest) : culprit? o s cs = culprit? o t rest := by
  induction h with
  | here => rfl
  | @step t next c rest extra more h hstep hP ih =>
    rw [ih, ← culprit?_done o _ (rest.drop extra) more.toList, culprit?, scan_cons, hstep]
    simp only [bind, Except.bind, List.append_nil]

/-- A script has one statement at most that is too long first. -/
theorem Fault.PointsAt.offset_eq {limit : SizeLimit} {offset line : Nat}
    (hk : o.keepComments = false) (h : (Fault.oversized limit offset line).PointsAt o script)
    (hf : culprit? o {} script = some f) : f.offset = offset := by
  cases h with
  | @oversized s t held rest c e hcomes hnormal hnone hstays hstops =>
    have hstart : t.mode = .normal ∧ t.draft.start.getD t.offset = s.offset ∨
        t.draft.start = some s.offset := by
      rcases hstays.eq_or with rfl | hP
      · exact .inl ⟨hnormal, by rw [hnone, Option.getD_none]⟩
      · exact .inr hP
    rw [hcomes.culprit?_eq, hstays.culprit?_eq, culprit?, scan_cons, hstops,
      eq_overflow_of_step hk hstops,
      overflow_eq (hstart.imp And.left fun h => by rw [h]; rfl)] at hf
    cases hf
    rcases hstart with ⟨-, h⟩ | h
    · exact h
    · rw [Fault.offset, h, Option.getD_some]

/-- However a script that cannot be split is cut into chunks, both readings report what is wrong
with it: for a quoted text or a comment that does not end its opening, for a statement that is too
long its beginning. Both give the reason and the line; they give the offset, and so agree, unless it
is that of a statement at the very beginning of the script, and the last call of one of the readings
began to read behind it. -/
theorem parse_error_points_iff (hk : o.keepComments = false) {chunks : List Chars}
    (h : (parse o chunks.flatten).2 = .error e) :
    ∃ f e' : Fault, f.PointsAt o chunks.flatten ∧ (stream o {} chunks).2 = .error e' ∧
      (e.reason = f.reason ∧ e.line = f.line) ∧ (e'.reason = f.reason ∧ e'.line = f.line) ∧
      (e.PointsAt o chunks.flatten ∧ e' = e ↔
        ¬((∃ line, f = .oversized o.maxSize 0 line) ∧
          (lastFrom o {} [chunks.flatten] ≠ 0 ∨ lastFrom o {} chunks ≠ 0))) := by
  have hparse := fault?_stream hk {} [chunks.flatten]
  have hstream := fault?_stream hk {} chunks
  rw [← parse_eq_stream, fault?_eq_some.2 h, List.flatten_singleton] at hparse
  generalize lastFrom o {} [chunks.flatten] = base at hparse ⊢
  generalize lastFrom o {} chunks = base' at hstream ⊢
  change some e = (culprit? o {} chunks.flatten).map _ at hparse
  change _ = (culprit? o {} chunks.flatten).map _ at hstream
  obtain ⟨f, hf, rfl⟩ := Option.map_eq_some_iff.1 hparse.symm
  rw [hf, Option.map_some, fault?_eq_some] at hstream
  have hpoints := pointsAt_of_culprit? hk hf
  have hsame (base : Nat) : (f.seenFrom base).reason = f.reason ∧
      (f.seenFrom base).line = f.line := by
    cases f <;> exact ⟨rfl, rfl⟩
  refine ⟨f, _, hpoints, hstream, hsame base, hsame base', ?_⟩
  cases f with
  | unterminated mode offset line =>
    refine iff_of_true ⟨hpoints, rfl⟩ ?_
    rintro ⟨⟨_, ⟨⟩⟩, -⟩
  | oversized limit offset line =>
    obtain rfl : limit = o.maxSize := by
      cases hpoints
      rfl
    -- Only a statement at the very front is reported from where the call began to read.
    by_cases hoffset : offset = 0
    · subst hoffset
      have hseen (base : Nat) : (Fault.oversized o.maxSize 0 line).seenFrom base =
          .oversized o.maxSize base line := rfl
      rw [hseen, hseen]
      constructor
      · rintro ⟨he, heq⟩ ⟨-, hmoved⟩
        have hbase : 0 = base := he.offset_eq hk hf
        cases heq
        exact hmoved.elim (fun h => h hbase.symm) fun h => h hbase.symm
      · intro hstay
        obtain ⟨rfl, rfl⟩ : base = 0 ∧ base' = 0 := by
          simpa using hstay
        exact ⟨hpoints, rfl⟩
    · have hseen (base : Nat) : (Fault.oversized o.maxSize offset line).seenFrom base =
          .oversized o.maxSize offset line := by
        rw [Fault.seenFrom, if_neg hoffset]
      rw [hseen, hseen]
      refine iff_of_true ⟨hpoints, rfl⟩ ?_
      rintro ⟨⟨line', heq⟩, -⟩
      cases heq
      exact hoffset rfl

/-- A string that is cut within, and begins on the second line. -/
theorem unterminated_string_points :
    let o : Options := { dialect := none }
    let chunks := ["a;\n'b".toList, "c".toList]
    let e : Fault := .unterminated (.quoted .single false) 3 2
    o.keepComments = false ∧ (parse o chunks.flatten).2 = .error e ∧
      e.PointsAt o chunks.flatten ∧ (stream o {} chunks).2 = .error e := by
  intro o chunks e
  have hother : e.reason ≠ (Fault.oversized o.maxSize 0 0).reason := by decide +kernel
  have hparse : (parse o chunks.flatten).2 = .error e :=
    fault?_eq_some.1 (by decide +kernel)
  obtain ⟨f, e', -, hstream, ⟨hreason, -⟩, -, hiff⟩ := parse_error_points_iff rfl hparse
  have hf : ¬∃ line, f = .oversized o.maxSize 0 line := by
    rintro ⟨line, rfl⟩
    exact hother hreason
  obtain ⟨hpoints, rfl⟩ := hiff.2 fun h => hf h.1
  exact ⟨rfl, hparse, hpoints, hstream⟩

/-- A statement at the beginning that is too long in its last word is reported at that word, because
the word is held back until the script ends; no statement begins there. -/
theorem not_oversized_points :
    ¬ ∀ (o : Options) (chunks : List Chars) (e : Fault), o.keepComments = false →
      (parse o chunks.flatten).2 = .error e →
        e.PointsAt o chunks.flatten ∧ (stream o {} chunks).2 = .error e := by
  intro h
  let o : Options := { dialect := none, maxSize := .ofInt 3 }
  have hparse : (parse o ["a bcd".toList].flatten).2 = .error (.oversized o.maxSize 2 1) :=
    fault?_eq_some.1 (by decide +kernel)
  have hculprit : culprit? o {} ["a bcd".toList].flatten = some (.oversized o.maxSize 0 1) := by
    decide +kernel
  have hoffset := (h o _ _ rfl hparse).1.offset_eq rfl hculprit
  cases hoffset

end SqlFerry.Splitter
