import SqlFerry.Proofs.Splitter.Strides

/-!
# Scans come to an end

Each stride of a scan goes on in the text, or leaves a line comment and then goes on, so a scan of
`n` characters ends after `2 * n + 1` strides at most. Strides to the end of a script never wait,
and nothing of the script is left behind. This holds of every splitter that can be reached, since
its delimiter is never empty.
-/

namespace SqlFerry.Splitter

open Text

variable {o : Options} {s t : Splitter} {base : Nat} {final : Bool} {n : Nat} {c : Char}
  {rest held : Chars} {done : List Statement}

/-! ## How far a stride goes -/

/-- Whether a stride with `n` characters at hand fails, waits while more may come, or goes no
further than they go, and goes on or leaves a line comment. -/
inductive Progresses (final : Bool) (n : Nat) (s : Splitter) : Except Fault Stride → Prop where
  | error (e : Fault) : Progresses final n s (.error e)
  | hold (h : final = false) : Progresses final n s (.ok .hold)
  | take {count : Nat} {next : Splitter} (done : Option Statement) (hcount : count ≤ n)
      (hgoes : 0 < count ∨ s.mode = .lineComment ∧ next.mode = .normal) (hnext : next.IsReady) :
      Progresses final n s (.ok (.take count next done))

theorem Bounded.progresses {place : Nat} {r : Except Fault Move} (h : Bounded final n place r) :
    Progresses final (n + 1) s (r.map Move.stride) := by
  cases h with
  | error e => exact .error e
  | hold h => exact .hold h
  | take done hextra hnext _ =>
    exact .take done (Nat.succ_le_succ hextra) (.inl (Nat.succ_pos _)) hnext

section Modes

variable (o : Options) (base : Nat) (final : Bool) (hs : s.IsReady)
include hs

/-- Text that is gathered may be as long as the text at hand. -/
theorem progresses_gathered {f : Splitter → Chars → Except Fault Splitter} (hf : Gathering f)
    {text : Chars} (hne : text ≠ []) (hlength : text.length ≤ n) {g : Splitter → Splitter}
    (hg : ∀ t : Splitter, t.IsReady → (g t).IsReady) :
    Progresses final n s (f s text >>= fun t => .ok (.take text.length (g t) none)) := by
  cases ht : f s text with
  | error e => exact .error e
  | ok t => exact .take none hlength (.inl (List.length_pos_iff.2 hne)) (hg t (hf.ready ht hs))

theorem progresses_run {f : Splitter → Chars → Except Fault Splitter} (hf : Gathering f)
    {text : Chars} (hne : text ≠ []) (hlength : text.length ≤ n) :
    Progresses final n s (f s text >>= fun t => .ok (.take text.length t none)) :=
  progresses_gathered final hs hf hne hlength (g := id) fun _ ht => ht

theorem strideNormal_progresses (c : Char) (rest : Chars) :
    Progresses final (rest.length + 1) s (strideNormal o base final s c rest) := by
  unfold strideNormal
  split
  · next hc =>
    rw [Bool.and_eq_true] at hc
    have hne : (c :: rest).takeWhile isBlank ≠ [] := by simp [hc.1]
    exact progresses_run final hs gathering_pushBlanks hne
      (List.takeWhile_sublist isBlank).length_le
  · exact (stepNormal_bounded o base final hs c rest).progresses

theorem strideQuoted_progresses (mark : Mark) (escapes : Bool) (c : Char) (rest : Chars) :
    Progresses final (rest.length + 1) s (strideQuoted o base final s mark escapes c rest) := by
  unfold strideQuoted
  split
  · next hc =>
    have hne : (c :: rest).takeWhile (isPlainBetween mark escapes) ≠ [] := by simp [hc]
    exact progresses_run final hs (gathering_append o base) hne
      (List.takeWhile_sublist _).length_le
  · exact (stepQuoted_bounded o base final hs c rest mark escapes).progresses

theorem strideLineComment_progresses (hmode : s.mode = .lineComment) (c : Char) (rest : Chars) :
    Progresses final (rest.length + 1) s (.ok (strideLineComment o s (c :: rest))) := by
  have hlength := (List.takeWhile_sublist (· != '\n') (l := c :: rest)).length_le
  have hready : (noteIf o s ((c :: rest).takeWhile (· != '\n'))).IsReady :=
    (gathering_noteIf o).ready rfl hs
  unfold strideLineComment
  dsimp only
  split
  · exact .take none hlength (.inr ⟨hmode, rfl⟩) (hready.enter rfl (by simp))
  · next hmem =>
    have hc : (c != '\n') = true := by
      rw [bne_iff_ne]
      rintro rfl
      exact hmem List.mem_cons_self
    exact .take none hlength (.inl (List.length_pos_iff.2 (by simp [hc]))) hready

/-- What is gathered where no mark ends the text is nothing only if more may come. -/
theorem progresses_ite {f : Splitter → Chars → Except Fault Splitter} (hf : Gathering f)
    {text : Chars} (hlength : text.length ≤ n) (hempty : text = [] → final = false) :
    Progresses final n s (if text.isEmpty then .ok .hold
      else f s text >>= fun t => .ok (.take text.length t none)) := by
  split
  · next h => exact .hold (hempty (List.isEmpty_iff.1 h))
  · next h => exact progresses_run final hs hf (by simpa using h) hlength

theorem strideBlockComment_progresses (kept : Bool) (c : Char) (rest : Chars) :
    Progresses final (rest.length + 1) s (strideBlockComment o base final s kept (c :: rest)) := by
  have hgathering := gathering_appendIf o base kept
  unfold strideBlockComment
  cases hcut : cut? ['*', '/'] (c :: rest) with
  | some cut =>
    have hlength := length_cut? hcut
    refine progresses_gathered final hs hgathering (by simp) ?_ (g := fun t =>
      { t with draft := if kept then t.draft else t.draft.gap, mode := .normal })
      fun t ht => ht.enter rfl (by simp)
    simp only [List.length_append, List.length_cons, List.length_nil] at hlength ⊢
    omega
  | none =>
    refine progresses_ite final hs hgathering ?_ ?_
    · split
      · rw [List.length_dropLast]
        simp
      · exact Nat.le_refl _
    · cases final <;> simp

theorem strideDollarQuoted_progresses {tag : Chars} (hmode : s.mode = .dollarQuoted tag) (c : Char)
    (rest : Chars) :
    Progresses final (rest.length + 1) s (strideDollarQuoted o base final s tag (c :: rest)) := by
  have hgathering := gathering_append o base
  have htag : tag ≠ [] := by
    rintro rfl
    exact hs.tag hmode
  unfold strideDollarQuoted
  cases hcut : cut? tag (c :: rest) with
  | some cut =>
    have hlength := length_cut? hcut
    refine progresses_gathered final hs hgathering (by simp [htag]) ?_
      (g := fun t => { t with mode := .normal }) fun t ht => ht.enter rfl (by simp)
    rw [List.length_append]
    rw [List.length_cons] at hlength
    omega
  | none =>
    refine progresses_ite final hs hgathering ?_ ?_
    · split
      · exact Nat.le_refl _
      · exact (List.take_sublist _ _).length_le
    · cases final <;> simp

theorem stride_progresses (c : Char) (rest : Chars) :
    Progresses final (rest.length + 1) s (stride o base final s c rest) := by
  unfold stride
  cases hmode : s.mode with
  | normal => exact strideNormal_progresses o base final hs c rest
  | quoted mark escapes => exact strideQuoted_progresses o base final hs mark escapes c rest
  | lineComment => exact strideLineComment_progresses o final hs hmode c rest
  | blockComment kept => exact strideBlockComment_progresses o base final hs kept c rest
  | dollarQuoted tag => exact strideDollarQuoted_progresses o base final hs hmode c rest

end Modes

/-! ## The loop -/

def march (o : Options) (base : Nat) (final : Bool) :
    (fuel : Nat) → Splitter → (held : Chars) → List Statement →
      Option (Except Fault (Splitter × List Statement))
  | _, s, [], done => some (.ok ({ s with held := [] }, done))
  | 0, _, _ :: _, _ => none
  | n + 1, s, c :: rest, done =>
    match stride o base final s c rest with
    | .error e => some (.error e)
    | .ok .hold => some (.ok ({ s with held := c :: rest }, done))
    | .ok (.take count next more) =>
      march o base final n (next.advance ((c :: rest).take count)) ((c :: rest).drop count)
        (more.toList ++ done)

/-- How many strides are left at most: a character takes two if a line comment is left in front of
it. -/
def stridesLeft (s : Splitter) (held : Chars) : Nat :=
  2 * held.length + if s.mode = .lineComment then 1 else 0

/-- A stride leaves fewer strides. -/
theorem stridesLeft_lt {count : Nat} {next : Splitter} {more : Option Statement}
    (h : Progresses final held.length s (.ok (.take count next more))) :
    (next.advance (held.take count)).stridesLeft (held.drop count) < s.stridesLeft held := by
  cases h with
  | take _ hcount hgoes _ =>
    have hmode : (next.advance (held.take count)).mode = next.mode := rfl
    unfold stridesLeft
    rw [hmode, List.length_drop]
    rcases hgoes with hpos | ⟨hline, hnormal⟩
    · -- A character less is worth two strides, and at most one is spent on a line comment.
      split <;> split <;> omega
    · rw [if_pos hline, if_neg (by simp [hnormal])]
      omega

theorem march_eq_scan (hs : s.IsReady) (hn : s.stridesLeft held ≤ n) :
    march o base final n s held done = some (scan o base final s held done) := by
  induction n generalizing s held done with
  | zero =>
    cases held with
    | nil => rfl
    | cons c rest => simp [stridesLeft] at hn
  | succ n ih =>
    cases held with
    | nil => rfl
    | cons c rest =>
      have hprogress := stride_progresses o base final hs c rest
      rw [march, scan_stride hs]
      cases hstride : stride o base final s c rest with
      | error e => rfl
      | ok move =>
        rw [hstride] at hprogress
        cases move with
        | hold => rfl
        | take count next more =>
          have hlt := @stridesLeft_lt s final (c :: rest) count next more hprogress
          cases hprogress with
          | take _ _ _ hnext => exact ih (hnext.advance _) (by omega)

/-! ## Splitters that can be reached -/

theorem IsReady.of_outcome {r : Except Fault (Splitter × List Statement)}
    (h : ∀ t found, r = .ok (t, found) → t.IsReady) : (outcome r).1.IsReady := by
  cases r with
  | error e => exact .fresh {}
  | ok r => exact h r.1 r.2 rfl

theorem IsReady.of_push (hs : s.IsReady) {chunk : Chars} {found : List Statement}
    (h : push o s chunk = .ok (t, found)) : t.IsReady := by
  have hreceived : (s.received chunk.length).IsReady := hs.congr rfl rfl
  exact (hreceived.of_scan h).1

theorem IsReady.feed (hs : s.IsReady) (chunk : Chars) : (s.feed o chunk).1.IsReady :=
  .of_outcome fun _ _ => hs.of_push

/-- A script that is finished leaves its statistics only. -/
theorem exists_finish_eq (o : Options) (s : Splitter) :
    ∃ statistics : Statistics, (s.finish o).1 = { statistics } := by
  rw [finish, close]
  cases scan o s.offset true s s.held [] with
  | error e => exact ⟨{}, rfl⟩
  | ok r =>
    obtain ⟨t, last⟩ := r
    cases hmode : t.mode with
    | normal | lineComment =>
      refine ⟨(t.emit none).1.statistics, ?_⟩
      simp [bind, Except.bind, hmode, outcome, pure, Except.pure]
    | quoted mark escapes | blockComment kept | dollarQuoted tag =>
      refine ⟨{}, ?_⟩
      simp [bind, Except.bind, hmode, outcome]

theorem IsReady.finish (o : Options) (s : Splitter) : (s.finish o).1.IsReady := by
  obtain ⟨statistics, h⟩ := exists_finish_eq o s
  rw [h]
  exact .fresh statistics

theorem IsReady.run (hs : s.IsReady) (call : Call) : (call.run o s).IsReady := by
  cases call with
  | feed chunk => exact hs.feed chunk
  | finish => exact .finish o s
  | parse script =>
    have hfeed : (Splitter.feed o {} script).1.IsReady := (IsReady.fresh {}).feed script
    change (Splitter.parse o script).1.IsReady
    unfold Splitter.parse
    split
    · next hr => rwa [hr] at hfeed
    · next t found hr =>
      have hfinish := IsReady.finish o t
      split
      · next hr' => rwa [hr'] at hfinish
      · next hr' => rwa [hr'] at hfinish
  | reset => exact .fresh {}

/-- The splitters that calls leave and those that strides lead to from there, whatever the text at
hand. -/
inductive Reachable (o : Options) : Splitter → Prop where
  | calls (calls : List Call) : Reachable o (calls.foldl (Call.run o) {})
  | received {s : Splitter} (n : Nat) (h : Reachable o s) : Reachable o (s.received n)
  | stride {s next : Splitter} {base : Nat} {final : Bool} {c : Char} {rest : Chars} {count : Nat}
      {done : Option Statement} (h : Reachable o s)
      (hstride : stride o base final s c rest = .ok (.take count next done)) :
      Reachable o (next.advance ((c :: rest).take count))

theorem Reachable.isReady (h : Reachable o s) : s.IsReady := by
  induction h with
  | calls calls => exact List.foldlRecOn calls _ (.fresh {}) fun _ hs call _ => hs.run call
  | received n _ ih => exact ih.congr rfl rfl
  | @stride s next base final c rest count done _ hstride ih =>
    have hprogress := stride_progresses o base final ih c rest
    rw [hstride] at hprogress
    cases hprogress with
    | take _ _ _ hnext => exact hnext.advance _

/-- What a splitter has been fed since it was fresh. -/
inductive Fed (o : Options) : Splitter → Chars → Prop where
  | fresh (statistics : Statistics) : Fed o { statistics } []
  | feed {s t : Splitter} {text chunk : Chars} {found : List Statement} (h : Fed o s text)
      (hpush : push o s chunk = .ok (t, found)) : Fed o t (text ++ chunk)

/-- What a splitter was fed is behind its place, but for what it holds back. -/
theorem Fed.eq_append {text : Chars} (h : Fed o s text) :
    s.IsReady ∧ ∃ taken, text = taken ++ s.held ∧ s.offset = taken.length := by
  induction h with
  | fresh statistics => exact ⟨.fresh statistics, [], rfl, rfl⟩
  | @feed s t text chunk found _ hpush ih =>
    obtain ⟨hs, taken, rfl, hoffset⟩ := ih
    have hreceived : (s.received chunk.length).IsReady := hs.congr rfl rfl
    obtain ⟨ht, -, more, hmore, hplace⟩ := hreceived.of_scan hpush
    refine ⟨ht, taken ++ more, ?_, ?_⟩
    · rw [List.append_assoc, List.append_assoc, hmore]
    · rw [hplace, List.length_append, ← hoffset]
      rfl

/-- A script that is finished fails where its last scan fails, or that scan has read all that was
fed. -/
theorem Fed.finish {text : Chars} (h : Fed o s text) :
    (∃ e, scan o s.offset true s s.held [] = .error e ∧ s.finish o = ({}, .error e)) ∨
    ∃ t found, scan o s.offset true s s.held [] = .ok (t, found) ∧
      t.held = [] ∧ t.offset = text.length := by
  obtain ⟨hs, taken, rfl, hoffset⟩ := h.eq_append
  cases hscan : scan o s.offset true s s.held [] with
  | error e =>
    refine .inl ⟨e, rfl, ?_⟩
    rw [Splitter.finish, close, hscan]
    rfl
  | ok r =>
    obtain ⟨-, hheld, more, hmore, hplace⟩ := hs.of_scan hscan
    rw [hheld rfl, List.append_nil] at hmore
    exact .inr ⟨r.1, r.2, rfl, hheld rfl, by rw [hplace, hmore, List.length_append, hoffset]⟩

/-- The delimiter of a splitter that can be reached is not empty. Whatever text is at hand, each of
its strides fails, waits while more may come, goes on in the text or leaves a line comment, and as
many strides as twice the characters at hand and one more come to the end of a scan. A finished
script has been read to its end. -/
theorem scan_progresses (h : Reachable o s) :
    s.delimiter ≠ [] ∧
    (∀ base final c rest,
      Progresses final (c :: rest).length s (stride o base final s c rest)) ∧
    (∀ base final held done, march o base final (2 * held.length + 1) s held done =
      some (scan o base final s held done)) ∧
    (∀ text, Fed o s text →
      (∃ e, scan o s.offset true s s.held [] = .error e ∧ s.finish o = ({}, .error e)) ∨
      ∃ t found, scan o s.offset true s s.held [] = .ok (t, found) ∧
        t.held = [] ∧ t.offset = text.length) ∧
    (s.finish o).1.held = [] := by
  have hs := h.isReady
  refine ⟨hs.delimiter, fun base final c rest => stride_progresses o base final hs c rest,
    fun base final held done => march_eq_scan hs ?_, fun text => Fed.finish, ?_⟩
  · unfold stridesLeft
    split <;> omega
  · obtain ⟨statistics, hfinish⟩ := exists_finish_eq o s
    rw [hfinish]

/-- A line comment of a script with a delimiter of its own is left at the end of its line, by a
stride that takes nothing. -/
theorem line_comment_progresses :
    let o : Options := { dialect := some .mysql }
    let text : Chars := "DELIMITER //\n-- x".toList
    let s : Splitter := (feed o {} text).1
    (s.mode, s.delimiter) = (.lineComment, ['/', '/']) ∧ s.delimiter ≠ [] ∧
    (∃ next, next.mode = .normal ∧ stride o 0 true s '\n' [] = .ok (.take 0 next none) ∧
      Progresses true 1 s (.ok (.take 0 next none))) ∧
    march o 0 true 3 s ['\n'] [] = some (scan o 0 true s ['\n'] []) ∧
    Fed o s text ∧
    ∃ t found, scan o s.offset true s s.held [] = .ok (t, found) ∧
      t.held = [] ∧ t.offset = text.length := by
  intro o text s
  have hpush : (push o {} text).toOption.map Prod.fst = some s := by decide +kernel
  have hfed : Fed o s text := by
    cases hr : push o {} text with
    | error e =>
      rw [hr] at hpush
      cases hpush
    | ok r =>
      rw [hr] at hpush
      have hs : r.1 = s := Option.some.inj hpush
      rw [← hs]
      exact .feed (.fresh {}) hr
  have hmode : s.mode = .lineComment := by decide +kernel
  have hstride : stride o 0 true s '\n' [] =
      .ok (.take 0 { s with mode := .normal, draft := s.draft.gap } none) := by
    rw [stride, hmode]
    rfl
  have hscan : (scan o s.offset true s s.held []).toOption.isSome = true := by decide +kernel
  have hreached : Reachable o s := .calls [.feed text]
  obtain ⟨hdelimiter, hprogress, hmarch, hfinish, -⟩ := scan_progresses hreached
  refine ⟨by decide +kernel, hdelimiter, ⟨_, rfl, hstride, hstride ▸ hprogress 0 true '\n' []⟩,
    hmarch 0 true ['\n'] [], hfed, ?_⟩
  rcases hfinish text hfed with ⟨e, he, -⟩ | hread
  · rw [he] at hscan
    cases hscan
  · exact hread

end SqlFerry.Splitter
