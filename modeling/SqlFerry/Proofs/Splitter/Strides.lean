import SqlFerry.Proofs.Splitter.Bounds
import SqlFerry.Proofs.Text.Replace

/-!
# Strides of a scan

A scan may take more than a token at a time: a run of blanks, the plain text inside quotes, a
comment up to its end. Such a stride comes to what the steps along it come to. A line comment is
left in front of the end of its line, so that a stride may take nothing.
-/

namespace SqlFerry.Splitter

open Text

inductive Stride where
  | hold
  | take (count : Nat) (next : Splitter) (done : Option Statement)

def Move.stride : Move → Stride
  | hold => .hold
  | take extra next done => .take (extra + 1) next done

def Draft.pushBlanks (d : Draft) (cs : Chars) : Draft :=
  if d.out.isEmpty || d.afterComment then d
  else { d with out := cs.reverse ++ d.out, trailingSpace := true }

def isPlainBetween (mark : Mark) (escapes : Bool) (c : Char) : Bool :=
  !(escapes && c == '\\') && c != mark.closing

def noteIf (o : Options) (s : Splitter) (cs : Chars) : Splitter :=
  if o.keepComments then { s with draft := s.draft.note cs } else s

section

variable (o : Options) (base : Nat) (final : Bool) (s : Splitter)

def strideNormal (c : Char) (rest : Chars) : Except Fault Stride :=
  if isBlank c && s.delimiter.head? != some c then
    let run := (c :: rest).takeWhile isBlank
    .ok (.take run.length { s with draft := s.draft.pushBlanks run } none)
  else (stepNormal o base final s c rest).map Move.stride

def strideQuoted (mark : Mark) (escapes : Bool) (c : Char) (rest : Chars) : Except Fault Stride :=
  if isPlainBetween mark escapes c then do
    let run := (c :: rest).takeWhile (isPlainBetween mark escapes)
    return .take run.length (← append o base s run) none
  else (stepQuoted o base final s mark escapes c rest).map Move.stride

def strideLineComment (held : Chars) : Stride :=
  let text := held.takeWhile (· != '\n')
  let s := noteIf o s text
  if '\n' ∈ held then
    .take text.length
      { s with mode := .normal, draft := if o.keepComments then s.draft else s.draft.gap } none
  else .take text.length s none

def strideBlockComment (kept : Bool) (held : Chars) : Except Fault Stride :=
  match cut? ['*', '/'] held with
  | some (inside, _) => do
    let text := inside ++ ['*', '/']
    let s ← appendIf o base s kept text
    let draft := if kept then s.draft else s.draft.gap
    return .take text.length { s with draft, mode := .normal } none
  | none =>
    let text := if !final && held.getLast? == some '*' then held.dropLast else held
    if text.isEmpty then .ok .hold
    else do return .take text.length (← appendIf o base s kept text) none

def strideDollarQuoted (tag held : Chars) : Except Fault Stride :=
  match cut? tag held with
  | some (inside, _) => do
    let text := inside ++ tag
    return .take text.length { (← append o base s text) with mode := .normal } none
  | none =>
    let text := if final then held else held.take (held.length + 1 - tag.length)
    if text.isEmpty then .ok .hold
    else do return .take text.length (← append o base s text) none

/-- Decides the character `c`, which `rest` follows, and as many more as are decided with it. -/
def stride (c : Char) (rest : Chars) : Except Fault Stride :=
  match s.mode with
  | .normal => strideNormal o base final s c rest
  | .quoted mark escapes => strideQuoted o base final s mark escapes c rest
  | .lineComment => .ok (strideLineComment o s (c :: rest))
  | .blockComment kept => strideBlockComment o base final s kept (c :: rest)
  | .dollarQuoted tag => strideDollarQuoted o base final s tag (c :: rest)

end

/-! ## Text that is gathered -/

/-- Whether text is gathered character by character as it is gathered at once, wherever it
stands. -/
structure Gathering (f : Splitter → Chars → Except Fault Splitter) : Prop where
  cons (s : Splitter) (x : Char) (xs : Chars) : f s (x :: xs) = f s [x] >>= (f · xs)
  advance (s : Splitter) (xs taken : Chars) :
    f (s.advance taken) xs = (Splitter.advance · taken) <$> f s xs
  mode {s t : Splitter} {xs : Chars} (h : f s xs = .ok t) : t.mode = s.mode
  ready {s t : Splitter} {xs : Chars} (h : f s xs = .ok t) (hs : s.IsReady) : t.IsReady

theorem advance_append (s : Splitter) (a b : Chars) :
    s.advance (a ++ b) = (s.advance a).advance b := by
  simp [advance, Nat.add_assoc]

variable {o : Options} {base : Nat} {s : Splitter} {final : Bool}

theorem eq_of_append_eq_ok {cs : Chars} {t : Splitter} (h : append o base s cs = .ok t) :
    ∃ draft, t = { s with draft } := by
  rw [append_eq_ite] at h
  split at h
  · cases h
  · cases h
    exact ⟨_, rfl⟩

theorem gathering_append (o : Options) (base : Nat) : Gathering (append o base) where
  cons s x xs := by
    have hpush : (s.draft.push [x]).push xs = s.draft.push (x :: xs) := by
      simp [Draft.push, Nat.add_assoc, Nat.add_comm 1]
    rw [append_eq_ite, append_eq_ite]
    by_cases hone : o.maxSize.isExceededBy (s.draft.size + [x].length) = true
    · rw [if_pos hone, if_pos (SizeLimit.isExceededBy_mono' (by simp) hone)]
      rfl
    · rw [if_neg hone]
      change _ = append o base { s with draft := s.draft.push [x] } xs
      rw [append_eq_ite]
      dsimp only
      rw [hpush]
      have hsize : (s.draft.push [x]).size + xs.length = s.draft.size + (x :: xs).length := by
        simp [Draft.push, Nat.add_assoc, Nat.add_comm 1]
      rw [hsize]
      rfl
  advance s xs taken := by
    rw [append_eq_ite, append_eq_ite, show (s.advance taken).draft = s.draft from rfl]
    by_cases hexceeded : o.maxSize.isExceededBy (s.draft.size + xs.length) = true
    · rw [if_pos hexceeded, if_pos hexceeded]
      rfl
    · rw [if_neg hexceeded, if_neg hexceeded]
      rfl
  mode {s t xs} h := by
    obtain ⟨draft, rfl⟩ := eq_of_append_eq_ok h
    rfl
  ready {s t xs} h hs := by
    obtain ⟨draft, rfl⟩ := eq_of_append_eq_ok h
    exact hs.congr rfl rfl

theorem gathering_appendIf (o : Options) (base : Nat) (kept : Bool) :
    Gathering (appendIf o base · kept) := by
  cases kept with
  | true => exact gathering_append o base
  | false =>
    refine ⟨fun _ _ _ => rfl, fun _ _ _ => rfl, ?_, ?_⟩
    · rintro s _ xs ⟨⟩
      rfl
    · rintro s _ xs ⟨⟩ hs
      exact hs

theorem gathering_pushBlanks :
    Gathering fun s cs => .ok { s with draft := s.draft.pushBlanks cs } where
  cons s x xs := by
    change _ = Except.ok _
    unfold Draft.pushBlanks
    by_cases h : (s.draft.out.isEmpty || s.draft.afterComment) = true
    · rw [if_pos h, if_pos h, if_pos h]
    · rw [if_neg h, if_neg h]
      simp only [Bool.or_eq_true, not_or, Bool.not_eq_true] at h
      simp [h.2]
  advance _ _ _ := rfl
  mode {s t xs} h := by
    cases h
    rfl
  ready {s t xs} h hs := by
    cases h
    exact hs.congr rfl rfl

theorem gathering_noteIf (o : Options) : Gathering fun s cs => .ok (noteIf o s cs) where
  cons s x xs := by
    change _ = Except.ok _
    unfold noteIf
    split <;> simp [Draft.note]
  advance s xs taken := by
    change _ = Except.ok _
    unfold noteIf
    split <;> rfl
  mode {s t xs} h := by
    cases h
    unfold noteIf
    split <;> rfl
  ready {s t xs} h hs := by
    cases h
    unfold noteIf
    split
    · exact hs.congr rfl rfl
    · exact hs

/-! ## Runs -/

section Run

variable {f : Splitter → Chars → Except Fault Splitter} {run rest : Chars} {done : List Statement}

def Gathered (f : Splitter → Chars → Except Fault Splitter) (o : Options) (base : Nat)
    (final : Bool) (mode : Mode) (run rest : Chars) : Prop :=
  ∀ s a x b, s.IsReady → s.mode = mode → run = a ++ x :: b →
    step o base final s x (b ++ rest) = f s [x] >>= fun t => .ok (.take 0 t none)

variable {mode : Mode}

theorem Gathering.append (hf : Gathering f) {a : Chars} (ha : a ≠ []) (b : Chars) :
    f s (a ++ b) = f s a >>= (f · b) := by
  induction a generalizing s with
  | nil => exact absurd rfl ha
  | cons x a ih =>
    cases a with
    | nil => exact hf.cons s x b
    | cons y a =>
      rw [List.cons_append, hf.cons s x (y :: a ++ b), hf.cons s x (y :: a), bind_assoc]
      congr 1
      funext t
      exact ih (List.cons_ne_nil y a)

/-- A run whose characters are gathered one by one is gathered at once. -/
theorem scan_run (hf : Gathering f) (hne : run ≠ [])
    (hrun : Gathered f o base final mode run rest) (hs : s.IsReady) (hmode : s.mode = mode) :
    scan o base final s (run ++ rest) done =
      f s run >>= fun t => scan o base final (t.advance run) rest done := by
  induction run generalizing s with
  | nil => exact absurd rfl hne
  | cons x xs ih =>
    have hfirst : scan o base final s (x :: (xs ++ rest)) done =
        f s [x] >>= fun t => scan o base final (t.advance [x]) (xs ++ rest) done := by
      rw [scan_cons, hrun s [] x xs hs hmode rfl, bind_assoc]
      rfl
    rw [List.cons_append, hfirst]
    cases xs with
    | nil => rfl
    | cons y ys =>
      have hrest : Gathered f o base final mode (y :: ys) rest :=
        fun s a z b hs hmode h => hrun s (x :: a) z b hs hmode (by rw [h]; rfl)
      rw [hf.cons s x (y :: ys), bind_assoc]
      cases ht : f s [x] with
      | error e => rfl
      | ok t =>
        -- What is gathered behind `x` is gathered before its place is counted, or behind it.
        change scan o base final (t.advance [x]) (y :: ys ++ rest) done = _
        have hready := (hf.ready ht hs).advance [x]
        rw [ih (List.cons_ne_nil y ys) hrest hready ((hf.mode ht).trans hmode),
          hf.advance, bind_map_left]
        simp only [← advance_append]
        rfl

/-- A run of text and the mark that ends it are gathered at once. -/
theorem scan_close (hf : Gathering f) {m : Char} {ms : Chars} {g : Splitter → Splitter}
    (hg : ∀ t taken, g (t.advance taken) = (g t).advance taken)
    (hrun : Gathered f o base final mode run (m :: ms ++ rest))
    (hclose : ∀ s : Splitter, s.mode = mode → step o base final s m (ms ++ rest) =
      f s (m :: ms) >>= fun t => .ok (.take ms.length (g t) none))
    (hs : s.IsReady) (hmode : s.mode = mode) :
    scan o base final s (run ++ (m :: ms ++ rest)) done =
      f s (run ++ m :: ms) >>= fun t =>
        scan o base final ((g t).advance (run ++ m :: ms)) rest done := by
  have hmark (s : Splitter) (hmode : s.mode = mode) :
      scan o base final s (m :: ms ++ rest) done =
        f s (m :: ms) >>= fun t => scan o base final ((g t).advance (m :: ms)) rest done := by
    rw [List.cons_append, scan_cons, hclose s hmode, bind_assoc]
    congr 1
    funext t
    change scan o base final ((g t).advance (m :: (ms ++ rest).take ms.length))
      ((ms ++ rest).drop ms.length) done = _
    rw [List.take_left, List.drop_left]
  by_cases hne : run = []
  · subst hne
    exact hmark s hmode
  · rw [scan_run hf hne hrun hs hmode, hf.append hne (m :: ms), bind_assoc]
    cases ht : f s run with
    | error e => rfl
    | ok t =>
      change scan o base final (t.advance run) (m :: ms ++ rest) done = f t (m :: ms) >>= _
      rw [hmark (t.advance run) ((hf.mode ht).trans hmode), hf.advance, bind_map_left]
      congr 1
      funext u
      rw [hg, advance_append]

def afterStride (o : Options) (base : Nat) (final : Bool) (s : Splitter) (held : Chars)
    (done : List Statement) : Stride → Except Fault (Splitter × List Statement)
  | .hold => .ok ({ s with held }, done)
  | .take count next more =>
    scan o base final (next.advance (held.take count)) (held.drop count) (more.toList ++ done)

theorem bind_afterStride {held : Chars} (hheld : held = run ++ rest) (x : Except Fault Splitter)
    (g : Splitter → Splitter) :
    ((x >>= fun t => .ok (.take run.length (g t) none)) >>= afterStride o base final s held done) =
      x >>= fun t => scan o base final ((g t).advance run) rest done := by
  subst hheld
  rw [bind_assoc]
  congr 1
  funext t
  change scan o base final ((g t).advance ((run ++ rest).take run.length))
    ((run ++ rest).drop run.length) done = _
  rw [List.take_left, List.drop_left]

/-- A run that is gathered at once is a stride. -/
theorem scan_gathered (hf : Gathering f) {held : Chars} (hheld : held = run ++ rest)
    (hne : run ≠ []) (hrun : Gathered f o base final mode run rest) (hs : s.IsReady)
    (hmode : s.mode = mode) :
    scan o base final s held done =
      (f s run >>= fun t => .ok (.take run.length t none)) >>=
        afterStride o base final s held done := by
  subst hheld
  exact (scan_run hf hne hrun hs hmode).trans (bind_afterStride rfl _ id).symm

/-- The longest run of characters that are gathered one by one is a stride. -/
theorem scan_takeWhile (hf : Gathering f) {p : Char → Bool} {c : Char} (hc : p c = true)
    (hstep : ∀ (s : Splitter) (x : Char) (rest : Chars), s.IsReady → s.mode = mode → p x = true →
      step o base final s x rest = f s [x] >>= fun t => .ok (.take 0 t none))
    (hs : s.IsReady) (hmode : s.mode = mode) :
    scan o base final s (c :: rest) done =
      (f s ((c :: rest).takeWhile p) >>=
        fun t => .ok (.take ((c :: rest).takeWhile p).length t none)) >>=
        afterStride o base final s (c :: rest) done := by
  have hrun : Gathered f o base final mode ((c :: rest).takeWhile p) ((c :: rest).dropWhile p) := by
    intro s a x b hs hmode hab
    have hmem : x ∈ (c :: rest).takeWhile p := by simp [hab]
    exact hstep s x _ hs hmode (List.mem_takeWhile_imp hmem)
  exact scan_gathered hf List.takeWhile_append_dropWhile.symm (by simp [hc]) hrun hs hmode

/-- A run of text with the mark that ends it is a stride. -/
theorem scan_closed (hf : Gathering f) {held mark : Chars} {g : Splitter → Splitter}
    (hheld : held = run ++ (mark ++ rest)) (hne : mark ≠ [])
    (hg : ∀ t taken, g (t.advance taken) = (g t).advance taken)
    (hrun : Gathered f o base final mode run (mark ++ rest))
    (hclose : ∀ m ms, mark = m :: ms → ∀ s : Splitter, s.mode = mode →
      step o base final s m (ms ++ rest) =
        f s mark >>= fun t => .ok (.take ms.length (g t) none))
    (hs : s.IsReady) (hmode : s.mode = mode) :
    scan o base final s held done =
      (f s (run ++ mark) >>= fun t => .ok (.take (run ++ mark).length (g t) none)) >>=
        afterStride o base final s held done := by
  obtain ⟨m, ms, rfl⟩ := List.exists_cons_of_ne_nil hne
  subst hheld
  exact (scan_close hf hg hrun (hclose m ms rfl) hs hmode).trans
    (bind_afterStride (List.append_assoc _ _ _).symm _ g).symm

/-- A step is a stride as well. -/
theorem scan_step (c : Char) (rest : Chars) : scan o base final s (c :: rest) done =
    (step o base final s c rest).map Move.stride >>=
      afterStride o base final s (c :: rest) done := by
  rw [scan_cons]
  cases step o base final s c rest with
  | error e => rfl
  | ok move => cases move <;> rfl

end Run

/-! ## Strides of each mode -/

section Modes

variable {c : Char} {rest : Chars} {done : List Statement}

theorem step_blank (hs : s.IsReady) (hmode : s.mode = .normal) (hc : isBlank c = true) :
    step o base final s c rest = .ok (.take 0 { s with draft := s.draft.pushBlank c } none) := by
  obtain ⟨d, ds, hdelimiter⟩ := List.exists_cons_of_ne_nil hs.delimiter
  have hne : d ≠ c := by
    rintro rfl
    exact hs.ne_head hc (by rw [hdelimiter]; rfl)
  have hopens : startsWith s.delimiter (c :: rest) = false := by
    rw [hdelimiter]
    simp [startsWith, after?, hne]
  have hopened : startsWith (c :: rest) s.delimiter = false := by
    rw [hdelimiter]
    simp [startsWith, after?, hne.symm]
  simp only [step, hmode, stepNormal, hopens, hopened, Bool.and_false, Bool.false_eq_true,
    if_false, readToken, isWordStart_of_isBlank hc, hc, if_true]
  rfl

theorem scan_strideNormal (hs : s.IsReady) (hmode : s.mode = .normal) :
    scan o base final s (c :: rest) done =
      strideNormal o base final s c rest >>= afterStride o base final s (c :: rest) done := by
  unfold strideNormal
  split
  · next hc =>
    rw [Bool.and_eq_true] at hc
    exact scan_takeWhile gathering_pushBlanks hc.1
      (fun _ _ _ hs hmode hx => step_blank hs hmode hx) hs hmode
  · rw [scan_step]
    simp only [step, hmode]

theorem step_plainBetween {mark : Mark} {escapes : Bool} (hmode : s.mode = .quoted mark escapes)
    (hc : isPlainBetween mark escapes c = true) :
    step o base final s c rest = append o base s [c] >>= fun t => .ok (.take 0 t none) := by
  simp only [isPlainBetween, Bool.and_eq_true, Bool.not_eq_true', bne_iff_ne] at hc
  simp only [step, hmode, stepQuoted, hc.1, beq_eq_false_iff_ne.2 hc.2, Bool.false_eq_true,
    if_false]
  rfl

theorem scan_strideQuoted {mark : Mark} {escapes : Bool} (hs : s.IsReady)
    (hmode : s.mode = .quoted mark escapes) :
    scan o base final s (c :: rest) done =
      strideQuoted o base final s mark escapes c rest >>=
        afterStride o base final s (c :: rest) done := by
  unfold strideQuoted
  split
  · next hc =>
    exact scan_takeWhile (gathering_append o base) hc
      (fun _ _ _ _ hmode hx => step_plainBetween hmode hx) hs hmode
  · rw [scan_step]
    simp only [step, hmode]

/-- The end of the line ends the comment and is a blank behind it. -/
theorem scan_lineEnd (hs : s.IsReady) (hmode : s.mode = .lineComment) :
    scan o base final s ('\n' :: rest) done =
      scan o base final { s with
        mode := .normal, draft := if o.keepComments then s.draft else s.draft.gap }
        ('\n' :: rest) done := by
  have hnormal : IsReady { s with
      mode := .normal, draft := if o.keepComments then s.draft else s.draft.gap } :=
    hs.enter rfl (by simp)
  rw [scan_cons, scan_cons, step_blank hnormal rfl (by decide)]
  simp only [step, hmode, stepLineComment]
  rfl

theorem scan_noteIf (hs : s.IsReady) (hmode : s.mode = .lineComment) {text rest : Chars}
    (htext : ∀ x ∈ text, x ≠ '\n') : scan o base final s (text ++ rest) done =
      scan o base final ((noteIf o s text).advance text) rest done := by
  by_cases hne : text = []
  · subst hne
    unfold noteIf
    split <;> rfl
  · have hrun : Gathered (fun s cs => .ok (noteIf o s cs)) o base final .lineComment text rest := by
      intro s a x b _ hmode hab
      have hx : ¬(x == '\n') = true := by simpa using htext x (by simp [hab])
      rw [step, hmode]
      change Except.ok (stepLineComment o s x) = .ok (.take 0 (noteIf o s [x]) none)
      rw [stepLineComment, if_neg hx]
      rfl
    exact scan_run (gathering_noteIf o) hne hrun hs hmode

theorem scan_strideLineComment (hs : s.IsReady) (hmode : s.mode = .lineComment) (held : Chars) :
    scan o base final s held done =
      afterStride o base final s held done (strideLineComment o s held) := by
  have hplain : ∀ x ∈ held.takeWhile (· != '\n'), x ≠ '\n' :=
    fun x hx => by simpa using List.mem_takeWhile_imp hx
  have hsplit := (List.takeWhile_append_dropWhile (p := (· != '\n')) (l := held)).symm
  unfold strideLineComment
  generalize held.takeWhile (· != '\n') = text at hplain hsplit ⊢
  cases hafter : held.dropWhile (· != '\n') with
  | nil =>
    rw [hafter, List.append_nil] at hsplit
    subst hsplit
    rw [if_neg fun hmem => hplain _ hmem rfl]
    change _ = scan o base final ((noteIf o s held).advance (held.take held.length))
      (held.drop held.length) done
    rw [List.take_length, List.drop_length]
    have hscan := @scan_noteIf o base s final done hs hmode held [] hplain
    rwa [List.append_nil] at hscan
  | cons x after =>
    have hx : x = '\n' := by
      have hhead := List.head?_dropWhile_not (· != '\n') held
      rw [hafter] at hhead
      simpa using hhead
    subst hx
    rw [hafter] at hsplit
    subst hsplit
    have hgathering := gathering_noteIf o
    have hnoted : (noteIf o s text).mode = .lineComment := (hgathering.mode rfl).trans hmode
    rw [if_pos (by simp), scan_noteIf hs hmode hplain,
      scan_lineEnd ((hgathering.ready rfl hs).advance text) hnoted]
    change _ = scan o base final (Splitter.advance _ ((text ++ '\n' :: after).take text.length))
      ((text ++ '\n' :: after).drop text.length) done
    rw [List.take_left, List.drop_left]
    rfl

/-- A step that waits is a stride as well. -/
theorem scan_hold (hstep : step o base final s c rest = .ok .hold) :
    scan o base final s (c :: rest) done =
      (.ok .hold) >>= afterStride o base final s (c :: rest) done := by
  rw [scan_step, hstep]
  rfl

theorem step_blockComment {kept : Bool} (hmode : s.mode = .blockComment kept)
    (hopen : startsWith ['*', '/'] (c :: rest) = false)
    (hlast : c = '*' → rest = [] → final = true) :
    step o base final s c rest =
      appendIf o base s kept [c] >>= fun t => .ok (.take 0 t none) := by
  simp only [step, hmode, stepBlockComment]
  by_cases hc : c = '*'
  · subst hc
    cases rest with
    | nil =>
      rw [hlast rfl rfl]
      rfl
    | cons x rest =>
      have hx : x ≠ '/' := by
        rintro rfl
        rw [startsWith, after?, after?] at hopen
        simp [after?] at hopen
      simp [hx]
      rfl
  · simp [hc]
    rfl

theorem step_dollarQuoted {tag : Chars} (hmode : s.mode = .dollarQuoted tag)
    (hopen : startsWith tag (c :: rest) = false)
    (hlast : final = false → tag.length ≤ rest.length + 1) :
    step o base final s c rest = append o base s [c] >>= fun t => .ok (.take 0 t none) := by
  have hwaits : (!final && decide ((c :: rest.take tag.length).length < tag.length)) = false := by
    rw [Bool.and_eq_false_iff, Bool.not_eq_false', decide_eq_false_iff_not, List.length_cons,
      List.length_take]
    cases final with
    | true => exact .inl rfl
    | false =>
      have := hlast rfl
      exact .inr (by omega)
  simp only [step, hmode, stepDollarQuoted, hopen, hwaits, Bool.false_eq_true, if_false]
  rfl

theorem scan_strideBlockComment {kept : Bool} (hs : s.IsReady)
    (hmode : s.mode = .blockComment kept) :
    scan o base final s (c :: rest) done =
      strideBlockComment o base final s kept (c :: rest) >>=
        afterStride o base final s (c :: rest) done := by
  have hgathering := gathering_appendIf o base kept
  unfold strideBlockComment
  cases hcut : cut? ['*', '/'] (c :: rest) with
  | some cut =>
    obtain ⟨text, after⟩ := cut
    -- No character before the first place of the mark begins one.
    obtain ⟨hsplit, hfirst⟩ := of_cut?_eq_some hcut
    have hrun : Gathered (appendIf o base · kept) o base final (.blockComment kept) text
        (['*', '/'] ++ after) :=
      fun s a x b _ hmode hab => step_blockComment hmode (hfirst a x b hab) (by simp)
    refine scan_closed hgathering hsplit (by simp) (fun _ _ => rfl) hrun ?_ hs hmode
    rintro _ _ ⟨⟩ s hmode
    rw [step, hmode]
    rfl
  | none =>
    have hrun {text last : Chars} (hsplit : c :: rest = text ++ last)
        (hlast : last = [] → text.getLast? = some '*' → final = true) :
        Gathered (appendIf o base · kept) o base final (.blockComment kept) text last := by
      rintro s a x b _ hmode rfl
      refine step_blockComment hmode (not_startsWith_of_cut?_eq_none hcut (a := a) ?_) ?_
      · rw [hsplit, List.append_assoc]
        rfl
      · rintro rfl hnil
        obtain ⟨rfl, rfl⟩ := List.append_eq_nil_iff.1 hnil
        exact hlast rfl (by simp)
    dsimp only
    -- A star at the end may be the first half of the mark that ends the comment.
    by_cases hstar : (!final && (c :: rest).getLast? == some '*') = true
    · rw [if_pos hstar]
      rw [Bool.and_eq_true, Bool.not_eq_true', beq_iff_eq] at hstar
      have hsplit : c :: rest = (c :: rest).dropLast ++ ['*'] :=
        (List.dropLast_append_getLast? _ hstar.2).symm
      generalize (c :: rest).dropLast = text at hsplit ⊢
      cases text with
      | nil =>
        cases hsplit
        refine scan_hold ?_
        rw [step, hmode, hstar.1]
        rfl
      | cons x xs =>
        exact scan_gathered hgathering hsplit (by simp) (hrun hsplit (by simp)) hs hmode
    · rw [if_neg hstar]
      have hsplit : c :: rest = c :: rest ++ [] := (List.append_nil _).symm
      exact scan_gathered hgathering hsplit (by simp)
        (hrun hsplit fun _ hlast => by simpa [hlast] using hstar) hs hmode

theorem scan_strideDollarQuoted {tag : Chars} (hs : s.IsReady)
    (hmode : s.mode = .dollarQuoted tag) :
    scan o base final s (c :: rest) done =
      strideDollarQuoted o base final s tag (c :: rest) >>=
        afterStride o base final s (c :: rest) done := by
  have hgathering := gathering_append o base
  have htag : tag ≠ [] := by
    rintro rfl
    exact hs.tag hmode
  unfold strideDollarQuoted
  cases hcut : cut? tag (c :: rest) with
  | some cut =>
    obtain ⟨text, after⟩ := cut
    obtain ⟨hsplit, hfirst⟩ := of_cut?_eq_some hcut
    have hrun : Gathered (append o base) o base final (.dollarQuoted tag) text (tag ++ after) :=
      fun s a x b _ hmode hab => step_dollarQuoted hmode (hfirst a x b hab) (by simp; omega)
    refine scan_closed hgathering hsplit htag (fun _ _ => rfl) hrun ?_ hs hmode
    rintro m ms rfl s hmode
    have hopens : startsWith (m :: ms) (m :: (ms ++ after)) = true :=
      startsWith_iff.2 ⟨after, rfl⟩
    rw [step, hmode]
    change stepDollarQuoted .. = _
    rw [stepDollarQuoted, if_pos hopens]
    rfl
  | none =>
    have hrun {text last : Chars} (hsplit : c :: rest = text ++ last)
        (hlast : final = false → tag.length ≤ last.length + 1) :
        Gathered (append o base) o base final (.dollarQuoted tag) text last := by
      rintro s a x b _ hmode rfl
      refine step_dollarQuoted hmode
        (not_startsWith_of_cut?_eq_none hcut (a := a) ?_) fun hfinal => ?_
      · rw [hsplit, List.append_assoc]
        rfl
      · have := hlast hfinal
        rw [List.length_append]
        omega
    dsimp only
    cases final with
    | true =>
      have hsplit : c :: rest = c :: rest ++ [] := (List.append_nil _).symm
      exact scan_gathered hgathering hsplit (by simp) (hrun hsplit (by simp)) hs hmode
    | false =>
      -- As many characters are left as may still begin the tag.
      rw [if_neg Bool.false_ne_true]
      have hsplit := (List.take_append_drop ((c :: rest).length + 1 - tag.length) (c :: rest)).symm
      have hheld : (c :: rest).length = rest.length + 1 := List.length_cons
      have htaglength := List.length_pos_iff.2 htag
      by_cases hshort : (c :: rest).length < tag.length
      · rw [show (c :: rest).length + 1 - tag.length = 0 by omega]
        have hopens := not_startsWith_of_cut?_eq_none hcut (List.nil_append _).symm
        have hwaits :
            (!false && decide ((c :: rest.take tag.length).length < tag.length)) = true := by
          rw [Bool.not_false, Bool.true_and, decide_eq_true_iff, List.length_cons,
            List.length_take]
          omega
        refine scan_hold ?_
        rw [step, hmode]
        change stepDollarQuoted .. = _
        rw [stepDollarQuoted, if_neg (by simp [hopens]), if_pos hwaits]
        rfl
      · have hne : (c :: rest).take ((c :: rest).length + 1 - tag.length) ≠ [] := by
          rw [← List.length_pos_iff, List.length_take]
          omega
        have hlast : tag.length ≤
            ((c :: rest).drop ((c :: rest).length + 1 - tag.length)).length + 1 := by
          rw [List.length_drop]
          omega
        rw [if_neg (by simpa using hne)]
        exact scan_gathered hgathering hsplit hne (hrun hsplit fun _ => hlast) hs hmode

/-- A scan goes on from stride to stride as it goes on from step to step. -/
theorem scan_stride (hs : s.IsReady) (c : Char) (rest : Chars) (done : List Statement) :
    scan o base final s (c :: rest) done =
      stride o base final s c rest >>= afterStride o base final s (c :: rest) done := by
  unfold stride
  cases hmode : s.mode with
  | normal => exact scan_strideNormal hs hmode
  | quoted mark escapes => exact scan_strideQuoted hs hmode
  | lineComment => exact scan_strideLineComment hs hmode (c :: rest)
  | blockComment kept => exact scan_strideBlockComment hs hmode
  | dollarQuoted tag => exact scan_strideDollarQuoted hs hmode

end Modes

end SqlFerry.Splitter
