import SqlFerry.Proofs.Splitter.Chunks

/-!
# The end of a script

Where a step takes a token before it is known that the script ends, it takes the same token after.
So to split a script is to scan it once as one that ends, and to close the last statement.
-/

namespace SqlFerry.Splitter

open Text

/-- How a step that expects more characters is related to the one that does not: it waits, or both
decide the same. -/
def Decides (r r' : Except Fault Move) : Prop :=
  r = .ok .hold ∨ r' = r

namespace Decides

theorem refl (r : Except Fault Move) : Decides r r :=
  .inr rfl

theorem ite {p : Prop} [Decidable p] {a b a' b' : Except Fault Move} (hp : p → Decides a a')
    (hn : ¬p → Decides b b') : Decides (if p then a else b) (if p then a' else b') := by
  split
  · exact hp ‹_›
  · exact hn ‹_›

end Decides

section Step

variable (o : Options) (base : Nat) (s : Splitter) (c : Char) (rest : Chars)

theorem openBlockComment_final :
    Decides (openBlockComment o base false s rest) (openBlockComment o base true s rest) := by
  unfold openBlockComment
  refine .ite (fun _ => ?_) fun _ => .refl _
  cases rest with
  | nil => exact .inl rfl
  | cons x rest => exact .refl _

theorem delimiterLine_final (held : Chars) :
    Decides (.ok (delimiterLine false s held)) (.ok (delimiterLine true s held)) := by
  unfold delimiterLine
  cases (held.dropWhile (· != '\n')).isEmpty with
  | true => exact .inl rfl
  | false => exact .refl _

theorem readWord_final :
    Decides (readWord o base false s c rest) (readWord o base true s c rest) := by
  unfold readWord
  cases (rest.dropWhile isWordPart).isEmpty with
  | true => exact .inl rfl
  | false =>
    simp only [Bool.false_and, Bool.false_eq_true, if_false]
    exact .ite (fun _ => delimiterLine_final s (c :: rest)) fun _ => .refl _

theorem readToken_final :
    Decides (readToken o base false s c rest) (readToken o base true s c rest) := by
  unfold readToken
  refine .ite (fun _ => readWord_final o base s c rest) fun _ => ?_
  refine .ite (fun _ => .refl _) fun _ => ?_
  refine .ite (fun _ => .refl _) fun _ => ?_
  refine .ite (fun _ => .refl _) fun _ => ?_
  refine .ite (fun _ => .refl _) fun _ => ?_
  refine .ite (fun _ => .refl _) fun _ => ?_
  refine .ite (fun _ => ?dash) fun _ => ?_
  case dash =>
    cases rest with
    | nil => exact .inl rfl
    | cons x rest => exact .refl _
  refine .ite (fun _ => ?slash) fun _ => ?_
  case slash =>
    cases rest with
    | nil => exact .inl rfl
    | cons x rest => exact .ite (fun _ => openBlockComment_final o base s rest) fun _ => .refl _
  refine .ite (fun _ => .refl _) fun _ => ?_
  refine .ite (fun _ => ?dollar) fun _ => .refl _
  case dollar =>
    cases dollarTag? rest with
    | some tag => exact .refl _
    | none =>
      cases rest.all isTagChar with
      | true => exact .inl rfl
      | false => exact .refl _

theorem stepNormal_final :
    Decides (stepNormal o base false s c rest) (stepNormal o base true s c rest) := by
  unfold stepNormal
  refine .ite (fun _ => .ite (fun _ => ?_) fun _ => .refl _) fun _ => ?_
  · cases s.draft.settle with
    | mk draft closed =>
      cases closed with
      | true => exact .refl _
      | false => exact readToken_final o base { s with draft } c rest
  · cases startsWith (c :: rest) s.delimiter with
    | true => exact .inl rfl
    | false => exact readToken_final o base s c rest

theorem stepQuoted_final (mark : Mark) (escapes : Bool) :
    Decides (stepQuoted o base false s mark escapes c rest)
      (stepQuoted o base true s mark escapes c rest) := by
  unfold stepQuoted
  cases rest with
  | nil => exact .ite (fun _ => .inl rfl) fun _ => .ite (fun _ => .inl rfl) fun _ => .refl _
  | cons x rest => exact .refl _

theorem stepBlockComment_final (kept : Bool) :
    Decides (stepBlockComment o base false s kept c rest)
      (stepBlockComment o base true s kept c rest) := by
  unfold stepBlockComment
  cases rest with
  | nil => exact .ite (fun _ => .inl rfl) fun _ => .refl _
  | cons x rest => exact .refl _

theorem stepDollarQuoted_final (tag : Chars) :
    Decides (stepDollarQuoted o base false s tag c rest)
      (stepDollarQuoted o base true s tag c rest) := by
  unfold stepDollarQuoted
  refine .ite (fun _ => .refl _) fun _ => ?_
  by_cases h : (c :: rest.take tag.length).length < tag.length
  · refine .inl ?_
    rw [Bool.not_false, Bool.true_and, if_pos (by simpa using h)]
    rfl
  · rw [Bool.not_false, Bool.true_and, if_neg (by simpa using h), Bool.not_true, Bool.false_and,
      if_neg (by simp)]
    exact .refl _

/-- A step that takes a token takes the same token if the script ends with the characters at
hand. -/
theorem step_final : Decides (step o base false s c rest) (step o base true s c rest) := by
  unfold step
  cases s.mode with
  | normal => exact stepNormal_final o base s c rest
  | quoted mark escapes => exact stepQuoted_final o base s c rest mark escapes
  | lineComment => exact .refl _
  | blockComment kept => exact stepBlockComment_final o base s c rest kept
  | dollarQuoted tag => exact stepDollarQuoted_final o base s c rest tag

end Step

variable {o : Options} {base : Nat}

/-- What was found before stays behind what a scan finds. -/
theorem scan_done (o : Options) (base : Nat) (final : Bool) (s : Splitter) (held : Chars)
    (done done₀ : List Statement) : scan o base final s held (done ++ done₀) =
      (scan o base final s held done).map fun r => (r.1, r.2 ++ done₀) := by
  apply scan_induction (motive := fun s held done r =>
    scan o base final s held (done ++ done₀) = r.map fun r => (r.1, r.2 ++ done₀))
  case nil =>
    intro s done
    rfl
  case error =>
    intro s c rest done e hs
    rw [scan_cons, hs]
    rfl
  case hold =>
    intro s c rest done hs
    rw [scan_cons, hs]
    rfl
  case take =>
    intro s c rest done extra next more hs ih
    rw [scan_cons, hs, ← ih, List.append_assoc]
    rfl

/-- A step leaves alone what is recorded as held back. -/
theorem held_of_step {s next : Splitter} {c : Char} {rest : Chars} {extra : Nat}
    {more : Option Statement} (h : step o base false s c rest = .ok (.take extra next more)) :
    next.held = s.held := by
  have he := step_extends o base base s s.held 0 c rest []
  rw [h] at he
  have hr := he.eq_take
  rw [List.append_nil, show s.retag s.held 0 = s from rfl, h, Except.ok.injEq,
    Move.take.injEq] at hr
  rw [hr.2.1]
  rfl

/-- A scan of the last characters goes on where the scan that expected more waits. -/
theorem scan_final (s : Splitter) (held : Chars) (done : List Statement) :
    scan o base true s held done = (scan o base false s held done).bind fun r =>
      scan o base true { r.1 with held := s.held } r.1.held r.2 := by
  suffices h : ∀ before, s.held = before → scan o base true s held done =
      (scan o base false s held done).bind fun r =>
        scan o base true { r.1 with held := before } r.1.held r.2 from h _ rfl
  intro before
  apply scan_induction (motive := fun s held done r => s.held = before →
    scan o base true s held done =
      r.bind fun r => scan o base true { r.1 with held := before } r.1.held r.2)
  case nil =>
    intro s done _
    rfl
  case error =>
    intro s c rest done e hs _
    rcases step_final o base s c rest with h | h
    · rw [hs] at h
      cases h
    · rw [scan_cons, h, hs]
      rfl
  case hold =>
    rintro s c rest done _ rfl
    rfl
  case take =>
    intro s c rest done extra next more hs ih hb
    rcases step_final o base s c rest with h | h
    · rw [hs] at h
      cases h
    · rw [scan_cons, h, hs]
      exact ih ((held_of_step hs).trans hb)

def ending? (s : Splitter) : Option (Option Statement) :=
  match s.mode with
  | .normal | .lineComment => some (s.emit none).2
  | _ => none

/-- The statements of a script that was scanned to its end, if it may end there. -/
def ended? (r : Splitter × List Statement) : Option (List Statement) :=
  r.1.ending?.map (r.2.reverse ++ ·.toList)

theorem eq_ok_of_toOption {r : Except Fault (List Statement)} {found : List Statement}
    (h : r.toOption = some found) : r = .ok found := by
  cases r with
  | error e => cases h
  | ok found' =>
    cases h
    rfl

def finished? (a : Splitter × Except Fault (List Statement)) :
    Option (Statistics × List Statement) :=
  a.2.toOption.map (a.1.statistics, ·)

def closed? (r : Splitter × List Statement) : Option (Statistics × List Statement) :=
  (ended? r).map ((r.1.emit none).1.statistics, ·)

theorem finished?_finish (o : Options) (s : Splitter) :
    finished? (finish o s) = (scan o s.offset true s s.held []).toOption.bind closed? := by
  rw [finish, close]
  cases scan o s.offset true s s.held [] with
  | error e => rfl
  | ok r =>
    obtain ⟨t, last⟩ := r
    cases hmode : t.mode with
    | normal | lineComment =>
      cases hlast : (t.emit none).2 <;>
        simp [bind, Except.bind, hmode, outcome, pure, Except.pure, Except.toOption, finished?,
          closed?, ended?, ending?, hlast]
    | quoted mark escapes | blockComment kept | dollarQuoted tag =>
      simp [bind, Except.bind, hmode, outcome, Except.toOption, finished?, closed?, ended?, ending?]

theorem finished?_parse (o : Options) (script : Chars) : finished? (parse o script) =
    (feed o {} script).2.toOption.bind fun found =>
      (finished? (finish o (feed o {} script).1)).map fun r => (r.1, found ++ r.2) := by
  rw [parse]
  generalize feed o {} script = r
  obtain ⟨s, r⟩ := r
  cases r with
  | error e => rfl
  | ok found =>
    dsimp only
    generalize finish o s = closed
    obtain ⟨t, r⟩ := closed
    cases r <;> rfl

/-- To split a script is to scan it once as one that ends, and to close the last statement. What is
recorded as held back in that scan, and where its text begins, is what a first scan leaves. -/
theorem parse_eq_closed (o : Options) (script : Chars) : ∃ base held, finished? (parse o script) =
    (scan o base true (({} : Splitter).retag held script.length) script []).toOption.bind
      closed? := by
  rw [finished?_parse]
  have hpush : push o {} script =
      scan o 0 false (({} : Splitter).retag [] script.length) script [] := rfl
  cases hs : push o {} script with
  | error e =>
    refine ⟨0, [], ?_⟩
    rw [feed, hs, scan_final, ← hpush, hs]
    rfl
  | ok r =>
    obtain ⟨s, done⟩ := r
    refine ⟨s.offset, s.held, ?_⟩
    have hmoved : scan o s.offset false (({} : Splitter).retag s.held script.length) script [] =
        .ok (s, done) := by
      have hm := scan_moved (o := o) 0 s.offset (({} : Splitter).retag [] script.length) script
        s.held [] []
      rw [← hpush, hs] at hm
      revert hm
      change (scan o s.offset false (({} : Splitter).retag s.held script.length) script
        []).toOption = _ → _
      cases scan o s.offset false (({} : Splitter).retag s.held script.length) script [] with
      | error e => rintro ⟨⟩
      | ok r => rintro ⟨⟩; simp
    have hfeed : feed o {} script = (s, .ok done.reverse) := by
      rw [feed, hs, outcome]
    have hheld : { s with held := (({} : Splitter).retag s.held script.length).held } = s := rfl
    rw [hfeed, scan_final, hmoved, finished?_finish]
    simp only [Except.toOption, Except.bind, Option.bind_some]
    rw [hheld, ← List.nil_append done, scan_done]
    cases scan o s.offset true s s.held [] with
    | error e => rfl
    | ok r =>
      obtain ⟨t, last⟩ := r
      cases hending : t.ending? <;> simp [Except.map, closed?, ended?, hending]

theorem parse_eq_scan (o : Options) (script : Chars) : ∃ base held, (parse o script).2.toOption =
    (scan o base true (({} : Splitter).retag held script.length) script []).toOption.bind
      ended? := by
  obtain ⟨base, held, hparse⟩ := parse_eq_closed o script
  refine ⟨base, held, ?_⟩
  have hsnd := congrArg (Option.map Prod.snd) hparse
  rw [finished?, Option.map_map, show Prod.snd ∘ ((parse o script).1.statistics, ·) = id from rfl,
    Option.map_id_fun, id] at hsnd
  rw [hsnd]
  cases (scan o base true (({} : Splitter).retag held script.length) script []).toOption with
  | none => rfl
  | some r =>
    rw [Option.bind_some, Option.bind_some, closed?, Option.map_map]
    exact Option.map_id_fun ▸ rfl

/-- A script that is split was scanned to its end. -/
theorem scan_of_parse {script : Chars} {all : List Statement}
    (h : (parse o script).2 = .ok all) : ∃ base held t found,
      scan o base true (({} : Splitter).retag held script.length) script [] = .ok (t, found) ∧
        (t.mode = .normal ∨ t.mode = .lineComment) ∧
        all = found.reverse ++ (t.emit none).2.toList ∧
        (parse o script).1.statistics = (t.emit none).1.statistics := by
  obtain ⟨base, held, hparse⟩ := parse_eq_closed o script
  rw [finished?, h] at hparse
  cases hscan : scan o base true (({} : Splitter).retag held script.length) script [] with
  | error e =>
    rw [hscan] at hparse
    cases hparse
  | ok r =>
    obtain ⟨t, found⟩ := r
    rw [hscan] at hparse
    refine ⟨base, held, t, found, hscan, ?_⟩
    cases hmode : t.mode with
    | normal | lineComment =>
      simpa [Except.toOption, closed?, ended?, ending?, hmode, and_comm] using hparse
    | quoted mark escapes | blockComment kept | dollarQuoted tag =>
      simp [Except.toOption, closed?, ended?, ending?, hmode] at hparse

/-- A script is split if a scan that may begin anywhere, with anything recorded as held back, comes
to its end. -/
theorem parse_of_scan (script : Chars) {P : Splitter → List Statement → Prop}
    (h : ∀ base held, ∃ t found,
      scan o base true (({} : Splitter).retag held script.length) script [] = .ok (t, found) ∧
        t.mode = .normal ∧ P t found) :
    ∃ t found, P t found ∧
      (parse o script).2 = .ok (found.reverse ++ (t.emit none).2.toList) ∧
      (parse o script).1.statistics = (t.emit none).1.statistics := by
  obtain ⟨base, held, hparse⟩ := parse_eq_closed o script
  obtain ⟨t, found, hscan, hmode, hP⟩ := h base held
  refine ⟨t, found, hP, ?_⟩
  rw [hscan, finished?] at hparse
  cases hr : (parse o script).2 with
  | error e => simp [hr, Except.toOption, closed?, ended?, ending?, hmode] at hparse
  | ok found' =>
    simpa [hr, Except.toOption, closed?, ended?, ending?, hmode, and_comm] using hparse

end SqlFerry.Splitter
