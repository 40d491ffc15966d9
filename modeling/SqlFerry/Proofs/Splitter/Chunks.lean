import SqlFerry.Proofs.Splitter.Extension

/-!
# Chunks of a script

However a script is cut into chunks, reading them one after another gives the statements, the
statistics and the state that reading it whole gives, and fails exactly if reading it whole fails.
Reading a chunk stops where a step waits; from there the next chunk goes on as if both were one.
-/

namespace SqlFerry.Splitter

open Text

variable {o : Options}

def Waits (o : Options) (s : Splitter) : Prop :=
  ∀ c rest, s.held = c :: rest → ∀ base, step o base false s c rest = .ok .hold

section Scan

variable {base : Nat} {s s' : Splitter} {held : Chars} {done done' : List Statement}

/-- Induction along a scan: its end, a step that fails, a step that waits, and a step that takes a
token. -/
theorem scan_induction {final : Bool}
    {motive : Splitter → Chars → List Statement → Except Fault (Splitter × List Statement) → Prop}
    (nil : ∀ s done, motive s [] done (.ok ({ s with held := [] }, done)))
    (error : ∀ s c rest done e, step o base final s c rest = .error e →
      motive s (c :: rest) done (.error e))
    (hold : ∀ s c rest done, step o base final s c rest = .ok .hold →
      motive s (c :: rest) done (.ok ({ s with held := c :: rest }, done)))
    (take : ∀ s c rest done extra next more,
      step o base final s c rest = .ok (.take extra next more) →
      motive (next.advance (c :: rest.take extra)) (rest.drop extra) (more.toList ++ done)
        (scan o base final (next.advance (c :: rest.take extra)) (rest.drop extra)
          (more.toList ++ done)) →
      motive s (c :: rest) done
        (scan o base final (next.advance (c :: rest.take extra)) (rest.drop extra)
          (more.toList ++ done)))
    (s : Splitter) (held : Chars) (done : List Statement) :
    motive s held done (scan o base final s held done) := by
  induction hn : held.length using Nat.strong_induction_on generalizing s held done with
  | _ n ih =>
    cases held with
    | nil => exact nil s done
    | cons c rest =>
      rw [scan_cons]
      cases hs : step o base final s c rest with
      | error e => exact error s c rest done e hs
      | ok move =>
        cases move with
        | hold => exact hold s c rest done hs
        | take extra next more =>
          refine take s c rest done extra next more hs (ih (rest.drop extra).length ?_ _ _ _ rfl)
          rw [← hn, List.length_cons, List.length_drop]
          omega

theorem waits_of_scan (h : scan o base false s held done = .ok (s', done')) : Waits o s' := by
  revert s' done'
  refine scan_induction (motive := fun _ _ _ r => ∀ {s' done'}, r = .ok (s', done') → Waits o s')
    ?nil ?error ?hold ?take s held done
  case nil =>
    rintro s done _ _ ⟨⟩ c rest hc
    cases hc
  case error =>
    rintro s c rest done e _ _ _ ⟨⟩
  case hold =>
    rintro s c rest done hs _ _ ⟨⟩ _ _ ⟨⟩ base'
    have he := step_extends o base base' s (c :: rest) 0 c rest []
    rw [hs, List.append_nil] at he
    exact he.eq_hold
  case take =>
    intro s c rest done extra next more _ ih
    exact ih

theorem Waits.scan_eq (h : Waits o s) (base : Nat) (held : Chars) (n : Nat)
    (done : List Statement) : scan o base false (s.retag held n) s.held done =
      .ok ({ s.retag held n with held := s.held }, done) := by
  cases hh : s.held with
  | nil => rfl
  | cons c rest =>
    have he := step_extends o base base s held n c rest []
    rw [h c rest hh base, List.append_nil] at he
    rw [scan_cons, he.eq_hold]
    rfl

/-- A scan over two texts is the scan over the first, which stops where it waits, and then over what
it held back and the second. -/
theorem scan_append (base base' : Nat) (s : Splitter) (held more held' : Chars) (n : Nat)
    (done done₀ : List Statement) :
    (scan o base' false (s.retag held' n) (held ++ more) (done ++ done₀)).toOption =
      (scan o base false s held done).toOption.bind fun r =>
        (scan o base' false (r.1.retag held' n) (r.1.held ++ more) (r.2 ++ done₀)).toOption := by
  apply scan_induction (motive := fun s held done r =>
    (scan o base' false (s.retag held' n) (held ++ more) (done ++ done₀)).toOption =
      r.toOption.bind fun r =>
        (scan o base' false (r.1.retag held' n) (r.1.held ++ more) (r.2 ++ done₀)).toOption)
  case nil =>
    intro s done
    rfl
  case error =>
    intro s c rest done e hs
    have he := step_extends o base base' s held' n c rest more
    rw [hs] at he
    rw [List.cons_append, scan_cons]
    cases hs' : step o base' false (s.retag held' n) c (rest ++ more) with
    | error e' => rfl
    | ok move =>
      rw [hs'] at he
      cases he
  case hold =>
    intro s c rest done _
    rfl
  case take =>
    intro s c rest done extra next found hs ih
    have he := step_extends o base base' s held' n c rest more
    rw [hs] at he
    rw [List.cons_append, scan_cons]
    cases hs' : step o base' false (s.retag held' n) c (rest ++ more) with
    | error e' =>
      rw [hs'] at he
      cases he
    | ok move =>
      rw [hs'] at he
      cases he with
      | take _ _ _ hl =>
        simp only [bind, Except.bind]
        rw [List.take_append_of_le_length hl, List.drop_append_of_le_length hl, retag_advance,
          ← List.append_assoc]
        exact ih

/-- Where the text at hand began, what was held back before and what was found before change nothing
in a scan that succeeds, and a scan fails wherever it began. -/
theorem scan_moved (base base' : Nat) (s : Splitter) (held held' : Chars)
    (done done₀ : List Statement) :
    (scan o base' false (s.retag held' 0) held (done ++ done₀)).toOption =
      (scan o base false s held done).toOption.map fun r => (r.1, r.2 ++ done₀) := by
  have h := scan_append (o := o) base base' s held [] held' 0 done done₀
  simp only [List.append_nil] at h
  rw [h]
  cases hr : scan o base false s held done with
  | error e => rfl
  | ok r =>
    obtain ⟨s', done'⟩ := r
    have hw : Waits o s' := waits_of_scan hr
    simp only [Except.toOption, Option.bind_some, hw.scan_eq]
    rfl

end Scan

/-! ## Chunks -/

theorem push_append (o : Options) (s : Splitter) (a b : Chars) :
    (push o s (a ++ b)).toOption = (push o s a).toOption.bind fun r =>
      (push o r.1 b).toOption.map fun r' => (r'.1, r'.2 ++ r.2) := by
  have hr : s.received (a ++ b).length = (s.received a.length).retag s.held b.length := by
    simp only [received, retag, List.length_append, Nat.add_assoc]
  have h := scan_append (o := o) s.offset s.offset (s.received a.length) (s.held ++ a) b s.held
    b.length [] []
  simp only [List.append_nil, List.append_assoc] at h
  unfold push
  rw [hr, h]
  congr 1
  funext r
  exact scan_moved r.1.offset s.offset (r.1.received b.length) (r.1.held ++ b) s.held [] r.2

/-- Two calls that leave the same splitter and either both fail or return the same statements. -/
def Alike (a b : Splitter × Except Fault (List Statement)) : Prop :=
  a.1 = b.1 ∧ a.2.toOption = b.2.toOption

namespace Alike

variable {a b c : Splitter × Except Fault (List Statement)}

theorem refl (a : Splitter × Except Fault (List Statement)) : Alike a a :=
  ⟨rfl, rfl⟩

theorem trans (h : Alike a b) (h' : Alike b c) : Alike a c :=
  ⟨h.1.trans h'.1, h.2.trans h'.2⟩

theorem ok_iff (h : Alike a b) (found : List Statement) : a.2 = .ok found ↔ b.2 = .ok found := by
  have toOption (r : Except Fault (List Statement)) : r = .ok found ↔ r.toOption = some found := by
    cases r <;> simp [Except.toOption]
  rw [toOption, toOption, h.2]

theorem error_iff (h : Alike a b) : (∃ e, a.2 = .error e) ↔ ∃ e, b.2 = .error e := by
  have toOption (r : Except Fault (List Statement)) : (∃ e, r = .error e) ↔ r.toOption = none := by
    cases r <;> simp [Except.toOption]
  rw [toOption, toOption, h.2]

end Alike

theorem stream_cons (o : Options) (s : Splitter) (chunk : Chars) (rest : List Chars) :
    stream o s (chunk :: rest) = match push o s chunk with
      | .error e => ({}, .error e)
      | .ok (t, found) =>
        ((stream o t rest).1, (stream o t rest).2.map (found.reverse ++ ·)) := by
  rw [stream, feed]
  cases push o s chunk <;> rfl

/-- Two chunks are read as one. -/
theorem stream_pair (o : Options) (s : Splitter) (a b : Chars) (rest : List Chars) :
    Alike (stream o s (a :: b :: rest)) (stream o s ((a ++ b) :: rest)) := by
  have h := push_append o s a b
  rw [stream_cons, stream_cons]
  cases ha : push o s a with
  | error e =>
    cases hab : push o s (a ++ b) with
    | error e' => exact .refl _
    | ok r => simp [ha, hab, Except.toOption] at h
  | ok r =>
    dsimp only
    rw [stream_cons]
    cases hb : push o r.1 b with
    | error e =>
      cases hab : push o s (a ++ b) with
      | error e' => exact .refl _
      | ok r' => simp [ha, hb, hab, Except.toOption] at h
    | ok r' =>
      cases hab : push o s (a ++ b) with
      | error e' => simp [ha, hb, hab, Except.toOption] at h
      | ok r'' =>
        simp only [ha, hb, hab, Except.toOption, Option.bind_some, Option.map_some,
          Option.some.injEq] at h
        subst h
        dsimp only
        rw [List.reverse_append]
        cases (stream o r'.1 rest).2 with
        | error e => exact .refl _
        | ok found => exact ⟨rfl, by simp [Except.map, Except.toOption]⟩

/-- All chunks are read as one. -/
theorem stream_flatten (o : Options) (s : Splitter) (chunk : Chars) (rest : List Chars) :
    Alike (stream o s (chunk :: rest)) (stream o s [chunk ++ rest.flatten]) := by
  induction rest generalizing chunk with
  | nil =>
    rw [List.flatten_nil, List.append_nil]
    exact .refl _
  | cons b rest ih =>
    rw [List.flatten_cons, ← List.append_assoc]
    exact (stream_pair o s chunk b rest).trans (ih (chunk ++ b))

theorem parse_eq_stream (o : Options) (script : Chars) : parse o script = stream o {} [script] := by
  simp only [parse, stream]
  cases feed o {} script with
  | mk s r =>
    cases r with
    | error e => rfl
    | ok found =>
      dsimp only
      cases finish o s with
      | mk t r => cases r <;> rfl

theorem stream_alike_parse (o : Options) (chunks : List Chars) :
    Alike (stream o {} chunks) (parse o chunks.flatten) := by
  rw [parse_eq_stream]
  cases chunks with
  | nil =>
    have hp : push o {} [] = .ok ({}, []) := rfl
    rw [List.flatten_nil, stream_cons, hp]
    cases hr : (stream o {} []).2 with
    | error e => exact ⟨rfl, by simp [hr, Except.map, Except.toOption]⟩
    | ok found => exact ⟨rfl, by simp [hr, Except.map, Except.toOption]⟩
  | cons chunk rest => exact stream_flatten o {} chunk rest

/-! ## After any calls -/

inductive Call where
  | feed (chunk : Chars)
  | finish
  | parse (script : Chars)
  | reset

def Call.run (o : Options) (s : Splitter) : Call → Splitter
  | feed chunk => (s.feed o chunk).1
  | finish => (s.finish o).1
  | parse script => (Splitter.parse o script).1
  | reset => s.reset

/-- Once a splitter is reset, whatever was done with it before, a script read in chunks gives what
the script gives as a whole: the statements with all that is known of them, and a splitter with the
same statistics. One way of reading it fails exactly if the other does. -/
theorem stream_eq_parse (o : Options) (calls : List Call) (chunks : List Chars) :
    let streamed := stream o (calls.foldl (Call.run o) {}).reset chunks
    let parsed := parse o chunks.flatten
    (∀ found, streamed.2 = .ok found ↔ parsed.2 = .ok found) ∧
      ((∃ e, streamed.2 = .error e) ↔ ∃ e, parsed.2 = .error e) ∧ streamed.1 = parsed.1 := by
  have h := stream_alike_parse o chunks
  exact ⟨h.ok_iff, h.error_iff, h.1⟩

end SqlFerry.Splitter
