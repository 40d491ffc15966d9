import Mathlib.Data.List.Find
import Mathlib.Data.List.Infix
import SqlFerry.Proofs.Restore.Comments
import SqlFerry.Proofs.Sql.Spacing

/-!
# The screen and the spacing of statements

What is denied does not depend on the blanks and comments between the other characters of a
statement, except before `IF EXISTS` where a database is dropped: there a single blank is allowed
only, and longer spacing hides the words from the screen.
-/

namespace SqlFerry.Restore

open Text Pattern Sql

variable {x y : Chars} {c : Char}

/-! ## The patterns -/

theorem startsSolid_call {names : List String}
    (h : ∀ s ∈ names, s.toList.head?.any isAsciiLetter = true) : StartsSolid (call names) :=
  (StartsSolid.edge_seq (.words h)).seq.seq

theorem ignoresSpacing_call {names : List String}
    (h : ∀ s ∈ names, ∀ a ∈ s.toList, a.toNat < 128 ∧ isBlank a = false) :
    IgnoresSpacing (call names) := by
  have hopen : ∀ c, isBlank c = true → (c == '(') = false := beq_of_isBlank rfl
  exact .assoc (.seq (.seq .edge (.words h)) (.blanks_seq (.one hopen) (.one hopen)))

def others : List Denial :=
  denials.tail

theorem ignoresSpacing_copy : IgnoresSpacing (blanks ++ word "COPY" ++ edge ++ few any ++ edge ++
    choice (["FROM", "TO"].map word) ++ blanks1 ++
    alt (word "PROGRAM" ++ edge) (char '\'' ++ star (noneOf "'") ++ char '\'')) := by
  have hquote : ∀ c, isBlank c = true → (c == '\'') = false := beq_of_isBlank rfl
  have hfile : IgnoresSpacing
      (alt (word "PROGRAM" ++ edge) (char '\'' ++ star (noneOf "'") ++ char '\'')) :=
    .alt (.seq (.word (by decide)) .edge) (.assoc (.quote_seq rfl))
  have hfileSolid : StartsSolid
      (alt (word "PROGRAM" ++ edge) (char '\'' ++ star (noneOf "'") ++ char '\'')) :=
    .alt (StartsSolid.word (by decide)).seq (StartsSolid.one hquote).seq.seq
  have hway : StartsSolid (choice (["FROM", "TO"].map word)) := .words (by decide)
  refine .assoc (.assoc (.assoc (.assoc (.assoc (.assoc (.blanks_seq
    (.seq (.word (by decide)) (.seq .edge ?_)) (StartsSolid.word (by decide)).seq))))))
  exact .many_seq (fun _ _ => rfl)
    (.seq .edge (.seq (.words (by decide)) (.blanks1_seq hfile hfileSolid))) hway.seq.edge_seq

theorem ignoresSpacing_loadData : IgnoresSpacing (edge ++ phrase ["LOAD", "DATA"] ++ blanks1 ++
    star (choice (["LOW_PRIORITY", "CONCURRENT", "LOCAL"].map word) ++ blanks1) ++
    word "INFILE" ++ edge) := by
  have hlast : IgnoresSpacing (word "INFILE" ++ edge) := .seq (.word (by decide)) .edge
  have hlastSolid : StartsSolid (word "INFILE" ++ edge) := (StartsSolid.word (by decide)).seq
  have hmodifiers : StartsSolid (choice (["LOW_PRIORITY", "CONCURRENT", "LOCAL"].map word)) :=
    .words (by decide)
  have hload : IgnoresSpacing (phrase ["LOAD", "DATA"]) :=
    .assoc (.seq (.word (by decide))
      (.blanks1_seq (.word (by decide)) (StartsSolid.word (by decide))))
  exact .assoc (.assoc (.assoc (.seq (.seq .edge hload) (.blanks1_seq
    (.star_blanks1_seq (.words (by decide)) hmodifiers hlast hlastSolid)
    (.star_seq hmodifiers.seq hlastSolid)))))

theorem ignoresSpacing_of_mem_others {d : Denial} (hd : d ∈ others) : IgnoresSpacing d.pattern := by
  simp only [others, denials, List.tail_cons, List.mem_cons, List.not_mem_nil, or_false] at hd
  rcases hd with rfl | rfl | rfl | rfl | rfl | rfl
  · exact ignoresSpacing_call (by decide)
  · have hfile : IgnoresSpacing (choice (["OUTFILE", "DUMPFILE"].map word) ++ edge) :=
      .seq (.words (by decide)) .edge
    have hfileSolid : StartsSolid (choice (["OUTFILE", "DUMPFILE"].map word)) :=
      .words (by decide)
    exact .assoc (.assoc (.seq (.seq .edge (.word (by decide)))
      (.blanks1_seq hfile hfileSolid.seq)))
  · exact ignoresSpacing_loadData
  · exact ignoresSpacing_call (by decide)
  · exact ignoresSpacing_copy
  · exact ignoresSpacing_call (by decide)

theorem startsSolid_of_mem_others {d : Denial} (hd : d ∈ others) (hstart : d.atStart = false) :
    StartsSolid d.pattern := by
  simp only [others, denials, List.tail_cons, List.mem_cons, List.not_mem_nil, or_false] at hd
  rcases hd with rfl | rfl | rfl | rfl | rfl | rfl
  · exact startsSolid_call (by decide)
  · exact (StartsSolid.edge_seq (StartsSolid.word (by decide))).seq.seq.seq
  · have hload : StartsSolid (phrase ["LOAD", "DATA"]) := (StartsSolid.word (by decide)).seq.seq
    exact hload.edge_seq.seq.seq.seq.seq
  · exact startsSolid_call (by decide)
  · cases hstart
  · exact startsSolid_call (by decide)

theorem applies_eq_of_reflowed {d : Denial} (hd : d ∈ others) (h : Reflowed x y)
    (hx : ∀ c ∈ x, isQuote c = false) : d.applies x = d.applies y := by
  rw [Denial.applies, Denial.applies]
  cases hstart : d.atStart with
  | true => exact (ignoresSpacing_of_mem_others hd).isSome_match? h hx
  | false =>
    exact (ignoresSpacing_of_mem_others hd).occurs_eq (startsSolid_of_mem_others hd hstart) h hx

/-- Where there are no quotes, there are no strings. -/
theorem withoutStrings_of_unquoted (hx : ∀ c ∈ x, isQuote c = false) : withoutStrings x = x := by
  have hkeeps (u v : Chars) (huv : x = u ++ v) (_ : v ≠ []) :
      Refuses stringLiteral (u.getLast?.or none) (v ++ []) := by
    refine .seq_left (.seq_left (.one fun c hc => ?_))
    have hmem : c ∈ x := by
      rw [huv]
      exact List.mem_append_right _ (List.mem_of_mem_head? (by simpa using hc))
    rw [beq_eq_false_iff_ne]
    rintro rfl
    exact absurd (hx _ hmem) (by decide)
  have hnil (before : Option Char) : Refuses stringLiteral before [] :=
    .seq_left (.seq_left (.one (by simp)))
  have h := replaceFrom_keeps (f := fun _ => ['\'', '\'']) (n := 0) hkeeps
  rw [replaceFrom_nil ((hnil _).matchAt? _), List.append_nil] at h
  exact h

/-! ## Deleting all rows -/

theorem ignoresSpacing_delete : IgnoresSpacing deletePattern := by
  have hmodifiers : StartsSolid (choice (["LOW_PRIORITY", "QUICK", "IGNORE"].map word)) :=
    .words (by decide)
  have hmodifiers' : IgnoresSpacing (choice (["LOW_PRIORITY", "QUICK", "IGNORE"].map word)) :=
    .words (by decide)
  have honly : StartsSolid (word "ONLY") := .word (by decide)
  have hname : IgnoresSpacing (capture 1 qname) := .capture 1 ignoresSpacing_qname
  have hnameSolid : StartsSolid (capture 1 qname) := .capture 1 startsSolid_ident.seq
  have htable : IgnoresSpacing (blanks1 ++ (opt (word "ONLY" ++ blanks1) ++ capture 1 qname)) :=
    .blanks1_seq (.opt_blanks1_seq (.word (by decide)) hname hnameSolid)
      (.opt_seq honly.seq hnameSolid)
  have hfrom : StartsSolid (word "FROM") := .word (by decide)
  refine .assoc (.assoc (.assoc (.assoc (.assoc (.assoc (.blanks_seq
    (.seq (.word (by decide)) (.blanks1_seq ?_ ?_)) (StartsSolid.word (by decide)).seq))))))
  · exact .star_blanks1_seq hmodifiers' hmodifiers (.seq (.word (by decide)) htable)
      hfrom.seq
  · exact .star_seq hmodifiers.seq hfrom.seq

theorem startsSolid_where : StartsSolid wherePattern :=
  (StartsSolid.edge_seq (.word (by decide))).seq

theorem ignoresSpacing_where : IgnoresSpacing wherePattern :=
  .seq (.seq .edge (.word (by decide))) .edge

theorem isTautology_eq_of_reflowed (h : Reflowed x y) : isTautology x = isTautology y := by
  have hend : ∀ c, isBlank c = true → (c == ';') = false := beq_of_isBlank rfl
  have hbare := (h.trim.reverse.dropWhile hend).reverse
  rw [isTautology, isTautology, hbare.oneLine_eq]

theorem deletion?_eq_of_reflowed (h : Reflowed x y) (hx : ∀ c ∈ x, isQuote c = false) :
    deletion? x = deletion? y := by
  have hdelete := ignoresSpacing_delete.match? h hx
  rw [deletion?, deletion?]
  generalize deletePattern.match? x = m at hdelete
  generalize deletePattern.match? y = m' at hdelete
  cases hdelete with
  | none => rfl
  | @some m m' hm =>
    have hexempt : exempt.contains (lower (unquote (m.group 1))) =
        exempt.contains (lower (unquote (m'.group 1))) := by
      have hunquoted := hm.group_unquoted 1
      rw [Bool.eq_iff_iff, List.contains_iff_mem, List.contains_iff_mem, exempt,
        List.mem_singleton, List.mem_singleton]
      exact lower_unquote_eq_iff (by decide) (hm.group 1) hunquoted
        (unquoted_of_reflowed (hm.group 1) hunquoted)
    have hwhere := ignoresSpacing_where.search? startsSolid_where hm.rest hm.unquoted
    dsimp only
    rw [hexempt]
    generalize wherePattern.search? m.rest = w at hwhere
    generalize wherePattern.search? m'.rest = w' at hwhere
    cases hwhere with
    | none => rfl
    | some hw => simp only [isTautology_eq_of_reflowed hw.rest]

/-! ## Dropping a database -/

def dropPattern : Pattern :=
  blanks ++ word "DROP" ++ blanks1 ++ choice (["DATABASE", "SCHEMA"].map word)

def ifExists : Pattern :=
  phrase ["IF", "EXISTS"] ++ edge

def dropping : Denial :=
  { pattern := dropPattern ++ blanks1 ++ notAhead ifExists, atStart := true
    reason := "DROP DATABASE/SCHEMA without IF EXISTS is not allowed" }

theorem denials_eq : denials = dropping :: others :=
  rfl

def DropsExisting (cs : Chars) : Prop :=
  ((dropPattern ++ blanks1 ++ ifExists).match? cs).isSome = true

/-- Whether a database is dropped if it exists, with one blank before `IF`. -/
def DropsTight (cs : Chars) : Prop :=
  ((dropPattern ++ blank ++ ifExists).match? cs).isSome = true

instance (cs : Chars) : Decidable (DropsExisting cs) :=
  inferInstanceAs (Decidable (_ = true))

instance (cs : Chars) : Decidable (DropsTight cs) :=
  inferInstanceAs (Decidable (_ = true))

theorem startsSolid_ifExists : StartsSolid ifExists :=
  (StartsSolid.word (by decide)).seq.seq.seq

theorem ignoresSpacing_ifExists : IgnoresSpacing ifExists :=
  .seq (.assoc (.seq (.word (by decide))
    (.blanks1_seq (.word (by decide)) (.word (by decide))))) .edge

theorem ignoresSpacing_drop : IgnoresSpacing dropPattern :=
  .assoc (.assoc (.blanks_seq (.seq (.word (by decide))
    (.blanks1_seq (.words (by decide)) (.words (by decide)))) (StartsSolid.word (by decide)).seq))

theorem determined_drop : Determined dropPattern := by
  have hletter (c : Char) (hc : sameLetter 'D' c = true) : sameLetter 'S' c = false := by
    rw [sameLetter] at hc ⊢
    split at hc
    · next hascii =>
      rw [if_pos hascii, ← beq_iff_eq.1 hc]
      rfl
    · cases hc
  have hwords : Determined (choice (["DATABASE", "SCHEMA"].map word)) := by
    refine .alt .word .word fun r => ?_
    obtain ⟨⟨before, x, n⟩, captures⟩ := r
    cases x with
    | nil => exact .inl (refuses_word rfl n captures)
    | cons c x =>
      by_cases hc : sameLetter 'D' c = true
      · exact .inr (refuses_word (by simp [opensWith, hletter c hc]) n captures)
      · exact .inl (refuses_word (by simp [opensWith, hc]) n captures)
  have hsolid : StartsSolid (choice (["DATABASE", "SCHEMA"].map word)) := .words (by decide)
  exact .assoc (.assoc (.blanks_seq (.seq .word (.blanks1_seq hwords hsolid))
    (StartsSolid.word (by decide)).seq))

theorem ends_blanks1_of_blank_eq {q : Pattern} {e e₁ : Reached} (h : blank.ends e = [e₁]) :
    (blanks1 ++ q).ends e = (blank.ends e₁).flatMap (blanks ++ q).ends ++ q.ends e₁ := by
  calc (blanks1 ++ q).ends e
    _ = (blank.ends e).flatMap (blanks ++ q).ends :=
      congrFun (ends_assoc blank blanks q) e
    _ = (blanks ++ q).ends e₁ := by rw [h, List.flatMap_singleton]
    _ = (blank.ends e₁).flatMap (blanks ++ q).ends ++ q.ends e₁ :=
      ends_many_one_seq true isBlank q e₁

theorem ends_blank_eq {q : Pattern} {e e₁ : Reached} (h : blank.ends e = [e₁]) :
    (blank ++ q).ends e = q.ends e₁ := by
  change (blank.ends e).flatMap q.ends = _
  rw [h, List.flatMap_singleton]

theorem ends_seq_eq_nil {a q : Pattern} {e : Reached} (h : a.ends e = []) :
    (a ++ q).ends e = [] := by
  change (a.ends e).flatMap q.ends = _
  rw [h, List.flatMap_nil]

/-- After blanks a pattern can be matched that can be matched after the first of them. -/
theorem ends_blanks1_of_blank {q : Pattern} {e : Reached} (h : (blank ++ q).ends e ≠ []) :
    (blanks1 ++ q).ends e ≠ [] := by
  rcases Determined.one.eq_nil_or_singleton e with hnone | ⟨e₁, hone⟩
  · exact absurd (ends_seq_eq_nil hnone) h
  · rw [ends_blank_eq hone] at h
    rw [ends_blanks1_of_blank_eq hone]
    simp [h]

/-- Blanks before a negative look-ahead give way, so that it speaks of the first of them only. -/
theorem ends_blanks1_notAhead {q : Pattern} (hq : StartsSolid q) (e : Reached) :
    (blanks1 ++ notAhead q).ends e ≠ [] ↔ blank.ends e ≠ [] ∧ (blank ++ q).ends e = [] := by
  rcases Determined.one.eq_nil_or_singleton e with hnone | ⟨e₁, hone⟩
  · have hblank : blank.ends e = [] := hnone
    have hblanks : blanks1.ends e = [] := ends_seq_eq_nil hnone
    simp [ends_seq_eq_nil hblanks, hblank]
  have hblank : blank.ends e = [e₁] := hone
  rw [ends_blanks1_of_blank_eq hone, ends_blank_eq hone, hblank]
  by_cases hfirst : q.ends e₁ = []
  · have hnot : (notAhead q).ends e₁ = [e₁] := by
      rw [ends, hfirst]
      rfl
    simp [hnot, hfirst]
  · have hnot : (notAhead q).ends e₁ = [] := by
      simp [ends, hfirst]
    have hlast : blank.ends e₁ = [] := by
      obtain ⟨⟨before, x, n⟩, captures⟩ := e₁
      refine Fails.one fun c hc => ?_
      obtain ⟨x, rfl⟩ := List.head?_eq_some_iff.1 hc
      rw [Bool.eq_false_iff]
      exact fun hblank => hfirst (hq _ _ _ _ _ hblank)
    simp [hnot, hlast, hfirst]

/-- Where the statement begins otherwise, no database is dropped; else what follows counts. -/
theorem isSome_match?_drop (x : Chars) :
    dropPattern.ends ⟨.atStart x, []⟩ = [] ∧
      (∀ q, ((dropPattern ++ q).match? x).isSome = false) ∨
    ∃ e, dropPattern.ends ⟨.atStart x, []⟩ = [e] ∧
      ∀ q, ((dropPattern ++ q).match? x).isSome = true ↔ q.ends e ≠ [] := by
  have hends (q : Pattern) : (dropPattern ++ q).ends ⟨.atStart x, []⟩ =
      (dropPattern.ends ⟨.atStart x, []⟩).flatMap q.ends := rfl
  rcases determined_drop.eq_nil_or_singleton ⟨.atStart x, []⟩ with hr | ⟨e, hr⟩
  · refine .inl ⟨hr, fun q => ?_⟩
    rw [Bool.eq_false_iff, ne_eq, isSome_match?_iff, hends, hr, not_not, List.flatMap_nil]
  · refine .inr ⟨e, hr, fun q => ?_⟩
    rw [isSome_match?_iff, hends, hr, List.flatMap_singleton]

def Drops (cs : Chars) : Prop :=
  ((dropPattern ++ blank).match? cs).isSome = true

theorem dropsExisting_iff :
    DropsExisting x ↔ ((dropPattern ++ (blanks1 ++ ifExists)).match? x).isSome = true := by
  rw [DropsExisting, isSome_match?_iff, isSome_match?_iff, ends_assoc]

theorem dropsTight_iff :
    DropsTight x ↔ ((dropPattern ++ (blank ++ ifExists)).match? x).isSome = true := by
  rw [DropsTight, isSome_match?_iff, isSome_match?_iff, ends_assoc]

/-- A drop is denied unless `IF EXISTS` follows a single blank. -/
theorem dropping_applies_iff : dropping.applies x = true ↔ Drops x ∧ ¬DropsTight x := by
  have happlies : dropping.applies x = true ↔
      ((dropPattern ++ (blanks1 ++ notAhead ifExists)).match? x).isSome = true := by
    change ((dropPattern ++ blanks1 ++ notAhead ifExists).match? x).isSome = true ↔ _
    rw [isSome_match?_iff, isSome_match?_iff, ends_assoc]
  rw [happlies, Drops, dropsTight_iff]
  rcases isSome_match?_drop x with ⟨-, hnone⟩ | ⟨e, -, hsome⟩
  · simp [hnone]
  · rw [hsome, hsome, hsome, not_not]
    exact ends_blanks1_notAhead startsSolid_ifExists e

theorem dropsExisting_of_dropsTight (h : DropsTight x) : DropsExisting x := by
  rw [dropsTight_iff] at h
  rw [dropsExisting_iff]
  rcases isSome_match?_drop x with ⟨-, hnone⟩ | ⟨e, -, hsome⟩
  · simp [hnone] at h
  · rw [hsome] at h ⊢
    exact ends_blanks1_of_blank h

theorem drops_of_dropsExisting (h : DropsExisting x) : Drops x := by
  rw [dropsExisting_iff] at h
  rw [Drops]
  rcases isSome_match?_drop x with ⟨-, hnone⟩ | ⟨e, -, hsome⟩
  · simp [hnone] at h
  · rw [hsome] at h ⊢
    exact fun hblank => h (ends_seq_eq_nil (ends_seq_eq_nil hblank))

theorem ends_blank_eq_nil_iff {e e' : Reached} (h : Reflowed e.cursor.rest e'.cursor.rest) :
    blank.ends e = [] ↔ blank.ends e' = [] := by
  have hiff (e : Reached) : blank.ends e = [] ↔ BeginsSolid e.cursor.rest := by
    obtain ⟨⟨before, x, n⟩, captures⟩ := e
    cases x with
    | nil => simp [blank, ends, beginsSolid_nil]
    | cons c x => simp [blank, ends, beginsSolid_cons]
  rw [hiff, hiff]
  generalize e.cursor.rest = u at h
  generalize e'.cursor.rest = v at h
  cases h with
  | nil => exact Iff.rfl
  | solid hc => rw [beginsSolid_cons, beginsSolid_cons]
  | blanks hg hg' => exact iff_of_false hg.not_beginsSolid hg'.not_beginsSolid

theorem drops_iff_of_reflowed (h : Reflowed x y) (hx : ∀ c ∈ x, isQuote c = false) :
    Drops x ↔ Drops y := by
  have hends := ignoresSpacing_drop ⟨.atStart x, []⟩ ⟨.atStart y, []⟩ ⟨h, rfl, hx⟩
  rw [Drops, Drops]
  rcases isSome_match?_drop x with ⟨hr, hnone⟩ | ⟨e, hr, hsome⟩ <;>
    rcases isSome_match?_drop y with ⟨hr', hnone'⟩ | ⟨e', hr', hsome'⟩ <;>
    rw [hr, hr'] at hends
  · rw [hnone, hnone']
  · cases hends
  · cases hends
  · obtain ⟨htrack, -⟩ := List.forall₂_cons.1 hends
    rw [hsome, hsome', not_iff_not]
    exact ends_blank_eq_nil_iff (htrack.alike ⟨h, rfl, hx⟩).rest

theorem dropping_applies_eq_iff (h : Reflowed x y) (hx : ∀ c ∈ x, isQuote c = false) :
    dropping.applies x = dropping.applies y ↔
      (DropsExisting x → (DropsTight x ↔ DropsTight y)) := by
  have hdrops := drops_iff_of_reflowed h hx
  have hexisting : DropsExisting x ↔ DropsExisting y := by
    have hsame := (IgnoresSpacing.seq ignoresSpacing_drop
      (.blanks1_seq ignoresSpacing_ifExists startsSolid_ifExists)).isSome_match? h hx
    rw [dropsExisting_iff, dropsExisting_iff, hsame]
  rw [Bool.eq_iff_iff, dropping_applies_iff, dropping_applies_iff]
  by_cases hexists : DropsExisting x
  · have hdrop := drops_of_dropsExisting hexists
    simp only [hdrop, hdrops.1 hdrop, hexists, true_and, forall_const, not_iff_not]
  · have htight : ¬DropsTight x := fun h => hexists (dropsExisting_of_dropsTight h)
    have htight' : ¬DropsTight y := fun h =>
      hexists (hexisting.2 (dropsExisting_of_dropsTight h))
    simp only [hdrops, htight, htight', hexists, not_false_eq_true, and_true, false_implies]

/-! ## All denials -/

def otherReason? (cs : Chars) : Option String :=
  match others.find? (·.applies cs) with
  | some d => some d.reason
  | none => deletion? cs

theorem denied?_of_unquoted {s : String} (hs : ∀ c ∈ withoutComments s.toList, isQuote c = false) :
    denied? s = if dropping.applies (withoutComments s.toList) then some dropping.reason
      else otherReason? (withoutComments s.toList) := by
  rw [denied?, withoutStrings_of_unquoted hs, denials_eq, List.find?_cons]
  cases dropping.applies (withoutComments s.toList) with
  | true => rfl
  | false => rfl

theorem otherReason?_ne (cs : Chars) : otherReason? cs ≠ some dropping.reason := by
  rw [otherReason?]
  split
  · next d hd =>
    have hreasons : ∀ d ∈ others, some d.reason ≠ some dropping.reason := by decide
    exact hreasons d (List.mem_of_find?_eq_some hd)
  · unfold deletion?
    repeat' split
    all_goals decide

theorem otherReason?_eq_of_reflowed (h : Reflowed x y) (hx : ∀ c ∈ x, isQuote c = false) :
    otherReason? x = otherReason? y := by
  have hfind : others.find? (·.applies x) = others.find? (·.applies y) :=
    List.find?_congr fun d hd => applies_eq_of_reflowed hd h hx
  rw [otherReason?, otherReason?, hfind, deletion?_eq_of_reflowed h hx]

/-- Statements that differ in blanks and comments are judged alike, unless one of them drops a
database if it exists with one blank before `IF`, and the other with longer spacing there. -/
theorem denied_respaced_iff {s s' : String} (h : Respaced true s.toList s'.toList) :
    denied? s = denied? s' ↔ (DropsExisting (withoutComments s.toList) →
      (DropsTight (withoutComments s.toList) ↔ DropsTight (withoutComments s'.toList))) := by
  obtain ⟨hreflowed, hunquoted⟩ := h.withoutComments
  rw [denied?_of_unquoted hunquoted,
    denied?_of_unquoted (unquoted_of_reflowed hreflowed hunquoted),
    ← dropping_applies_eq_iff hreflowed hunquoted, otherReason?_eq_of_reflowed hreflowed hunquoted]
  have hne := otherReason?_ne (withoutComments s'.toList)
  cases dropping.applies (withoutComments s.toList) <;>
    cases dropping.applies (withoutComments s'.toList) <;> simp [hne, hne.symm]

theorem outfile_denied_respaced :
    Respaced true "SELECT a INTO OUTFILE b".toList "SELECT a/* 'x' */INTO --y\nOUTFILE b".toList ∧
      denied? "SELECT a INTO OUTFILE b" = denied? "SELECT a/* 'x' */INTO --y\nOUTFILE b" := by
  have h : Respaced true "SELECT a INTO OUTFILE b".toList
      "SELECT a/* 'x' */INTO --y\nOUTFILE b".toList := by
    have hspace : IsSpacing true [' '] := .blank rfl
    have hblock : IsSpacing true (['/', '*'] ++ (" 'x' ".toList ++ ['*', '/'])) :=
      .block rfl (by decide) (by decide)
    have hunopened : ∀ v ∈ "y".toList.tails, opensBlock v = false := by decide
    have hline : IsSpacing true ([' '] ++ (['-', '-'] ++ ("y".toList ++ ['\n']))) :=
      .append hspace (.line ⟨by decide, fun _ v hv => hunopened v ((List.mem_tails v _).2 hv)⟩)
    have hfile : Respaced true ("OUTFILE".toList ++ ([' '] ++ ("b".toList ++ [])))
        ("OUTFILE".toList ++ ([' '] ++ ("b".toList ++ []))) :=
      .plain (by decide) (.spacing hspace hspace (.plain (by decide) .nil))
    exact .plain (t := "SELECT".toList) (by decide) (.spacing hspace hspace
      (.plain (t := ['a']) (by decide) (.spacing hspace hblock
        (.plain (t := "INTO".toList) (by decide) (.spacing hspace hline hfile)))))
  exact ⟨h, (denied_respaced_iff h).2 fun hdrop => absurd hdrop (by decide +kernel)⟩

/-- The verdict may depend on spacing. -/
theorem not_denied_respaced : ¬∀ s s' : String, Respaced true s.toList s'.toList →
    denied? s = denied? s' := by
  intro h
  have hspace : IsSpacing true [' '] := .blank rfl
  have hrespaced : Respaced true "DROP DATABASE IF EXISTS x".toList
      "DROP DATABASE  IF EXISTS x".toList :=
    .plain (t := "DROP".toList) (by decide) (.spacing hspace hspace
      (.plain (t := "DATABASE".toList) (by decide) (.spacing hspace (hspace.append hspace)
        (.plain (t := "IF".toList) (by decide) (.spacing hspace hspace
          (.plain (t := "EXISTS".toList) (by decide) (.spacing hspace hspace
            (.plain (t := ['x']) (by decide) .nil))))))))
  exact absurd (h _ _ hrespaced) (by decide +kernel)

end SqlFerry.Restore
