import Mathlib.Data.List.Infix
import SqlFerry.Files

/-!
# Where paths lead

A path leads to the same place in every store in which all that it passes is a folder. What can be
passed stays so when a folder is made, when a file is put where no folder is, and when a file is
dropped beside another one.
-/

namespace SqlFerry

open Bytes

namespace Path

variable {p q : Path} {x : String}

/-! ## Last parts -/

theorem parts_eq (h : p.name ≠ "") : p.parts = p.parent.parts ++ [p.name] := by
  have hne : p.parts ≠ [] := by
    intro hnil
    simp [name, hnil] at h
  rw [name, List.getLast?_eq_some_getLast hne]
  exact (List.dropLast_append_getLast hne).symm

@[simp]
theorem parent_withName (p : Path) (x : String) : (p.withName x).parent = p.parent := by
  simp [withName, parent]

@[simp]
theorem name_withName (p : Path) (x : String) : (p.withName x).name = x := by
  simp [withName, name]

theorem withName_name (h : p.name ≠ "") : p.withName p.name = p :=
  congrArg (fun parts => { p with parts }) (parts_eq h).symm

theorem exists_intercalate (xs : List String) :
    ∃ start : String, ∀ x, "/".intercalate (xs ++ [x]) = start ++ x := by
  by_cases hxs : xs = []
  · exact ⟨"", fun x => by rw [hxs, List.nil_append, String.intercalate_singleton,
      String.empty_append]⟩
  · exact ⟨"/".intercalate xs ++ "/", fun x => by
      rw [String.intercalate_append_of_ne_nil hxs (List.cons_ne_nil x []),
        String.intercalate_singleton]⟩

/-- The text of a path ends with its last part. -/
theorem exists_toText (p : Path) :
    ∃ start : String, ∀ x ≠ "", (p.withName x).toText = start ++ x := by
  obtain ⟨start, h⟩ := exists_intercalate p.parts.dropLast
  by_cases hdoubled : p.doubled = true
  · exact ⟨"//" ++ start, fun x _ => by simp [toText, h, withName, hdoubled, String.append_assoc]⟩
  · by_cases hrooted : p.rooted = true
    · exact ⟨"/" ++ start, fun x _ => by
        simp [toText, h, withName, hdoubled, hrooted, String.append_assoc]⟩
    · exact ⟨start, fun x hx => by simp [toText, h, withName, hdoubled, hrooted, hx]⟩

theorem toText_size_le (h : p.name ≠ "") (x : String) :
    p.toText.utf8ByteSize ≤ (p.withName (p.name ++ x)).toText.utf8ByteSize := by
  obtain ⟨start, htext⟩ := exists_toText p
  have hp := htext p.name h
  rw [withName_name h] at hp
  rw [hp, htext (p.name ++ x) (by simp [h])]
  simp only [String.utf8ByteSize_append]
  omega

theorem hasNul_withName_append (h : p.name ≠ "") (hx : '\x00' ∉ x.toList) :
    (p.withName (p.name ++ x)).hasNul = p.hasNul := by
  have hcontains : (p.name ++ x).toList.contains '\x00' = p.name.toList.contains '\x00' := by
    simp [hx]
  calc (p.withName (p.name ++ x)).hasNul
      = (p.parent.parts ++ [p.name ++ x]).any (·.toList.contains '\x00') := rfl
    _ = (p.parent.parts ++ [p.name]).any (·.toList.contains '\x00') := by
        simp only [List.any_append, List.any_cons, hcontains]
    _ = p.hasNul := by rw [← parts_eq h, hasNul]

/-! ## Steps back -/

def base (p : Path) : List String :=
  p.parent.parts.foldl (climb p.rooted) []

theorem settled_eq (h : p.name ≠ "") :
    p.settled = { rooted := p.rooted, parts := (climb p.rooted p.base p.name).reverse } := by
  rw [settled, parts_eq h, List.foldl_append, List.foldl_cons, List.foldl_nil, base]

theorem rooted_congr (h : p.parent = q.parent) : p.rooted = q.rooted := by
  simpa [parent] using congrArg rooted h

theorem base_congr (h : p.parent = q.parent) : p.base = q.base := by
  rw [base, base, h, rooted_congr h]

/-- Two names in one folder lead to two places. -/
theorem settled_ne (h : p.parent = q.parent) (hp : p.name ≠ "") (hq : q.name ≠ "")
    (hne : p.name ≠ q.name) (hback : p.name ≠ "..") : p.settled ≠ q.settled := by
  rw [settled_eq hp, settled_eq hq, base_congr h, rooted_congr h]
  intro heq
  have hclimb : climb q.rooted q.base p.name = climb q.rooted q.base q.name := by
    simpa using congrArg parts heq
  simp only [climb, bne_iff_ne, ne_eq, hback, not_false_eq_true, ite_true] at hclimb
  split at hclimb
  · exact hne (List.cons.inj hclimb).1
  · split at hclimb
    · next hnil =>
      rw [hnil] at hclimb
      split at hclimb
      · cases hclimb
      · exact hback (List.cons.inj hclimb).1
    · next last rest hcons =>
      rw [hcons] at hclimb
      split at hclimb
      · exact hback (List.cons.inj hclimb).1
      · have hlength := congrArg List.length hclimb
        simp only [List.length_cons] at hlength
        omega

/-- Only steps back are below a step back. -/
theorem pairwise_climb {rooted : Bool} {done : List String} (part : String)
    (h : done.Pairwise fun a b => a = ".." → b = "..") :
    (climb rooted done part).Pairwise fun a b => a = ".." → b = ".." := by
  unfold climb
  split
  · next hpart => exact List.pairwise_cons.2 ⟨fun b _ ha => absurd ha (by simpa using hpart), h⟩
  · split
    · split <;> simp
    · next last rest =>
      obtain ⟨hlast, hrest⟩ := List.pairwise_cons.1 h
      split
      · next hback =>
        rw [beq_iff_eq] at hback
        refine List.pairwise_cons.2 ⟨fun b hb _ => ?_, h⟩
        rcases List.mem_cons.1 hb with rfl | hb
        · exact hback
        · exact hlast b hb hback
      · exact hrest

theorem pairwise_base (p : Path) : p.base.Pairwise fun a b => a = ".." → b = ".." := by
  unfold base
  generalize hdone : ([] : List String) = done
  have h : done.Pairwise fun a b => a = ".." → b = ".." := hdone ▸ List.Pairwise.nil
  clear hdone
  induction p.parent.parts generalizing done with
  | nil => exact h
  | cons part parts ih => exact ih _ (pairwise_climb part h)

end Path

namespace Files

variable {f f' : Files} {p q v : Path} {rooted : Bool} {done parts found : List String}
  {bs : Octets}

/-! ## Following a path -/

theorem follow_cons_eq_ok {part : String} :
    f.follow rooted done (part :: parts) = .ok found ↔
      f.at? { rooted, parts := done.reverse } = none ∧
        f.hasFolder { rooted, parts := done.reverse } = true ∧
        part.utf8ByteSize ≤ Path.maxNameLength ∧
        f.follow rooted (Path.climb rooted done part) parts = .ok found := by
  rw [follow]
  split
  · next hfile => exact iff_of_false (by rintro ⟨⟩) fun h => by simp [h.1] at hfile
  · next hfile =>
    split
    · next hfolder => exact iff_of_false (by rintro ⟨⟩) fun h => by simp [h.2.1] at hfolder
    · next hfolder =>
      split
      · next hlong => exact iff_of_false (by rintro ⟨⟩) fun h => Nat.not_le.2 hlong h.2.2.1
      · next hshort => simp_all

theorem follow_append_eq_ok {xs ys : List String} :
    f.follow rooted done (xs ++ ys) = .ok found ↔
      ∃ middle, f.follow rooted done xs = .ok middle ∧ f.follow rooted middle ys = .ok found := by
  induction xs generalizing done with
  | nil => simp [follow]
  | cons x xs ih =>
    simp only [List.cons_append, follow_cons_eq_ok, ih]
    constructor
    · rintro ⟨hfile, hfolder, hlength, middle, hx, hy⟩
      exact ⟨middle, ⟨hfile, hfolder, hlength, hx⟩, hy⟩
    · rintro ⟨middle, ⟨hfile, hfolder, hlength, hx⟩, hy⟩
      exact ⟨hfile, hfolder, hlength, middle, hx, hy⟩

theorem eq_foldl_of_follow (h : f.follow rooted done parts = .ok found) :
    found = parts.foldl (Path.climb rooted) done := by
  induction parts generalizing done with
  | nil => exact (Except.ok.inj h).symm
  | cons part parts ih => exact ih (follow_cons_eq_ok.1 h).2.2.2

/-- What is above the place that was come to was passed, so it is no file. -/
theorem at?_eq_none_of_follow (h : f.follow rooted done parts = .ok found)
    (hdone : ∀ r, r <:+ done → r ≠ done → f.at? { rooted, parts := r.reverse } = none) :
    ∀ r, r <:+ found → r ≠ found → f.at? { rooted, parts := r.reverse } = none := by
  induction parts generalizing done with
  | nil =>
    cases h
    exact hdone
  | cons part parts ih =>
    obtain ⟨hfile, -, -, h⟩ := follow_cons_eq_ok.1 h
    have hupto (r : List String) (hr : r <:+ done) :
        f.at? { rooted, parts := r.reverse } = none := by
      by_cases heq : r = done
      · rwa [heq]
      · exact hdone r hr heq
    refine ih h fun r hr hne => hupto r ?_
    -- a step puts a part on the places passed, or takes the last one off
    unfold Path.climb at hr hne
    split at hr
    · exact (List.suffix_cons_iff.1 hr).resolve_left (by simp_all)
    · split at hr
      · split at hr
        · exact hr
        · exact (List.suffix_cons_iff.1 hr).resolve_left (by simp_all)
      · split at hr
        · exact (List.suffix_cons_iff.1 hr).resolve_left (by simp_all)
        · exact hr.trans (List.suffix_cons _ _)

/-! ## Places that are reached -/

/-- Whether all that a path passes is a folder. -/
def Reaches (f : Files) (p : Path) : Prop :=
  f.follow p.rooted [] p.parent.parts = .ok p.base ∧
    f.at? { rooted := p.rooted, parts := p.base.reverse } = none ∧
    f.hasFolder { rooted := p.rooted, parts := p.base.reverse } = true

theorem reaches_congr (h : p.parent = q.parent) : f.Reaches p ↔ f.Reaches q := by
  rw [Reaches, Reaches, h, Path.base_congr h, Path.rooted_congr h]

theorem eq_settled_of_locate (h : f.locate p = .ok q) : q = p.settled := by
  unfold locate at h
  split at h
  · cases h
  · cases hfollow : f.follow p.rooted [] p.parts with
    | error e =>
      rw [hfollow] at h
      cases h
    | ok found =>
      rw [hfollow] at h
      rw [← Except.ok.inj h, eq_foldl_of_follow hfollow]
      rfl

theorem locate_eq_ok_iff (hname : p.name ≠ "") :
    f.locate p = .ok p.settled ↔ p.toText.utf8ByteSize ≤ Path.maxLength ∧
      p.name.utf8ByteSize ≤ Path.maxNameLength ∧ f.Reaches p := by
  have hfollow (found : List String) : f.follow p.rooted [] p.parts = .ok found ↔
      p.name.utf8ByteSize ≤ Path.maxNameLength ∧ f.Reaches p ∧
        found = Path.climb p.rooted p.base p.name := by
    rw [Path.parts_eq hname, follow_append_eq_ok]
    constructor
    · rintro ⟨middle, hparent, hlast⟩
      obtain ⟨hfile, hfolder, hlength, hend⟩ := follow_cons_eq_ok.1 hlast
      obtain rfl : middle = p.base := eq_foldl_of_follow hparent
      exact ⟨hlength, ⟨hparent, hfile, hfolder⟩, (Except.ok.inj hend).symm⟩
    · rintro ⟨hlength, ⟨hparent, hfile, hfolder⟩, rfl⟩
      exact ⟨p.base, hparent, follow_cons_eq_ok.2 ⟨hfile, hfolder, hlength, rfl⟩⟩
  rw [locate, Path.settled_eq hname]
  split
  · next hlong => simp [Nat.not_le.2 hlong]
  · next hshort =>
    rw [Nat.not_lt] at hshort
    cases hfound : f.follow p.rooted [] p.parts with
    | error e =>
      refine iff_of_false (by rintro ⟨⟩) fun ⟨_, hlength, hreach⟩ => ?_
      rw [(hfollow _).2 ⟨hlength, hreach, rfl⟩] at hfound
      cases hfound
    | ok found =>
      obtain ⟨hlength, hreach, rfl⟩ := (hfollow found).1 hfound
      exact iff_of_true rfl ⟨hshort, hlength, hreach⟩

def Opens (f f' : Files) : Prop :=
  ∀ v, f.hasFolder v = true → f.at? v = none → f'.hasFolder v = true ∧ f'.at? v = none

theorem Opens.follow (h : Opens f f') (hfollow : f.follow rooted done parts = .ok found) :
    f'.follow rooted done parts = .ok found := by
  induction parts generalizing done with
  | nil => exact hfollow
  | cons part parts ih =>
    obtain ⟨hfile, hfolder, hlength, hrest⟩ := follow_cons_eq_ok.1 hfollow
    obtain ⟨hfolder', hfile'⟩ := h _ hfolder hfile
    exact follow_cons_eq_ok.2 ⟨hfile', hfolder', hlength, ih hrest⟩

theorem Opens.reaches (h : Opens f f') (hreach : f.Reaches p) : f'.Reaches p := by
  obtain ⟨hfollow, hfile, hfolder⟩ := hreach
  obtain ⟨hfolder', hfile'⟩ := h _ hfolder hfile
  exact ⟨h.follow hfollow, hfile', hfolder'⟩

/-! ## Folders above a place -/

theorem isAbove_settled (hname : p.name ≠ "") (hback : p.name ≠ "..") :
    isAbove v p.settled = true ↔ v.rooted = p.rooted ∧ v.parts <+: p.base.reverse := by
  have hclimb : Path.climb p.rooted p.base p.name = p.name :: p.base := by
    simp [Path.climb, hback]
  rw [Path.settled_eq hname, hclimb, isAbove, List.reverse_cons]
  simp only [Bool.and_eq_true, beq_iff_eq, decide_eq_true_eq, List.isPrefixOf_iff_prefix,
    List.length_append, List.length_cons, List.length_nil]
  rw [and_assoc, List.prefix_concat_iff]
  refine and_congr_right fun _ => ⟨?_, fun h => ⟨by have := h.length_le; omega, .inr h⟩⟩
  rintro ⟨hlength, heq | hprefix⟩
  · simp [heq] at hlength
  · exact hprefix

theorem isAbove_settled_congr (hbeside : q.parent = p.parent) (hq : q.name ≠ "")
    (hp : p.name ≠ "") (hbackq : q.name ≠ "..") (hbackp : p.name ≠ "..") :
    isAbove v q.settled = true ↔ isAbove v p.settled = true := by
  rw [isAbove_settled hq hbackq, isAbove_settled hp hbackp, Path.base_congr hbeside,
    Path.rooted_congr hbeside]

/-- A step back leads to a file only if nothing but steps back was passed. -/
theorem all_back_of_reaches (h : f.Reaches p) (hname : p.name ≠ "") (hback : p.name = "..")
    (hfile : f.at? p.settled ≠ none) : ∀ x ∈ p.base, x = ".." := by
  obtain ⟨hfollow, hbase, -⟩ := h
  have habove := at?_eq_none_of_follow hfollow (by simp)
  have hpairs := Path.pairwise_base p
  rw [Path.settled_eq hname, hback] at hfile
  cases hcons : p.base with
  | nil => simp
  | cons last rest =>
    rw [hcons] at hfile habove hpairs
    by_cases hlast : last = ".."
    · exact List.forall_mem_cons.2 ⟨hlast, fun x hx => (List.pairwise_cons.1 hpairs).1 x hx hlast⟩
    · have hclimb : Path.climb p.rooted (last :: rest) ".." = rest := by
        simp [Path.climb, hlast]
      rw [hclimb] at hfile
      exact absurd (habove rest (List.suffix_cons _ _) (by simp)) hfile

/-! ## Changes -/

theorem at?_drop_eq_none (h : f.at? v = none) (q : Path) : (f.drop q).at? v = none := by
  by_cases heq : v = q
  · rw [heq, at?_drop_self]
  · rwa [at?_drop_other f _ _ heq]

theorem hasFolder_of_at? (h : f.at? q = some bs) (habove : isAbove v q = true) :
    f.hasFolder v = true := by
  have hmem : (q, bs) ∈ f.contents := by
    obtain ⟨before, after, heq, -⟩ := List.lookup_eq_some_iff.1 h
    simp [heq]
  simp only [hasFolder, Bool.or_eq_true]
  exact .inl (.inr (List.any_eq_true.2 ⟨_, hmem, habove⟩))

/-- A folder stays when a file is dropped that is not below it. -/
theorem hasFolder_drop (h : f.hasFolder v = true) (habove : isAbove v q = false) :
    (f.drop q).hasFolder v = true := by
  simp only [hasFolder, Bool.or_eq_true] at h ⊢
  rcases h with ((hback | hmade) | hfile) | hbelow
  · exact .inl (.inl (.inl hback))
  · exact .inl (.inl (.inr hmade))
  · obtain ⟨x, hx, hxabove⟩ := List.any_eq_true.1 hfile
    refine .inl (.inr (List.any_eq_true.2 ⟨x, List.mem_filter.2 ⟨hx, ?_⟩, hxabove⟩))
    rw [bne_iff_ne]
    rintro rfl
    rw [habove] at hxabove
    cases hxabove
  · exact .inr hbelow

theorem opens_put (hq : f.hasFolder q = false) : Opens f (f.put q bs) := by
  intro v hfolder hfile
  have hne : v ≠ q := by
    rintro rfl
    rw [hq] at hfolder
    cases hfolder
  exact ⟨hasFolder_put hfolder, by rwa [at?_put_other f _ _ _ hne]⟩

/-- More folders may be in the one store than in the other. -/
def Grows (f f' : Files) : Prop :=
  f'.contents = f.contents ∧ f.folders ⊆ f'.folders

theorem Grows.opens (h : Grows f f') : Opens f f' := by
  obtain ⟨hcontents, hfolders⟩ := h
  intro v hfolder hfile
  refine ⟨?_, by rwa [at?, hcontents]⟩
  simp only [hasFolder, Bool.or_eq_true, hcontents] at hfolder ⊢
  rcases hfolder with ((hback | hmade) | habove) | hbelow
  · exact .inl (.inl (.inl hback))
  · rw [List.contains_iff_mem] at hmade ⊢
    exact .inl (.inl (.inr (hfolders hmade)))
  · exact .inl (.inr habove)
  · obtain ⟨x, hx, habove⟩ := List.any_eq_true.1 hbelow
    exact .inr (List.any_eq_true.2 ⟨x, hfolders hx, habove⟩)

theorem grows_of_makeLast (h : f.makeLast p = .ok f') : Grows f f' := by
  unfold makeLast at h
  split at h
  · cases h
  · split at h
    · cases h
      exact ⟨rfl, List.Subset.refl _⟩
    · split at h
      · cases h
      · cases h
        exact ⟨rfl, List.subset_cons_self _ _⟩

theorem grows_of_makeFolder (h : f.makeFolder p = .ok f') : Grows f f' := by
  have hgo (n : Nat) : ∀ q f', makeFolder.go f n q = .ok f' → Grows f f' := by
    induction n with
    | zero => exact fun q f' => grows_of_makeLast
    | succ n ih =>
      intro q f' h
      rw [makeFolder.go] at h
      split at h
      · cases hparent : makeFolder.go f n q.parent with
        | error e =>
          rw [hparent] at h
          cases h
        | ok f₁ =>
          rw [hparent] at h
          obtain ⟨hcontents, hfolders⟩ := ih _ _ hparent
          obtain ⟨hcontents', hfolders'⟩ := grows_of_makeLast h
          exact ⟨hcontents'.trans hcontents, List.Subset.trans hfolders hfolders'⟩
      · exact grows_of_makeLast h
  unfold makeFolder at h
  split at h
  · cases h
  · exact hgo _ _ _ h

theorem eq_put_of_write (h : f.write p bs = .ok f') :
    f' = f.put p.settled bs ∧ f.hasFolder p.settled = false := by
  unfold write at h
  split at h
  · cases h
  · split at h
    · cases h
    · next q hlocate =>
      obtain rfl := eq_settled_of_locate hlocate
      split at h
      · cases h
      · next hfolder => exact ⟨(Except.ok.inj h).symm, by simpa using hfolder⟩

theorem remove_eq_ok (h : f.remove p = .ok f') :
    f.locate p = .ok p.settled ∧ f' = f.drop p.settled ∨
      f.locate p ≠ .ok p.settled ∧ f' = f := by
  unfold remove at h
  split at h
  · cases h
  · cases hlocate : f.locate p with
    | error e =>
      rw [hlocate] at h
      exact .inr ⟨by simp, (Except.ok.inj h).symm⟩
    | ok q =>
      rw [hlocate] at h
      obtain rfl := eq_settled_of_locate hlocate
      exact .inl ⟨rfl, (Except.ok.inj h).symm⟩

/-- Only a path that no file can have is not removed. -/
theorem hasNul_of_remove {e : Fault} (h : f.remove p = .error e) : p.hasNul = true := by
  unfold remove at h
  split at h
  · assumption
  · cases h

theorem exists_remove_eq_ok (hnul : p.hasNul = false) : ∃ f', f.remove p = .ok f' := by
  rw [remove, if_neg (by simp [hnul])]
  exact ⟨_, rfl⟩

theorem move_eq_ok (h : f.move q p = .ok f') :
    q.hasNul = false ∧ p.hasNul = false ∧ f.locate q = .ok q.settled ∧
      f.locate p = .ok p.settled ∧ p.name ≠ ".." ∧ f.hasFolder p.settled = false ∧
      ∃ bs, f.at? q.settled = some bs ∧ f' = (f.drop q.settled).put p.settled bs := by
  unfold move at h
  dsimp only at h
  split at h
  · cases h
  · next hnul =>
    rw [Bool.or_eq_true, not_or, Bool.not_eq_true, Bool.not_eq_true] at hnul
    split at h
    · cases h
    · cases h
    · next q' p' hq hp =>
      obtain rfl := eq_settled_of_locate hq
      obtain rfl := eq_settled_of_locate hp
      split at h
      · cases h
      · next hback =>
        split at h
        · cases h
        · next bs hfile =>
          split at h
          · cases h
          · next hfolder =>
            exact ⟨hnul.1, hnul.2, hq, hp, by simpa using hback, by simpa using hfolder, bs,
              hfile, (Except.ok.inj h).symm⟩

/-! ## What a path holds -/

def held? (f : Files) (p : Path) : Option Octets :=
  (f.find p).toOption.join

theorem held?_eq_some : f.held? p = some bs ↔
    p.hasNul = false ∧ f.locate p = .ok p.settled ∧ f.at? p.settled = some bs := by
  unfold held? find ask
  split
  · next hnul => simp [hnul, Except.toOption]
  · next hnul =>
    rw [Bool.not_eq_true] at hnul
    split
    · next q hlocate =>
      obtain rfl := eq_settled_of_locate hlocate
      simp [hnul, hlocate, Except.toOption]
    all_goals next hlocate => simp [hlocate, Except.toOption]

theorem held?_of_hasNul (h : p.hasNul = true) : f.held? p = none := by
  rw [Option.eq_none_iff_forall_ne_some]
  intro bs hheld
  rw [(held?_eq_some.1 hheld).1] at h
  cases h

theorem held?_of_remove (h : f.remove p = .ok f') : f'.held? p = none := by
  rw [Option.eq_none_iff_forall_ne_some]
  intro bs hheld
  obtain ⟨-, hlocate', hfile⟩ := held?_eq_some.1 hheld
  rcases remove_eq_ok h with ⟨-, rfl⟩ | ⟨hlocate, rfl⟩
  · rw [at?_drop_self] at hfile
    cases hfile
  · exact hlocate hlocate'

section Beside

variable (hbeside : q.parent = p.parent) (hp : p.name ≠ "") (hq : q.name ≠ "")

include hbeside hp hq

/-- Where nothing is, nothing is after a file beside it is removed. -/
theorem held?_eq_none_of_remove (hheld : f.held? q = none) (h : f.remove p = .ok f') :
    f'.held? q = none := by
  rcases remove_eq_ok h with ⟨hlocate, rfl⟩ | ⟨-, rfl⟩
  · rw [Option.eq_none_iff_forall_ne_some] at hheld ⊢
    intro bs hheld'
    obtain ⟨hnul, hlocate', hfile⟩ := held?_eq_some.1 hheld'
    obtain ⟨htext, hlength, -⟩ := (locate_eq_ok_iff hq).1 hlocate'
    have hreach := (reaches_congr hbeside).2 ((locate_eq_ok_iff hp).1 hlocate).2.2
    refine hheld bs (held?_eq_some.2
      ⟨hnul, (locate_eq_ok_iff hq).2 ⟨htext, hlength, hreach⟩, ?_⟩)
    by_cases heq : q.settled = p.settled
    · rw [heq, at?_drop_self] at hfile
      cases hfile
    · rwa [at?_drop_other f _ _ heq] at hfile
  · exact hheld

variable (hne : q.name ≠ p.name) (hback : q.name ≠ "..")

include hne hback

/-- A file that is moved over the one beside it is there, and no longer where it was. -/
theorem held?_of_move (h : f.move q p = .ok f') :
    ∃ bs, f.held? q = some bs ∧ f'.held? p = some bs ∧ f'.held? q = none := by
  have hplaces := Path.settled_ne hbeside hq hp hne hback
  obtain ⟨hnulq, hnulp, hlocateq, hlocatep, hbackp, hfolder, bs, hfile, rfl⟩ := move_eq_ok h
  have hat : ((f.drop q.settled).put p.settled bs).at? p.settled = some bs := at?_put_self ..
  refine ⟨bs, held?_eq_some.2 ⟨hnulq, hlocateq, hfile⟩, held?_eq_some.2 ⟨hnulp, ?_, hat⟩, ?_⟩
  · obtain ⟨htext, hlength, hreach⟩ := (locate_eq_ok_iff hp).1 hlocatep
    refine (locate_eq_ok_iff hp).2 ⟨htext, hlength, Opens.reaches ?_ hreach⟩
    intro v hv hnone
    have hother : v ≠ p.settled := by
      rintro rfl
      rw [hfolder] at hv
      cases hv
    refine ⟨?_, by rw [at?_put_other _ _ _ _ hother, at?_drop_eq_none hnone]⟩
    by_cases habove : isAbove v q.settled = true
    · exact hasFolder_of_at? hat ((isAbove_settled_congr hbeside hq hp hback hbackp).1 habove)
    · exact hasFolder_put (hasFolder_drop hv (by simpa using habove))
  · rw [Option.eq_none_iff_forall_ne_some]
    intro bs' hheld
    obtain ⟨-, -, hfile'⟩ := held?_eq_some.1 hheld
    rw [at?_put_other _ _ _ _ hplaces, at?_drop_self] at hfile'
    cases hfile'

end Beside

/-! ## Files that are left alone -/

/-- Whether what a path leads to stays as it is, and can still be come to. -/
structure Spares (p : Path) (f f' : Files) : Prop where
  at?_eq : f'.at? p.settled = f.at? p.settled
  reaches : f.at? p.settled ≠ none → f.Reaches p → f'.Reaches p

namespace Spares

theorem refl (p : Path) (f : Files) : Spares p f f :=
  ⟨rfl, fun _ => id⟩

theorem trans {f'' : Files} (h : Spares p f f') (h' : Spares p f' f'') : Spares p f f'' :=
  ⟨h'.at?_eq.trans h.at?_eq, fun hfile hreach =>
    h'.reaches (by rwa [h.at?_eq]) (h.reaches hfile hreach)⟩

theorem held?_eq (h : Spares p f f') (hname : p.name ≠ "") (hlocate : f.locate p = .ok p.settled) :
    f'.held? p = f.held? p := by
  ext bs
  rw [held?_eq_some, held?_eq_some, h.at?_eq]
  obtain ⟨htext, hlength, hreach⟩ := (locate_eq_ok_iff hname).1 hlocate
  constructor
  · exact fun ⟨hnul, _, hfile⟩ => ⟨hnul, hlocate, hfile⟩
  · rintro ⟨hnul, -, hfile⟩
    have hreach' := h.reaches (by simp [hfile]) hreach
    exact ⟨hnul, (locate_eq_ok_iff hname).2 ⟨htext, hlength, hreach'⟩, hfile⟩

theorem of_grows (h : Grows f f') : Spares p f f' :=
  ⟨by rw [at?, at?, h.1], fun _ => h.opens.reaches⟩

variable (hbeside : q.parent = p.parent) (hp : p.name ≠ "") (hq : q.name ≠ "")
  (hne : q.name ≠ p.name) (hback : q.name ≠ "..")

include hbeside hp hq hne hback

theorem of_write (h : f.write q bs = .ok f') : Spares p f f' := by
  obtain ⟨rfl, hfolder⟩ := eq_put_of_write h
  exact ⟨at?_put_other _ _ _ _ (Path.settled_ne hbeside hq hp hne hback).symm,
    fun _ => (opens_put hfolder).reaches⟩

theorem of_remove (h : f.remove q = .ok f') : Spares p f f' := by
  have hplaces := Path.settled_ne hbeside hq hp hne hback
  rcases remove_eq_ok h with ⟨-, rfl⟩ | ⟨-, rfl⟩
  · have hat := at?_drop_other f _ _ hplaces.symm
    refine ⟨hat, fun hfile hreach => Opens.reaches ?_ hreach⟩
    intro v hv hnone
    refine ⟨?_, at?_drop_eq_none hnone _⟩
    by_cases habove : isAbove v q.settled = true
    · by_cases hbackp : p.name = ".."
      · -- the file is above the folder that was come to, unless only steps back lead there
        have hall := all_back_of_reaches hreach hp hbackp hfile
        obtain ⟨-, hstart⟩ := (isAbove_settled hq hback).1 habove
        simp only [hasFolder, Bool.or_eq_true, List.all_eq_true, beq_iff_eq]
        refine .inl (.inl (.inl fun x hx => hall x ?_))
        rw [← Path.base_congr hbeside]
        exact List.mem_reverse.1 (hstart.subset hx)
      · obtain ⟨bs, hbs⟩ := Option.ne_none_iff_exists'.1 hfile
        exact hasFolder_of_at? (hat.trans hbs)
          ((isAbove_settled_congr hbeside hq hp hback hbackp).1 habove)
    · exact hasFolder_drop hv (by simpa using habove)
  · exact .refl p _

end Spares

end Files

end SqlFerry
