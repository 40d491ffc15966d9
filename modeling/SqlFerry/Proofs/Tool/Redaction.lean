import SqlFerry.Proofs.Pattern.Reads
import SqlFerry.Proofs.Pattern.Replace
import SqlFerry.Proofs.Text.Replace
import SqlFerry.Tool.Redaction

/-!
# What was hidden stays hidden

Secrets are replaced one after another, then the passwords of URLs and what is assigned to
passwords. A step only puts marks over parts of a text, and a mark has a bracket at either end: a
text without brackets that is no part of a mark stands beside the marks, where it stood before. So
no step brings back what an earlier one has removed.
-/

namespace SqlFerry.Tool

open Text Pattern

variable {s a b cs out old : Chars} {x : Char} {secret : String}

/-- A text that no mark can bring about, not even where it meets what is left of the text. The empty
text is a part of every mark. -/
structure IsHideable (s : Chars) : Prop where
  noOpening : '[' ∉ s
  noClosing : ']' ∉ s
  foreign : ¬s <:+: "PASSWORD_HIDDEN".toList

/-! ## Marks -/

theorem hidden_append (out : Chars) :
    hidden.toList ++ out = '[' :: ("HIDDEN".toList ++ ']' :: out) := by
  simp [hidden]

namespace IsHideable

theorem ne_nil (hs : IsHideable s) : s ≠ [] := by
  rintro rfl
  exact hs.foreign (List.nil_infix)

/-- What stands behind a mark, and nothing else of it, may begin or hold a text that can be
hidden. -/
theorem infix_of_hidden (hs : IsHideable s) (h : s <:+: hidden.toList ++ out) : s <:+: out := by
  rw [hidden_append] at h
  have hbehind := (infix_append_cons_iff (a := []) hs.noOpening).1 h
  rw [infix_append_cons_iff hs.noClosing] at hbehind
  rcases hbehind with hempty | hwords | hout
  · exact absurd (List.infix_nil.1 hempty) hs.ne_nil
  · have hpart : "HIDDEN".toList <:+: "PASSWORD_HIDDEN".toList :=
      ⟨"PASSWORD_".toList, [], by decide⟩
    exact absurd (hwords.trans hpart) hs.foreign
  · exact hout

theorem not_infix_passwordHidden (hs : IsHideable s) : ¬s <:+: passwordHidden.toList := by
  intro h
  have hmark : passwordHidden.toList = [] ++ '[' :: ("PASSWORD_HIDDEN".toList ++ ']' :: []) := by
      simp [passwordHidden]
  rw [hmark, infix_append_cons_iff hs.noOpening, infix_append_cons_iff hs.noClosing] at h
  rcases h with hempty | hwords | hempty
  · exact hs.ne_nil (List.infix_nil.1 hempty)
  · exact hs.foreign hwords
  · exact hs.ne_nil (List.infix_nil.1 hempty)

end IsHideable

/-! ## Texts with marks over some of their parts -/

/-- `out` is `cs` with marks over some of its parts. -/
inductive Covered : (cs out : Chars) → Prop where
  | nil : Covered [] []
  | keep (c : Char) {cs out : Chars} : Covered cs out → Covered (c :: cs) (c :: out)
  | cover (part : Chars) {cs out : Chars} :
    Covered cs out → Covered (part ++ cs) (hidden.toList ++ out)

namespace Covered

theorem refl (cs : Chars) : Covered cs cs := by
  induction cs with
  | nil => exact .nil
  | cons c cs ih => exact .keep c ih

theorem append {cs' out' : Chars} (h : Covered cs out) (h' : Covered cs' out') :
    Covered (cs ++ cs') (out ++ out') := by
  induction h with
  | nil => exact h'
  | keep c _ ih => exact .keep c ih
  | cover part _ ih =>
    rw [List.append_assoc, List.append_assoc]
    exact .cover part ih

/-- What a covered text begins with ends before the first mark. -/
theorem prefix_of_covered (h : Covered cs out) (hs : '[' ∉ s) (hp : s <+: out) : s <+: cs := by
  induction h generalizing s with
  | nil => exact hp
  | keep c _ ih =>
    cases s with
    | nil => exact List.nil_prefix
    | cons d s =>
      rw [List.cons_prefix_cons] at hp ⊢
      exact ⟨hp.1, ih (fun hmem => hs (List.mem_cons_of_mem d hmem)) hp.2⟩
  | cover part _ _ =>
    rw [hidden_append] at hp
    rw [List.prefix_nil.1 (prefix_of_prefix_append_cons (a := []) hs hp)]
    exact List.nil_prefix

/-- A covered text shows nothing that can be hidden and that the text did not show. -/
theorem infix_of_covered (h : Covered cs out) (hs : IsHideable s) (hi : s <:+: out) :
    s <:+: cs := by
  induction h with
  | nil => exact hi
  | keep c h ih =>
    rcases List.infix_cons_iff.1 hi with hprefix | hinfix
    · exact ((Covered.keep c h).prefix_of_covered hs.noOpening hprefix).isInfix
    · exact (ih hinfix).trans (List.suffix_cons ..).isInfix
  | cover part _ ih => exact (ih (hs.infix_of_hidden hi)).trans (List.suffix_append ..).isInfix

end Covered

/-! ## Known secrets -/

theorem covered_replace (hold : old ≠ []) (cs : Chars) :
    Covered cs (replace old hidden.toList cs) :=
  replace_induction hold .nil (fun c _ _ h => .keep c h) (fun _ h => .cover old h) cs

/-- A secret is nowhere in a text in which it was replaced. -/
theorem not_infix_replace (hs : IsHideable s) (cs : Chars) :
    ¬s <:+: replace s hidden.toList cs := by
  refine replace_induction (motive := fun _ out => ¬s <:+: out) hs.ne_nil ?nil ?keep ?take cs
  case nil => exact fun h => hs.ne_nil (List.infix_nil.1 h)
  case keep =>
    intro c cs hafter ih h
    rcases List.infix_cons_iff.1 h with hprefix | hinfix
    · have hcovered : Covered (c :: cs) (c :: replace s hidden.toList cs) :=
        .keep c (covered_replace hs.ne_nil cs)
      have hstarts := startsWith_iff.2 (hcovered.prefix_of_covered hs.noOpening hprefix)
      rw [startsWith, hafter] at hstarts
      cases hstarts
    · exact ih hinfix
  case take => exact fun cs ih h => ih (hs.infix_of_hidden h)

theorem covered_hide (secret t : String) : Covered t.toList (hide secret t).toList := by
  unfold hide
  split
  · exact .refl _
  · next hsecret =>
    rw [replaceIn, String.toList_ofList]
    exact covered_replace (by simpa using hsecret) _

theorem not_infix_hide (hs : IsHideable secret.toList) (t : String) :
    ¬secret.toList <:+: (hide secret t).toList := by
  have hsecret : secret.isEmpty = false := by simpa using hs.ne_nil
  rw [hide, hsecret, if_neg Bool.false_ne_true, replaceIn, String.toList_ofList]
  exact not_infix_replace hs _

/-! ## Passwords in URLs and assignments -/

section Replacing

variable {p a b : Pattern} {f : Match → Chars} {m : Match} {c : Cursor}

/-- Replacing matches covers a text if each match is covered by what it becomes. -/
theorem covered_replaceFrom
    (hf : ∀ c m, p.matchAt? c = some m → m.text ≠ [] ∧ Covered m.text (f m)) (c : Cursor) :
    Covered c.rest (p.replaceFrom f c) := by
  obtain ⟨before, rest, n⟩ := c
  induction hlength : rest.length using Nat.strongRecOn generalizing before rest n with
  | ind _ ih =>
    subst hlength
    cases hm : p.matchAt? ⟨before, rest, n⟩ with
    | some m =>
      obtain ⟨hne, hcovered⟩ := hf _ _ hm
      obtain ⟨hrest, -, -⟩ := spec_of_matchAt? hm
      dsimp only at hrest ⊢
      have hpos := List.length_pos_iff.2 hne
      rw [hrest] at hm ⊢
      rw [replaceFrom_append hm rfl hne]
      refine hcovered.append (ih m.rest.length ?_ _ _ _ rfl)
      rw [hrest, List.length_append]
      omega
    | none =>
      cases rest with
      | nil =>
        rw [replaceFrom_nil hm]
        exact .nil
      | cons c rest =>
        rw [replaceFrom_cons hm]
        exact .keep c (ih rest.length (by simp) _ _ _ rfl)

theorem covered_replaceAll
    (hf : ∀ c m, p.matchAt? c = some m → m.text ≠ [] ∧ Covered m.text (f m)) (cs : Chars) :
    Covered cs (p.replaceAll f cs) :=
  covered_replaceFrom hf (.atStart cs)

/-- A match is what its first group keeps and what the rest of the pattern takes, if that keeps
nothing itself. -/
theorem exists_of_matchAt?_capture (hb : ∀ r, ∀ r' ∈ b.ends r, r'.captures = r.captures)
    (h : (capture 1 a ++ b).matchAt? c = some m) :
    ∃ y, m.text = m.group 1 ++ y ∧
      (∃ r ∈ a.ends ⟨c, []⟩, r.cursor.offset = c.offset + (m.group 1).length) ∧
      ∃ r, ∃ r' ∈ b.ends r, r.cursor.rest = y ++ r'.cursor.rest := by
  rw [matchAt?, run_some] at h
  obtain ⟨r', hr', rfl⟩ := Option.map_eq_some_iff.1 h
  obtain ⟨_, hkept, hr'⟩ := List.mem_flatMap.1 (List.mem_of_mem_head? hr')
  obtain ⟨r, hr, rfl⟩ := List.mem_map.1 hkept
  obtain ⟨x, hx, hoffset, -⟩ := leads_of_mem_ends hr
  obtain ⟨y, hy, hoffset', -⟩ := leads_of_mem_ends hr'
  dsimp only at hx hoffset hy hoffset'
  have hkeeps : c.rest.take (r.cursor.offset - c.offset) = x := by simp [hx, hoffset]
  have htakes : c.rest.take (r'.cursor.offset - c.offset) = x ++ y := by
    rw [hx, hy, ← List.append_assoc]
    exact List.take_left' (by rw [List.length_append]; omega)
  have hgroup : Match.group ⟨c.offset, r'.cursor.offset, x ++ y, r'.cursor.rest, r'.captures⟩ 1 =
      x := by
    simp [Match.group, Match.group?, hb _ _ hr', hkeeps]
  rw [htakes, hgroup]
  exact ⟨y, rfl, ⟨r, hr, hoffset⟩, _, r', hr', hy⟩

end Replacing

theorem matchAt?_assoc (a b d : Pattern) : (a ++ b ++ d).matchAt? = (a ++ (b ++ d)).matchAt? := by
  funext c
  have hends : (a ++ b ++ d).ends = (a ++ (b ++ d)).ends := by
    funext r
    exact List.flatMap_assoc
  rw [matchAt?, matchAt?, run_some, run_some, hends]

theorem captures_star_one {f : Char → Bool} {r r' : Reached}
    (h : r' ∈ (star (Pattern.one f)).ends r) : r'.captures = r.captures := by
  obtain ⟨⟨before, rest, n⟩, captures⟩ := r
  obtain ⟨_, _, _, _, rfl⟩ := of_mem_ends_star_one h
  rfl

theorem of_mem_ends_one {f : Char → Bool} {r r' : Reached} (h : r' ∈ (Pattern.one f).ends r) :
    r'.captures = r.captures ∧ ∃ c, f c = true ∧ r.cursor.rest = c :: r'.cursor.rest ∧
      r'.cursor.offset = r.cursor.offset + 1 := by
  obtain ⟨⟨before, rest, n⟩, captures⟩ := r
  cases rest with
  | nil => cases h
  | cons c rest =>
    simp only [ends, List.mem_ite_nil_right, List.mem_singleton] at h
    obtain ⟨hc, rfl⟩ := h
    exact ⟨rfl, c, hc, rfl, rfl⟩

/-- Of a URL its password is covered. -/
theorem covered_userinfo (cs : Chars) :
    Covered cs (userinfo.replaceAll (fun m => m.group 1 ++ hidden.toList ++ ['@']) cs) := by
  refine covered_replaceAll ?_ cs
  intro c m h
  rw [userinfo, matchAt?_assoc] at h
  have hsilent {f g : Char → Bool} (r r' : Reached)
      (hr' : r' ∈ (star (Pattern.one f) ++ Pattern.one g).ends r) : r'.captures = r.captures := by
    obtain ⟨r₁, h₁, h₂⟩ := List.mem_flatMap.1 hr'
    rw [(of_mem_ends_one h₂).1, captures_star_one h₁]
  obtain ⟨y, htext, -, r, r', hr', hy⟩ := exists_of_matchAt?_capture hsilent h
  obtain ⟨r₁, h₁, h₂⟩ := List.mem_flatMap.1 hr'
  obtain ⟨password, hpassword, -, -⟩ := leads_of_mem_ends h₁
  obtain ⟨-, at', hat, hrest, -⟩ := of_mem_ends_one h₂
  obtain rfl : y = password ++ ['@'] := by
    refine (List.append_left_inj r'.cursor.rest).1 ?_
    rw [← hy, hpassword, hrest, beq_iff_eq.1 hat, List.append_assoc, List.singleton_append]
  refine ⟨by simp [htext], ?_⟩
  rw [htext, List.append_assoc]
  exact (Covered.refl _).append (.cover password (.refl ['@']))

/-- Of what assigns a password its value is covered. -/
theorem covered_assignment (cs : Chars) :
    Covered cs (assignment.replaceAll (fun m => m.group 1 ++ hidden.toList) cs) := by
  refine covered_replaceAll ?_ cs
  intro c m h
  obtain ⟨y, htext, ⟨r, hr, hoffset⟩, -⟩ :=
    exists_of_matchAt?_capture (fun _ _ => captures_star_one) h
  obtain ⟨r₁, h₁, hblanks⟩ := List.mem_flatMap.1 hr
  obtain ⟨r₂, h₂, hsign⟩ := List.mem_flatMap.1 h₁
  obtain ⟨_, -, hname, -⟩ := leads_of_mem_ends h₂
  obtain ⟨-, _, -, -, hequals⟩ := of_mem_ends_one hsign
  obtain ⟨_, -, hgap, -⟩ := leads_of_mem_ends hblanks
  have hne : m.group 1 ≠ [] := by
    refine List.ne_nil_of_length_pos ?_
    dsimp only at hname
    omega
  refine ⟨by simp [htext, hne], ?_⟩
  have hcovered := (Covered.refl (m.group 1)).append (.cover y .nil)
  rwa [List.append_nil, List.append_nil, ← htext] at hcovered

/-! ## Command lines and messages -/

/-- No later secret brings back what hiding the earlier ones has removed. -/
theorem infix_of_hidden_all (hs : IsHideable s) (secrets : List String) (t : String)
    (h : s <:+: (secrets.foldl (fun t secret => hide secret t) t).toList) : s <:+: t.toList := by
  induction secrets generalizing t with
  | nil => exact h
  | cons secret secrets ih => exact (covered_hide secret t).infix_of_covered hs (ih _ h)

theorem not_infix_hidden_all {secrets : List String} (hs : IsHideable secret.toList)
    (hmem : secret ∈ secrets) (t : String) :
    ¬secret.toList <:+: (secrets.foldl (fun t secret => hide secret t) t).toList := by
  induction secrets generalizing t with
  | nil => cases hmem
  | cons first secrets ih =>
    rcases List.mem_cons.1 hmem with rfl | hmem
    · exact fun h => not_infix_hide hs t (infix_of_hidden_all hs secrets _ h)
    · exact ih hmem _

theorem not_infix_redact {secrets : List String} (hs : IsHideable secret.toList)
    (hmem : secret ∈ secrets) (t : String) : ¬secret.toList <:+: (redact secrets t).toList := by
  intro h
  rw [redact, String.toList_ofList] at h
  have hurls := (covered_assignment _).infix_of_covered hs h
  exact not_infix_hidden_all hs hmem t ((covered_userinfo _).infix_of_covered hs hurls)

/-- Known secrets that no mark can bring about are in no argument of a redacted command line and
nowhere in a redacted text, however they overlap each other, the text or what the patterns for URLs
and assignments find. -/
theorem secrets_hidden {secrets : List String} (h : ∀ s ∈ secrets, IsHideable s.toList) :
    (∀ argv, ∀ arg ∈ redactArguments secrets argv, ∀ s ∈ secrets, ¬s.toList <:+: arg.toList) ∧
      ∀ t, ∀ s ∈ secrets, ¬s.toList <:+: (redact secrets t).toList := by
  have htext (t : String) : ∀ s ∈ secrets, ¬s.toList <:+: (redact secrets t).toList :=
    fun s hs => not_infix_redact (h s hs) hs t
  refine ⟨fun argv arg harg s hs => ?_, htext⟩
  obtain ⟨arg, -, rfl⟩ := List.mem_map.1 harg
  split
  · exact (h s hs).not_infix_passwordHidden
  · exact htext arg s hs

/-- One secret begins with another, which is hidden before it; the arguments hold them as a flag, in
a URL, in an assignment and by themselves. -/
theorem longer_secret_hidden :
    (∀ s ∈ ["hunter", "hunter2"], IsHideable s.toList) ∧
      redactArguments ["hunter", "hunter2"]
          ["mysql", "-phunter2", "mysql://u:hunter2@h/db", "password = hunter2", "hunterhunter2"] =
        ["mysql", "[PASSWORD_HIDDEN]", "mysql://u:[HIDDEN]@h/db", "password = [HIDDEN]",
          "[HIDDEN][HIDDEN]2"] ∧
      ∀ arg ∈ redactArguments ["hunter", "hunter2"]
          ["mysql", "-phunter2", "mysql://u:hunter2@h/db", "password = hunter2", "hunterhunter2"],
        ∀ s ∈ ["hunter", "hunter2"], ¬s.toList <:+: arg.toList := by
  have hforeign (s : Chars) (h : hasPart s "PASSWORD_HIDDEN".toList = false) :
      ¬s <:+: "PASSWORD_HIDDEN".toList := by
    rw [← hasPart_iff, h]
    exact Bool.false_ne_true
  have hhideable : ∀ s ∈ ["hunter", "hunter2"], IsHideable s.toList := by
    simp only [List.forall_mem_cons, List.not_mem_nil, false_implies, implies_true, and_true]
    exact ⟨⟨by decide, by decide, hforeign _ (by cbv)⟩, ⟨by decide, by decide, hforeign _ (by cbv)⟩⟩
  exact ⟨hhideable, by decide +kernel, (secrets_hidden hhideable).1 _⟩

end SqlFerry.Tool
