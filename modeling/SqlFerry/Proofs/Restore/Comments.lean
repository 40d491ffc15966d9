import SqlFerry.Proofs.Pattern.Replace
import SqlFerry.Proofs.Pattern.Spacing
import SqlFerry.Restore.Screen

/-!
# Comments in statements

Three passes take the comments out of a statement, with a space for each: those between marks, the
openings of those that a server executes, and those to the end of a line. Two statements that differ
only in the blanks and comments between their other characters differ only in blanks then.
-/

namespace SqlFerry.Restore

open Text Pattern

variable {p : Pattern} {before before' : Option Char} {n n' : Nat} {c : Char} {b : Bool}
  {body g g' t x y z : Chars}

/-! ## Marks -/

def opensLine : Chars → Bool
  | '-' :: '-' :: _ => true
  | _ => false

def opensExecutable : Chars → Bool
  | '/' :: '*' :: '!' :: _ => true
  | _ => false

def opensBlock : Chars → Bool
  | '/' :: '*' :: cs => cs.head? != some '!'
  | _ => false

theorem refuses_lineComment (h : opensLine x = false) : Refuses lineComment before x := by
  refine .seq_left ?_
  change Refuses (char '-' ++ char '-') before x
  cases x with
  | nil => exact .seq_left (.one (by simp))
  | cons c x =>
    refine .seq_one fun hc => .one fun c' hc' => ?_
    obtain rfl := beq_iff_eq.1 hc
    rw [beq_eq_false_iff_ne]
    rintro rfl
    obtain ⟨x, rfl⟩ := List.head?_eq_some_iff.1 hc'
    cases h

theorem reads_lineComment (hbody : '\n' ∉ body) (hx : ∀ c ∈ x.head?, c = '\n') :
    Reads lineComment before (['-', '-'] ++ body) x [] := by
  have hmark : Reads (Pattern.text "--") before ['-', '-'] (body ++ x) [] :=
    .seq (x := ['-']) (.one rfl) (.one rfl)
  refine .seq hmark (.star_one (fun c hc => ?_) fun c hc => ?_)
  · have : c ≠ '\n' := fun h => hbody (h ▸ hc)
    simpa using this
  · rw [hx c hc]
    rfl

theorem refuses_executableOpening (h : opensExecutable x = false) :
    Refuses executableOpening before x := by
  refine .seq_left ?_
  change Refuses (char '/' ++ (char '*' ++ char '!')) before x
  cases x with
  | nil => exact .seq_left (.one (by simp))
  | cons c x =>
    refine .seq_one fun hc => ?_
    obtain rfl := beq_iff_eq.1 hc
    cases x with
    | nil => exact .seq_left (.one (by simp))
    | cons c x =>
      refine .seq_one fun hc => .one fun c' hc' => ?_
      obtain rfl := beq_iff_eq.1 hc
      rw [beq_eq_false_iff_ne]
      rintro rfl
      obtain ⟨x, rfl⟩ := List.head?_eq_some_iff.1 hc'
      cases h

theorem reads_executableOpening (ht : ∀ c ∈ t, isDecimal c = true)
    (hx : ∀ c ∈ x.head?, isDecimal c = false) :
    Reads executableOpening before (['/', '*', '!'] ++ t) x [] := by
  have hmark : Reads (Pattern.text "/*!") before ['/', '*', '!'] (t ++ x) [] :=
    .seq (x := ['/']) (.one rfl) (.seq (x := ['*']) (.one rfl) (.one rfl))
  exact .seq hmark (.star_one ht hx)

theorem refuses_blockComment (h : opensBlock x = false) : Refuses blockComment before x := by
  refine .seq_left (.seq_left ?_)
  change Refuses ((char '/' ++ char '*') ++ notAhead (char '!')) before x
  cases x with
  | nil => exact .seq_left (.seq_left (.one (by simp)))
  | cons c x =>
    refine .assoc (.seq_one fun hc => ?_)
    obtain rfl := beq_iff_eq.1 hc
    cases x with
    | nil => exact .seq_left (.one (by simp))
    | cons c x =>
      refine .seq_one fun hc n captures => ?_
      obtain rfl := beq_iff_eq.1 hc
      have hx : x.head? = some '!' := by simpa [opensBlock] using h
      obtain ⟨x, rfl⟩ := List.head?_eq_some_iff.1 hx
      rfl

theorem reads_blockComment (hopen : body.head? ≠ some '!') (hbody : ¬['*', '/'] <:+: body) :
    Reads blockComment before (['/', '*'] ++ (body ++ ['*', '/'])) x [] := by
  have hmark : Reads (Pattern.text "/*" ++ notAhead (char '!')) before ['/', '*']
      (body ++ ['*', '/'] ++ x) [] := by
    refine .seq (y := []) (.seq (x := ['/']) (.one rfl) (.one rfl)) (.notAhead (.one ?_))
    cases body with
    | nil => simp
    | cons c body => simpa using hopen
  have hclose : Reads (few any ++ Pattern.text "*/") (some '*') (body ++ ['*', '/']) x [] := by
    refine .few_seq (fun _ _ => rfl) (fun u v huv hv => ?_)
      (.seq (x := ['*']) (.one rfl) (.one rfl))
    change Refuses (char '*' ++ char '/') _ _
    obtain ⟨c, v, rfl⟩ := List.exists_cons_of_ne_nil hv
    refine .seq_one fun hc => .one fun c' hc' => ?_
    obtain rfl := beq_iff_eq.1 hc
    rw [beq_eq_false_iff_ne]
    rintro rfl
    cases v with
    | nil => cases hc'
    | cons c' v =>
      cases hc'
      exact hbody ⟨u, v, by simp [huv]⟩
  exact .assoc (.seq hmark hclose)

/-! ## A pass -/

variable (p before n x) in
def blankedFrom : Chars :=
  p.replaceFrom (fun _ => [' ']) ⟨before, x, n⟩

theorem blankedFrom_nil (h : Refuses p before []) : blankedFrom p before n [] = [] :=
  replaceFrom_nil (h.matchAt? n)

theorem blankedFrom_cons (h : Refuses p before (c :: x)) :
    blankedFrom p before n (c :: x) = c :: blankedFrom p (some c) (n + 1) x :=
  replaceFrom_cons (h.matchAt? n)

theorem blankedFrom_append {gs : List (Nat × Chars)} (h : Reads p before t x gs) (ht : t ≠ []) :
    blankedFrom p before n (t ++ x) = ' ' :: blankedFrom p t.getLast? (n + t.length) x := by
  obtain ⟨m, hm, htext, -⟩ := h.matchAt? n
  exact replaceFrom_append hm htext ht

/-- What a pass takes nothing out of stays. -/
theorem blankedFrom_keeps
    (h : ∀ u v, t = u ++ v → v ≠ [] → Refuses p (u.getLast?.or before) (v ++ x)) :
    blankedFrom p before n (t ++ x) =
      t ++ blankedFrom p (t.getLast?.or before) (n + t.length) x :=
  replaceFrom_keeps h

def Leaves (p : Pattern) (Kept : Chars → Prop) (g : Chars) : Prop :=
  ∀ before n x, ∃ g' before' n', Kept g' ∧
    blankedFrom p before n (g ++ x) = g' ++ blankedFrom p before' n' x

theorem Leaves.append {Kept : Chars → Prop} (h : ∀ g g', Kept g → Kept g' → Kept (g ++ g'))
    (hg : Leaves p Kept g) (hg' : Leaves p Kept g') : Leaves p Kept (g ++ g') := by
  intro before n x
  obtain ⟨g₁, before₁, n₁, hg₁, h₁⟩ := hg before n (g' ++ x)
  obtain ⟨g₂, before₂, n₂, hg₂, h₂⟩ := hg' before₁ n₁ x
  refine ⟨g₁ ++ g₂, before₂, n₂, h g₁ g₂ hg₁ hg₂, ?_⟩
  rw [List.append_assoc, h₁, h₂, List.append_assoc]

theorem Leaves.char {Kept : Chars → Prop} (hc : Kept [c])
    (h : ∀ before x, Refuses p before (c :: x)) : Leaves p Kept [c] :=
  fun before n x => ⟨[c], some c, n + 1, hc, blankedFrom_cons (h before x)⟩

/-- A pass puts nothing but spaces at the beginning of a text. -/
theorem head?_of_blankedFrom (h : (blankedFrom p before n x).head? = some c) (hc : c ≠ ' ') :
    x.head? = some c := by
  rw [blankedFrom, replaceFrom] at h
  generalize collect p _ _ = ms at h
  cases ms with
  | nil => exact h
  | cons m ms =>
    dsimp only [spliceFrom] at h
    generalize m.start - n = k at h
    cases k with
    | zero => exact absurd (Option.some.inj h).symm hc
    | succ k =>
      cases x with
      | nil => exact absurd (Option.some.inj h).symm hc
      | cons c' x => exact h

theorem opensLine_cons : opensLine (c :: x) = (c == '-' && x.head? == some '-') := by
  cases x with
  | nil => simp [opensLine]
  | cons c' x =>
    by_cases hc : c = '-'
    · by_cases hc' : c' = '-' <;> simp [opensLine, hc, hc']
    · simp [opensLine, hc]

theorem opensLine_cons_blankedFrom (h : opensLine (c :: x) = false) :
    opensLine (c :: blankedFrom p before n x) = false := by
  rw [Bool.eq_false_iff]
  intro hopens
  rw [opensLine_cons, Bool.and_eq_true, beq_iff_eq, beq_iff_eq] at hopens
  rw [opensLine_cons, hopens.1, head?_of_blankedFrom hopens.2 (by decide)] at h
  cases h

/-! ## Statements that differ in blanks and comments -/

/-- What may stand in a comment to the end of the line. Where comments between marks are still
there, none may open in it. -/
structure IsLine (blocks : Bool) (body : Chars) : Prop where
  feed_notMem : '\n' ∉ body
  unopened : blocks = true → ∀ v, v <:+ body → opensBlock v = false

inductive IsSpacing (blocks : Bool) : Chars → Prop
  | blank {c : Char} (hc : isBlank c = true) : IsSpacing blocks [c]
  | block {body : Chars} (hblocks : blocks = true) (hopen : body.head? ≠ some '!')
      (hbody : ¬['*', '/'] <:+: body) : IsSpacing blocks (['/', '*'] ++ (body ++ ['*', '/']))
  | line {body : Chars} (hbody : IsLine blocks body) :
      IsSpacing blocks (['-', '-'] ++ (body ++ ['\n']))
  | append {g g' : Chars} (hg : IsSpacing blocks g) (hg' : IsSpacing blocks g') :
      IsSpacing blocks (g ++ g')

/-- The statements have no quotes outside their comments and differ only in the blanks and comments
between their other characters. -/
inductive Respaced (blocks : Bool) : Chars → Chars → Prop
  | nil : Respaced blocks [] []
  | line {x y : Chars} (hx : IsLine blocks x) (hy : IsLine blocks y) :
      Respaced blocks (['-', '-'] ++ x) (['-', '-'] ++ y)
  | solid {c : Char} {x y : Chars} (hc : isBlank c = false) (hquote : isQuote c = false)
      (hx : opensLine (c :: x) = false ∧ (blocks = true → opensBlock (c :: x) = false))
      (hy : opensLine (c :: y) = false ∧ (blocks = true → opensBlock (c :: y) = false))
      (h : Respaced blocks x y) : Respaced blocks (c :: x) (c :: y)
  | spacing {g g' x y : Chars} (hg : IsSpacing blocks g) (hg' : IsSpacing blocks g')
      (h : Respaced blocks x y) : Respaced blocks (g ++ x) (g' ++ y)

theorem Respaced.symm (h : Respaced b x y) : Respaced b y x := by
  induction h with
  | nil => exact .nil
  | line hx hy => exact .line hy hx
  | solid hc hquote hx hy _ ih => exact .solid hc hquote hy hx ih
  | spacing hg hg' _ ih => exact .spacing hg' hg ih

def isPlain (c : Char) : Bool :=
  !(isBlank c || isQuote c || c == '-' || c == '/')

theorem Respaced.plain (ht : ∀ c ∈ t, isPlain c = true) (h : Respaced b x y) :
    Respaced b (t ++ x) (t ++ y) := by
  induction t with
  | nil => exact h
  | cons c t ih =>
    obtain ⟨hc, ht⟩ := List.forall_mem_cons.1 ht
    simp only [isPlain, Bool.not_eq_true', Bool.or_eq_false_iff, beq_eq_false_iff_ne] at hc
    obtain ⟨⟨⟨hblank, hquote⟩, hdash⟩, hslash⟩ := hc
    exact .solid hblank hquote (by simp [opensLine, opensBlock, hdash, hslash])
      (by simp [opensLine, opensBlock, hdash, hslash]) (ih ht)

/-! ## The first pass -/

theorem opensBlock_cons_cons {c' : Char} :
    opensBlock (c :: c' :: x) = (c == '/' && c' == '*' && x.head? != some '!') := by
  by_cases hc : c = '/'
  · by_cases hc' : c' = '*' <;> simp [opensBlock, hc, hc']
  · simp [opensBlock, hc]

theorem opensBlock_append (hx : ∀ c ∈ x.head?, c = '\n') : opensBlock (t ++ x) = opensBlock t := by
  match t, x with
  | [], [] | [_], [] => rfl
  | [], c :: x =>
    obtain rfl := hx c rfl
    rfl
  | [c'], c :: x =>
    obtain rfl := hx c rfl
    simp [opensBlock]
  | c :: c' :: t, x =>
    have hhead : ((t ++ x).head? != some '!') = (t.head? != some '!') := by
      cases t with
      | cons c t => rfl
      | nil =>
        cases x with
        | nil => rfl
        | cons c x =>
          obtain rfl := hx c rfl
          rfl
    rw [List.cons_append, List.cons_append, opensBlock_cons_cons, opensBlock_cons_cons, hhead]

theorem opensBlock_of_isBlank (hc : isBlank c = true) : opensBlock (c :: x) = false := by
  have : c ≠ '/' := by
    rintro rfl
    cases hc
  simp [opensBlock, this]

/-- No comment between marks opens in one to the end of the line. -/
theorem IsLine.opensBlock_append (hbody : IsLine true body) (hx : ∀ c ∈ x.head?, c = '\n')
    {u v : Chars} (huv : ['-', '-'] ++ body = u ++ v) : opensBlock (v ++ x) = false := by
  rw [Restore.opensBlock_append hx]
  have hsuffix : v <:+ '-' :: '-' :: body := ⟨u, huv.symm⟩
  rw [List.suffix_cons_iff, List.suffix_cons_iff] at hsuffix
  rcases hsuffix with rfl | rfl | hsuffix
  · rfl
  · rfl
  · exact hbody.unopened rfl v hsuffix

theorem IsLine.blankedFrom_block (hbody : IsLine true body) (hx : ∀ c ∈ x.head?, c = '\n') :
    blankedFrom blockComment before n (['-', '-'] ++ body ++ x) = ['-', '-'] ++ body ++
      blankedFrom blockComment ((['-', '-'] ++ body).getLast?.or before)
        (n + (['-', '-'] ++ body).length) x :=
  blankedFrom_keeps fun _ _ huv _ => refuses_blockComment (hbody.opensBlock_append hx huv)

theorem IsSpacing.leaves_block (hg : IsSpacing true g) :
    Leaves blockComment (IsSpacing false) g := by
  induction hg with
  | blank hc => exact .char (.blank hc) fun _ _ => refuses_blockComment (opensBlock_of_isBlank hc)
  | block _ hopen hbody =>
    exact fun before n x => ⟨[' '], _, _, .blank rfl,
      blankedFrom_append (reads_blockComment hopen hbody) (List.cons_ne_nil _ _)⟩
  | @line body hbody =>
    intro before n x
    refine ⟨['-', '-'] ++ (body ++ ['\n']), some '\n', n + (['-', '-'] ++ body).length + 1,
      .line ⟨hbody.feed_notMem, by simp⟩, ?_⟩
    have hfollow : ∀ c ∈ ('\n' :: x).head?, c = '\n' := by simp
    have hline := @IsLine.blankedFrom_block before n _ _ hbody hfollow
    have hfeed : Refuses blockComment ((['-', '-'] ++ body).getLast?.or before) ('\n' :: x) :=
      refuses_blockComment rfl
    rw [blankedFrom_cons hfeed] at hline
    simpa using hline
  | append _ _ ih ih' => exact ih.append (fun _ _ => .append) ih'

theorem Respaced.blankedFrom_block (h : Respaced true x y) : Respaced false
    (blankedFrom blockComment before n x) (blankedFrom blockComment before' n' y) := by
  induction h generalizing before before' n n' with
  | nil =>
    rw [blankedFrom_nil (refuses_blockComment rfl), blankedFrom_nil (refuses_blockComment rfl)]
    exact .nil
  | line hx hy =>
    have keeps {x : Chars} {before : Option Char} {n : Nat} (hx : IsLine true x) :
        blankedFrom blockComment before n (['-', '-'] ++ x) = ['-', '-'] ++ x := by
      have hfollow : ∀ c ∈ ([] : Chars).head?, c = '\n' := by simp
      have hline := @IsLine.blankedFrom_block before n _ _ hx hfollow
      rwa [blankedFrom_nil (refuses_blockComment rfl), List.append_nil] at hline
    rw [keeps hx, keeps hy]
    exact .line ⟨hx.feed_notMem, by simp⟩ ⟨hy.feed_notMem, by simp⟩
  | solid hc hquote hx hy _ ih =>
    rw [blankedFrom_cons (refuses_blockComment (hx.2 rfl)),
      blankedFrom_cons (refuses_blockComment (hy.2 rfl))]
    exact .solid hc hquote ⟨opensLine_cons_blankedFrom hx.1, by simp⟩
      ⟨opensLine_cons_blankedFrom hy.1, by simp⟩ ih
  | spacing hg hg' _ ih =>
    obtain ⟨g₁, before₁, n₁, hg₁, h₁⟩ := hg.leaves_block before n _
    obtain ⟨g₂, before₂, n₂, hg₂, h₂⟩ := hg'.leaves_block before' n' _
    rw [h₁, h₂]
    exact .spacing hg₁ hg₂ ih

/-! ## The second pass -/

theorem opensExecutable_of_ne (hc : c ≠ '/') : opensExecutable (c :: x) = false := by
  simp [opensExecutable, hc]

theorem opensExecutable_iff : opensExecutable x = true ↔ ∃ y, x = ['/', '*', '!'] ++ y := by
  constructor
  · intro h
    unfold opensExecutable at h
    split at h
    · exact ⟨_, rfl⟩
    · cases h
  · rintro ⟨y, rfl⟩
    rfl

/-- The opening of a comment that a server executes goes on over digits. -/
theorem blankedFrom_executable (before : Option Char) (n : Nat) (x : Chars) : ∃ before' n',
    blankedFrom executableOpening before n (['/', '*', '!'] ++ x) =
      ' ' :: blankedFrom executableOpening before' n' (x.dropWhile isDecimal) := by
  have hread : Reads executableOpening before (['/', '*', '!'] ++ x.takeWhile isDecimal)
      (x.dropWhile isDecimal) [] := by
    refine reads_executableOpening (fun c hc => List.mem_takeWhile_imp hc) fun c hc => ?_
    have hnot := List.head?_dropWhile_not isDecimal x
    rw [hc] at hnot
    exact hnot
  have h := blankedFrom_append (n := n) hread (List.cons_ne_nil _ _)
  rw [List.append_assoc, List.takeWhile_append_dropWhile] at h
  exact ⟨_, _, h⟩

theorem dropWhile_append_of_head {f : Char → Bool} (hx : ∀ c ∈ x.head?, f c = false) :
    (t ++ x).dropWhile f = t.dropWhile f ++ x := by
  have hself : x.dropWhile f = x := by
    cases x with
    | nil => rfl
    | cons c x => exact List.dropWhile_cons_of_neg (by simp [hx c rfl])
  rw [List.dropWhile_append]
  split
  · next h => rw [List.isEmpty_iff.1 h, hself, List.nil_append]
  · rfl

/-- What the second pass leaves of a comment to the end of the line is one, too. -/
theorem exists_blankedFrom_executable (hbody : '\n' ∉ body) (hx : ∀ c ∈ x.head?, c = '\n')
    (before : Option Char) (n : Nat) : ∃ body' before' n', '\n' ∉ body' ∧
      blankedFrom executableOpening before n (body ++ x) =
        body' ++ blankedFrom executableOpening before' n' x := by
  induction hk : body.length using Nat.strongRecOn generalizing body before n with
  | ind k ih =>
    subst hk
    by_cases hopens : opensExecutable (body ++ x) = true
    · obtain ⟨y, hy⟩ := opensExecutable_iff.1 hopens
      obtain ⟨t, rfl, rfl⟩ : ∃ t, body = ['/', '*', '!'] ++ t ∧ y = t ++ x := by
        rcases List.append_eq_append_iff.1 hy with ⟨t, hmark, rfl⟩ | h
        · cases t with
          | nil => exact ⟨[], by rw [hmark, List.append_nil, List.append_nil], rfl⟩
          | cons c t =>
            have hc : c ∈ ['/', '*', '!'] := by simp [hmark]
            rw [hx c rfl] at hc
            exact absurd hc (by decide)
        · exact h
      obtain ⟨before₁, n₁, h₁⟩ := blankedFrom_executable before n (t ++ x)
      have hdecimal : ∀ c ∈ x.head?, isDecimal c = false := fun c hc => hx c hc ▸ rfl
      have hlength := (List.dropWhile_sublist isDecimal (l := t)).length_le
      obtain ⟨body', before', n', hbody', h'⟩ := ih (t.dropWhile isDecimal).length
        (by simp only [List.length_append, List.length_cons]; omega)
        (fun h => hbody (List.mem_append_right _ (List.dropWhile_subset _ h))) before₁ n₁ rfl
      refine ⟨' ' :: body', before', n', by simpa using hbody', ?_⟩
      rw [List.append_assoc, h₁, dropWhile_append_of_head hdecimal, h', List.cons_append]
    · cases body with
      | nil => exact ⟨[], before, n, List.not_mem_nil, rfl⟩
      | cons c body =>
        rw [List.mem_cons, not_or] at hbody
        obtain ⟨body', before', n', hbody', h'⟩ :=
          ih body.length (Nat.lt_succ_self _) hbody.2 (some c) (n + 1) rfl
        refine ⟨c :: body', before', n', by simpa using ⟨hbody.1, hbody'⟩, ?_⟩
        rw [List.cons_append] at hopens ⊢
        rw [blankedFrom_cons (refuses_executableOpening (Bool.eq_false_iff.2 hopens)), h',
          List.cons_append]

theorem IsLine.exists_blankedFrom_executable (hbody : IsLine false body)
    (hx : ∀ c ∈ x.head?, c = '\n') (before : Option Char) (n : Nat) :
    ∃ body' before' n', IsLine false body' ∧
      blankedFrom executableOpening before n (['-', '-'] ++ body ++ x) =
        ['-', '-'] ++ body' ++ blankedFrom executableOpening before' n' x := by
  have hfeed : '\n' ∉ ['-', '-'] ++ body := by simpa using hbody.feed_notMem
  obtain ⟨body', before', n', hbody', h⟩ :=
    Restore.exists_blankedFrom_executable hbody.feed_notMem hx (some '-') (n + 1 + 1)
  refine ⟨body', before', n', ⟨hbody', by simp⟩, ?_⟩
  have hmark (before : Option Char) (x : Chars) :
      Refuses executableOpening before ('-' :: x) :=
    refuses_executableOpening (opensExecutable_of_ne (by decide))
  simp only [List.cons_append, List.nil_append]
  rw [blankedFrom_cons (hmark _ _), blankedFrom_cons (hmark _ _), h]

theorem IsSpacing.leaves_executable (hg : IsSpacing false g) :
    Leaves executableOpening (IsSpacing false) g := by
  induction hg with
  | @blank c hc =>
    have hne : c ≠ '/' := by
      rintro rfl
      cases hc
    exact .char (.blank hc) fun _ _ => refuses_executableOpening (opensExecutable_of_ne hne)
  | block hblocks => cases hblocks
  | @line body hbody =>
    intro before n x
    obtain ⟨body', before', n', hbody', h⟩ :=
      hbody.exists_blankedFrom_executable (x := '\n' :: x) (by simp) before n
    rw [blankedFrom_cons (refuses_executableOpening rfl)] at h
    exact ⟨['-', '-'] ++ (body' ++ ['\n']), some '\n', n' + 1, .line hbody', by simpa using h⟩
  | append _ _ ih ih' => exact ih.append (fun _ _ => .append) ih'

theorem IsSpacing.exists_cons (hg : IsSpacing false g) :
    ∃ c g', g = c :: g' ∧ (isBlank c = true ∨ c = '-') := by
  induction hg with
  | blank hc => exact ⟨_, [], rfl, .inl hc⟩
  | block hblocks => cases hblocks
  | line => exact ⟨'-', _, rfl, .inr rfl⟩
  | append _ _ ih =>
    obtain ⟨c, g, rfl, hc⟩ := ih
    exact ⟨c, g ++ _, rfl, hc⟩

/-- What corresponds to a text that begins with neither a blank nor the mark of a comment. -/
theorem Respaced.of_cons (h : Respaced false (c :: x) z) (hc : isBlank c = false) (hne : c ≠ '-') :
    ∃ y, z = c :: y ∧ Respaced false x y := by
  generalize hw : c :: x = w at h
  cases h with
  | nil => cases hw
  | line =>
    cases hw
    exact absurd rfl hne
  | solid _ _ _ _ h =>
    cases hw
    exact ⟨_, rfl, h⟩
  | spacing hg =>
    obtain ⟨c', g, rfl, hc'⟩ := hg.exists_cons
    cases hw
    rcases hc' with hc' | rfl
    · rw [hc'] at hc
      cases hc
    · exact absurd rfl hne

theorem Respaced.of_executable (h : Respaced false (['/', '*', '!'] ++ x) z) :
    ∃ y, z = ['/', '*', '!'] ++ y ∧ Respaced false x y := by
  obtain ⟨y₁, rfl, h₁⟩ := h.of_cons rfl (by decide)
  obtain ⟨y₂, rfl, h₂⟩ := h₁.of_cons rfl (by decide)
  obtain ⟨y₃, rfl, h₃⟩ := h₂.of_cons rfl (by decide)
  exact ⟨y₃, rfl, h₃⟩

theorem Respaced.opensExecutable_eq (h : Respaced false x y) :
    opensExecutable x = opensExecutable y := by
  rw [Bool.eq_iff_iff, opensExecutable_iff, opensExecutable_iff]
  constructor
  · rintro ⟨x, rfl⟩
    obtain ⟨y, rfl, -⟩ := h.of_executable
    exact ⟨y, rfl⟩
  · rintro ⟨y, rfl⟩
    obtain ⟨x, rfl, -⟩ := h.symm.of_executable
    exact ⟨x, rfl⟩

theorem Respaced.dropWhile_isDecimal (h : Respaced false x y) :
    Respaced false (x.dropWhile isDecimal) (y.dropWhile isDecimal) := by
  induction h with
  | nil => exact .nil
  | line hx hy => exact .line hx hy
  | @solid c x y hc hquote hx hy h ih =>
    by_cases hdecimal : isDecimal c = true
    · rwa [List.dropWhile_cons_of_pos hdecimal, List.dropWhile_cons_of_pos hdecimal]
    · rw [List.dropWhile_cons_of_neg hdecimal, List.dropWhile_cons_of_neg hdecimal]
      exact .solid hc hquote hx hy h
  | spacing hg hg' h _ =>
    have keeps {g : Chars} (hg : IsSpacing false g) (x : Chars) :
        (g ++ x).dropWhile isDecimal = g ++ x := by
      obtain ⟨c, g, rfl, hc⟩ := hg.exists_cons
      refine List.dropWhile_cons_of_neg ?_
      rcases hc with hc | rfl
      · simp [isDecimal_of_isBlank hc]
      · decide
    rw [keeps hg, keeps hg']
    exact .spacing hg hg' h

theorem Respaced.blankedFrom_executable (h : Respaced false x y) : Respaced false
    (blankedFrom executableOpening before n x) (blankedFrom executableOpening before' n' y) := by
  -- By the length, since an opening with its version number is several characters.
  induction hk : x.length using Nat.strongRecOn generalizing x y before before' n n' with
  | ind k ih =>
    subst hk
    by_cases hopens : opensExecutable x = true
    · obtain ⟨x, rfl⟩ := opensExecutable_iff.1 hopens
      obtain ⟨y, rfl, hxy⟩ := h.of_executable
      obtain ⟨before₁, n₁, h₁⟩ := Restore.blankedFrom_executable before n x
      obtain ⟨before₂, n₂, h₂⟩ := Restore.blankedFrom_executable before' n' y
      have hlength := (List.dropWhile_sublist isDecimal (l := x)).length_le
      rw [h₁, h₂]
      refine .spacing (.blank (c := ' ') rfl) (.blank rfl) (ih _ ?_ hxy.dropWhile_isDecimal rfl)
      simp only [List.length_append, List.length_cons]
      omega
    cases h with
    | nil =>
      rw [blankedFrom_nil (refuses_executableOpening rfl),
        blankedFrom_nil (refuses_executableOpening rfl)]
      exact .nil
    | line hx hy =>
      obtain ⟨x', before₁, n₁, hx', h₁⟩ :=
        hx.exists_blankedFrom_executable (x := []) (by simp) before n
      obtain ⟨y', before₂, n₂, hy', h₂⟩ :=
        hy.exists_blankedFrom_executable (x := []) (by simp) before' n'
      rw [blankedFrom_nil (refuses_executableOpening rfl), List.append_nil, List.append_nil]
        at h₁ h₂
      rw [h₁, h₂]
      exact .line hx' hy'
    | solid hc hquote hx hy h =>
      have hopens := Bool.eq_false_iff.2 hopens
      have hopens' := (Respaced.solid hc hquote hx hy h).opensExecutable_eq.symm.trans hopens
      rw [blankedFrom_cons (refuses_executableOpening hopens),
        blankedFrom_cons (refuses_executableOpening hopens')]
      exact .solid hc hquote ⟨opensLine_cons_blankedFrom hx.1, by simp⟩
        ⟨opensLine_cons_blankedFrom hy.1, by simp⟩ (ih _ (Nat.lt_succ_self _) h rfl)
    | @spacing g g' x y hg hg' h =>
      obtain ⟨g₁, before₁, n₁, hg₁, h₁⟩ := hg.leaves_executable before n x
      obtain ⟨g₂, before₂, n₂, hg₂, h₂⟩ := hg'.leaves_executable before' n' y
      obtain ⟨c, g, rfl, -⟩ := hg.exists_cons
      rw [h₁, h₂]
      refine .spacing hg₁ hg₂ (ih x.length ?_ h rfl)
      simp only [List.length_append, List.length_cons]
      omega

/-! ## The third pass -/

theorem opensLine_of_isBlank (hc : isBlank c = true) : opensLine (c :: x) = false := by
  have hne : c ≠ '-' := by
    rintro rfl
    cases hc
  simp [opensLine, hne]

theorem IsSpacing.leaves_line (hg : IsSpacing false g) : Leaves lineComment IsBlanks g := by
  induction hg with
  | blank hc =>
    exact .char (.singleton hc) fun _ _ => refuses_lineComment (opensLine_of_isBlank hc)
  | block hblocks => cases hblocks
  | @line body hbody =>
    intro before n x
    have hread : Reads lineComment before (['-', '-'] ++ body) ('\n' :: x) [] :=
      reads_lineComment hbody.feed_notMem (by simp)
    have h := blankedFrom_append (n := n) hread (List.cons_ne_nil _ _)
    rw [blankedFrom_cons (refuses_lineComment rfl)] at h
    exact ⟨[' ', '\n'], _, _, ⟨List.cons_ne_nil _ _, by decide⟩, by simpa using h⟩
  | append _ _ ih ih' => exact ih.append (fun _ _ => .append) ih'

theorem Respaced.blankedFrom_line (h : Respaced false x y) :
    Reflowed (blankedFrom lineComment before n x) (blankedFrom lineComment before' n' y) ∧
      ∀ c ∈ blankedFrom lineComment before n x, isQuote c = false := by
  have unquoted {g : Chars} (hg : IsBlanks g) : ∀ c ∈ g, isQuote c = false := by
    intro c hc
    rw [Bool.eq_false_iff]
    intro hquote
    exact hg.notMem (isBlank_of_isQuote hquote) hc
  induction h generalizing before before' n n' with
  | nil =>
    rw [blankedFrom_nil (refuses_lineComment rfl), blankedFrom_nil (refuses_lineComment rfl)]
    exact ⟨.nil, by simp⟩
  | line hx hy =>
    have space {x : Chars} {before : Option Char} {n : Nat} (hx : IsLine false x) :
        blankedFrom lineComment before n (['-', '-'] ++ x) = [' '] := by
      have hread : Reads lineComment before (['-', '-'] ++ x) [] [] :=
        reads_lineComment hx.feed_notMem (by simp)
      have h := blankedFrom_append (n := n) hread (List.cons_ne_nil _ _)
      rwa [List.append_nil, blankedFrom_nil (refuses_lineComment rfl)] at h
    rw [space hx, space hy]
    exact ⟨.refl _, by decide⟩
  | @solid c x y hc hquote hx hy _ ih =>
    rw [blankedFrom_cons (refuses_lineComment hx.1), blankedFrom_cons (refuses_lineComment hy.1)]
    obtain ⟨hreflowed, hunquoted⟩ := @ih (some c) (some c) (n + 1) (n' + 1)
    exact ⟨.solid hc hreflowed, List.forall_mem_cons.2 ⟨hquote, hunquoted⟩⟩
  | spacing hg hg' _ ih =>
    obtain ⟨g₁, before₁, n₁, hg₁, h₁⟩ := hg.leaves_line before n _
    obtain ⟨g₂, before₂, n₂, hg₂, h₂⟩ := hg'.leaves_line before' n' _
    rw [h₁, h₂]
    obtain ⟨hreflowed, hunquoted⟩ := @ih before₁ before₂ n₁ n₂
    exact ⟨.gap hg₁ hg₂ hreflowed, List.forall_mem_append.2 ⟨unquoted hg₁, hunquoted⟩⟩

/-- Without their comments, statements that differ in blanks and comments differ in blanks. -/
theorem Respaced.withoutComments (h : Respaced true x y) :
    Reflowed (withoutComments x) (withoutComments y) ∧
      ∀ c ∈ Restore.withoutComments x, isQuote c = false :=
  h.blankedFrom_block.blankedFrom_executable.blankedFrom_line

end SqlFerry.Restore
