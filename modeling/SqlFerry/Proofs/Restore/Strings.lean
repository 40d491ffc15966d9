import Mathlib.Data.List.Chain
import SqlFerry.Proofs.Restore.Comments
import SqlFerry.Proofs.Sql.Quoting

/-!
# Strings in statements

The screen takes out comments before it looks for strings, and reads every string as if a backslash
protected the next character. A text whose literal both leave alone is masked as a whole, so that
what such texts say does not change what is denied.
-/

namespace SqlFerry.Restore

open Text Pattern Sql

variable {d : Dialect} {p : Pattern} {before : Option Char} {n : Nat} {c : Char}
  {cs g u v x y rest : Chars} {gs us : List Chars} {parts : List (String × Chars)}

/-! ## Texts without comments -/

def MayAdjoin (a b : Char) : Prop :=
  ¬(a = '-' ∧ b = '-') ∧ ¬(a = '/' ∧ b = '*')

instance (a b : Char) : Decidable (MayAdjoin a b) :=
  inferInstanceAs (Decidable (_ ∧ _))

def Unmarked (x : Chars) : Prop :=
  x.IsChain MayAdjoin

instance (x : Chars) : Decidable (Unmarked x) :=
  inferInstanceAs (Decidable (List.IsChain _ _))

theorem Unmarked.opens (h : Unmarked x) :
    opensBlock x = false ∧ opensExecutable x = false ∧ opensLine x = false := by
  match x with
  | [] => exact ⟨rfl, rfl, rfl⟩
  | [c] => simp [opensBlock, opensExecutable, opensLine]
  | c :: c' :: x =>
    obtain ⟨⟨hline, hblock⟩, -⟩ := List.isChain_cons_cons.1 h
    refine ⟨?_, ?_, ?_⟩
    · rw [opensBlock_cons_cons]
      by_cases hc : c = '/'
      · have hc' : c' ≠ '*' := fun hc' => hblock ⟨hc, hc'⟩
        simp [hc']
      · simp [hc]
    · rw [Bool.eq_false_iff]
      intro hopens
      obtain ⟨y, hy⟩ := opensExecutable_iff.1 hopens
      cases hy
      exact hblock ⟨rfl, rfl⟩
    · rw [opensLine_cons]
      by_cases hc : c = '-'
      · have hc' : c' ≠ '-' := fun hc' => hline ⟨hc, hc'⟩
        simp [hc']
      · simp [hc]

theorem blanked_of_refuses (h : ∀ before u v, x = u ++ v → Refuses p before v) :
    blanked p x = x := by
  have hkeeps : blankedFrom p none 0 (x ++ []) =
      x ++ blankedFrom p (x.getLast?.or none) (0 + x.length) [] :=
    blankedFrom_keeps fun u v huv _ => h _ u (v ++ []) (by simpa using huv)
  rw [blankedFrom_nil (h _ x [] (by simp)), List.append_nil] at hkeeps
  exact hkeeps

theorem withoutComments_of_unmarked (h : Unmarked x) : withoutComments x = x := by
  have hopens (u v : Chars) (huv : x = u ++ v) :
      opensBlock v = false ∧ opensExecutable v = false ∧ opensLine v = false := by
    rw [huv] at h
    exact Unmarked.opens (List.isChain_append.1 h).2.1
  rw [withoutComments, blanked_of_refuses fun _ u v huv => refuses_blockComment (hopens u v huv).1,
    blanked_of_refuses fun _ u v huv => refuses_executableOpening (hopens u v huv).2.1,
    blanked_of_refuses fun _ u v huv => refuses_lineComment (hopens u v huv).2.2]

/-! ## Literals -/

/-- Whether every backslash protects a character behind it, and that is no quote. -/
def protectsNoQuote : Chars → Bool
  | [] => true
  | c :: cs =>
    if c == '\\' then
      match cs with
      | [] => false
      | c' :: cs => c' != '\'' && protectsNoQuote cs
    else protectsNoQuote cs

/-- Whether the literal of a text opens no comment and is a string to the screen as it is to the
database. -/
structure IsInert (d : Dialect) (v : String) : Prop where
  unmarked : Unmarked v.toList
  protectsNoQuote : d ≠ .mysql → protectsNoQuote v.toList = true

theorem exists_units_of_protectsNoQuote (h : protectsNoQuote cs = true) :
    ∃ us : List Chars, double '\'' cs = us.flatten ∧ ∀ u ∈ us, InQuotes '\'' true u := by
  fun_induction protectsNoQuote cs with
  | case1 => exact ⟨[], rfl, by simp⟩
  | case2 => cases h
  | case3 c hc c' cs ih =>
    obtain rfl := beq_iff_eq.1 hc
    rw [Bool.and_eq_true, bne_iff_ne] at h
    obtain ⟨us, hus, hunits⟩ := ih h.2
    refine ⟨['\\', c'] :: us, ?_, List.forall_mem_cons.2 ⟨.escaped c' rfl, hunits⟩⟩
    simp [double, h.1, ← hus]
  | case4 c cs hc ih =>
    obtain ⟨us, hus, hunits⟩ := ih h
    have hbackslash : c ≠ '\\' := by simpa using hc
    refine ⟨(if c = '\'' then ['\'', '\''] else [c]) :: us, ?_, List.forall_mem_cons.2 ⟨?_, hunits⟩⟩
    · rw [List.flatten_cons, ← hus]
      rfl
    · split
      · exact .doubled
      · next hquote => exact .one c hquote fun _ => hbackslash

theorem IsInert.exists_units {v : String} (h : IsInert d v) : ∃ us : List Chars,
    double '\'' (d.escape v.toList) = us.flatten ∧ ∀ u ∈ us, InQuotes '\'' true u := by
  by_cases hd : d = .mysql
  · subst hd
    rw [double_escape_mysql]
    exact ⟨v.toList.map escapedChar, List.flatMap_def ..,
      List.forall_mem_map.2 fun c _ => inQuotes_escapedChar c⟩
  · rw [Dialect.escape, if_neg hd]
    exact exists_units_of_protectsNoQuote (h.protectsNoQuote hd)

def isNeutral (c : Char) : Bool :=
  c != '-' && c != '/' && c != '*'

theorem mayAdjoin_of_isNeutral_left {a b : Char} (ha : isNeutral a = true) : MayAdjoin a b := by
  simp only [isNeutral, Bool.and_eq_true, bne_iff_ne] at ha
  exact ⟨fun h => ha.1.1 h.1, fun h => ha.1.2 h.1⟩

theorem mayAdjoin_of_isNeutral_right {a b : Char} (hb : isNeutral b = true) : MayAdjoin a b := by
  simp only [isNeutral, Bool.and_eq_true, bne_iff_ne] at hb
  exact ⟨fun h => hb.1.1 h.2, fun h => hb.2 h.2⟩

/-- Between neutral characters any text stands apart from what is around it. -/
theorem unmarked_append (hx : Unmarked x) (hy : Unmarked y)
    (h : (∀ a ∈ x.getLast?, isNeutral a = true) ∨ ∀ b ∈ y.head?, isNeutral b = true) :
    Unmarked (x ++ y) := by
  refine List.isChain_append.2 ⟨hx, hy, fun a ha b hb => ?_⟩
  rcases h with h | h
  · exact mayAdjoin_of_isNeutral_left (h a ha)
  · exact mayAdjoin_of_isNeutral_right (h b hb)

structure WritesNeutral (f : Char → Chars) : Prop where
  ne_nil : ∀ c, f c ≠ []
  writes : ∀ c, f c = [c] ∨ ∀ a ∈ f c, isNeutral a = true

theorem unmarked_flatMap {f : Char → Chars} (hf : WritesNeutral f) (h : Unmarked cs) :
    Unmarked (cs.flatMap f) := by
  induction cs with
  | nil => exact .nil
  | cons c cs ih =>
    have htail : Unmarked cs := List.IsChain.tail h
    have hhead : ∀ b ∈ (cs.flatMap f).head?, isNeutral b = true ∨ b ∈ cs.head? := by
      intro b hb
      cases cs with
      | nil => cases hb
      | cons c' cs =>
        obtain ⟨b', u, hu⟩ := List.exists_cons_of_ne_nil (hf.ne_nil c')
        rw [List.flatMap_cons, hu] at hb
        cases hb
        rcases hf.writes c' with hself | hneutral
        · rw [hself] at hu
          cases hu
          exact .inr rfl
        · exact .inl (hneutral b (by rw [hu]; exact List.mem_cons_self))
    refine List.isChain_append.2 ⟨?_, ih htail, fun a ha b hb => ?_⟩
    · rcases hf.writes c with hself | hneutral
      · rw [hself]
        exact .singleton c
      · exact (List.pairwise_of_forall_mem_list fun a ha b _ =>
          mayAdjoin_of_isNeutral_left (hneutral a ha)).isChain
    rcases hf.writes c with hself | hneutral
    · rcases hhead b hb with hb | hb
      · exact mayAdjoin_of_isNeutral_right hb
      · rw [hself, List.getLast?_singleton, Option.mem_some_iff] at ha
        subst ha
        exact (List.isChain_cons.1 h).1 b hb
    · exact mayAdjoin_of_isNeutral_left (hneutral a (List.mem_of_getLast? ha))

theorem unmarked_textLiteral {w : String} (h : Unmarked w.toList) :
    Unmarked (d.textLiteral w).toList := by
  have hbody : Unmarked (double '\'' (d.escape w.toList)) := by
    by_cases hd : d = .mysql
    · subst hd
      rw [double_escape_mysql]
      refine unmarked_flatMap ⟨fun c => ?_, fun c => ?_⟩ h
      · unfold escapedChar Dialect.escapeBackslash
        split
        · simp
        split
        · simp
        split <;> simp
      · unfold escapedChar Dialect.escapeBackslash
        split
        · exact .inr (by decide)
        split
        · exact .inr (by decide)
        split
        · exact .inr (by decide)
        · exact .inl rfl
    · rw [Dialect.escape, if_neg hd]
      refine unmarked_flatMap ⟨fun c => ?_, fun c => ?_⟩ h
      · split <;> simp
      · split
        · exact .inr (by decide)
        · exact .inl rfl
  have hquote : ∀ a ∈ some '\'', isNeutral a = true := by
    rintro a ⟨⟩
    rfl
  rw [Dialect.toList_textLiteral]
  exact unmarked_append (unmarked_append (x := ['\'']) (.singleton _) hbody (.inl hquote))
    (.singleton _) (.inr hquote)

/-! ## Strings are masked -/

theorem reads_stringLiteral (hus : ∀ u ∈ us, InQuotes '\'' true u) (h : rest.head? ≠ some '\'') :
    Reads stringLiteral before ('\'' :: us.flatten ++ ['\'']) rest [] := by
  have hunit {u : Chars} (hu : InQuotes '\'' true u) (before : Option Char) (y : Chars) :
      Reads (choice [noneOf "'\\", char '\\' ++ any, Pattern.text "''"]) before u y [] := by
    cases hu with
    | one c hc he =>
      have hbackslash := he rfl
      exact .left (.one (by simp [hc, hbackslash]))
    | doubled =>
      exact .right (.one (by simp)) (.right (.seq_left (.one (by simp)))
        (.seq (x := ['\'']) (.one rfl) (.one rfl)))
    | escaped c he =>
      exact .right (.one (by simp)) (.left (.seq (x := ['\\']) (.one rfl) (.one rfl)))
  have hbody : Reads (star (choice [noneOf "'\\", char '\\' ++ any, Pattern.text "''"]))
      (some '\'') us.flatten ('\'' :: rest) [] := by
    rw [← List.flatMap_id']
    refine .star_flatMap (fun u hu before y => hunit (hus u hu) before _) (fun u hu => ?_)
      fun before => ?_
    · have := hus u hu
      cases this <;> simp
    · refine .alt (.one (by simp)) (.alt (.seq_left (.one (by simp))) ?_)
      change Refuses (char '\'' ++ char '\'') before _
      refine .seq_one fun _ => .one fun c hc => ?_
      have hne : c ≠ '\'' := fun hcq => h (hcq ▸ hc)
      simpa using hne
  have hclose (before : Option Char) : Reads (char '\'') before ['\''] rest [] := .one rfl
  have hopen : Reads (char '\'') before ['\''] (us.flatten ++ (['\''] ++ rest)) [] := .one rfl
  exact (hopen.seq hbody).seq (hclose _)

def maskedFrom (before : Option Char) (n : Nat) (x : Chars) : Chars :=
  stringLiteral.replaceFrom (fun _ => ['\'', '\'']) ⟨before, x, n⟩

theorem maskedFrom_nil : maskedFrom before n [] = [] :=
  replaceFrom_nil (Refuses.matchAt? (.seq_left (.seq_left (.one (by simp)))) n)

theorem maskedFrom_keeps (hg : '\'' ∉ g) : maskedFrom before n (g ++ x) =
    g ++ maskedFrom (g.getLast?.or before) (n + g.length) x := by
  refine replaceFrom_keeps fun u v huv hv => .seq_left (.seq_left (.one fun c hc => ?_))
  obtain ⟨c', v, rfl⟩ := List.exists_cons_of_ne_nil hv
  cases hc
  rw [beq_eq_false_iff_ne]
  rintro rfl
  exact hg (by simp [huv])

theorem maskedFrom_string (hus : ∀ u ∈ us, InQuotes '\'' true u) (h : x.head? ≠ some '\'') :
    maskedFrom before n ('\'' :: us.flatten ++ ['\''] ++ x) =
      ['\'', '\''] ++ maskedFrom (some '\'') (n + ('\'' :: us.flatten ++ ['\'']).length) x := by
  have hread : Reads stringLiteral before ('\'' :: us.flatten ++ ['\'']) x [] :=
    reads_stringLiteral hus h
  obtain ⟨m, hm, htext, -⟩ := hread.matchAt? n
  have hlast : ('\'' :: us.flatten ++ ['\'']).getLast? = some '\'' := List.getLast?_append ..
  rw [maskedFrom, replaceFrom_append hm htext (by simp), hlast]
  rfl

/-- What masking leaves of literals with fragments behind them: literals side by side are read as
one string. -/
def skeleton : List Chars → Chars
  | [] => []
  | g :: gs => if g = [] ∧ gs ≠ [] then skeleton gs else ['\'', '\''] ++ (g ++ skeleton gs)

def filling (d : Dialect) (parts : List (String × Chars)) : Chars :=
  parts.flatMap fun p => (d.literal (.text p.1)).toList ++ p.2

theorem filling_cons (d : Dialect) (v : String) (g : Chars) (parts : List (String × Chars)) :
    filling d ((v, g) :: parts) =
      '\'' :: double '\'' (d.escape v.toList) ++ ['\''] ++ (g ++ filling d parts) := by
  rw [filling, List.flatMap_cons, ← filling, Dialect.literal, Dialect.toList_textLiteral]
  exact List.append_assoc ..

theorem head?_filling (d : Dialect) (parts : List (String × Chars)) :
    filling d parts = [] ∧ parts = [] ∨ (filling d parts).head? = some '\'' := by
  cases parts with
  | nil => exact .inl ⟨rfl, rfl⟩
  | cons p parts =>
    rw [filling_cons]
    exact .inr rfl

/-- Of a string that has been read up to a literal, and what is filled in from there, masking
leaves what the fragments tell. -/
theorem maskedFrom_filling {v : String} (hus : ∀ u ∈ us, InQuotes '\'' true u)
    (hparts : ∀ p ∈ (v, g) :: parts, IsInert d p.1 ∧ '\'' ∉ p.2) :
    maskedFrom before n ('\'' :: (us.flatten ++ double '\'' (d.escape v.toList)) ++ ['\''] ++
      (g ++ filling d parts)) = skeleton (g :: parts.map (·.2)) := by
  induction parts generalizing v g us before n with
  | nil =>
    obtain ⟨hv, hg⟩ := hparts (v, g) List.mem_cons_self
    obtain ⟨us', hdouble, hus'⟩ := hv.exists_units
    have hhead : (g ++ filling d []).head? ≠ some '\'' := fun h =>
      hg (List.mem_of_mem_head? (by simpa [filling] using h))
    rw [hdouble, ← List.flatten_append,
      maskedFrom_string (List.forall_mem_append.2 ⟨hus, hus'⟩) hhead, maskedFrom_keeps hg]
    simp [filling, maskedFrom_nil, skeleton]
  | cons p parts ih =>
    obtain ⟨v', g'⟩ := p
    obtain ⟨⟨hv, hg⟩, hrest⟩ := List.forall_mem_cons.1 hparts
    obtain ⟨us', hdouble, hus'⟩ := hv.exists_units
    have hread : ∀ u ∈ us ++ us', InQuotes '\'' true u := List.forall_mem_append.2 ⟨hus, hus'⟩
    rw [hdouble, ← List.flatten_append]
    by_cases hempty : g = []
    · -- The quotes between two literals side by side are read as one quote within a string.
      subst hempty
      have hunits : ∀ u ∈ us ++ us' ++ [['\'', '\'']], InQuotes '\'' true u :=
        List.forall_mem_append.2 ⟨hread, List.forall_mem_singleton.2 .doubled⟩
      have h := @ih before n _ _ _ hunits hrest
      rw [skeleton, if_pos ⟨rfl, by simp⟩, List.map_cons, ← h, filling_cons]
      simp
    · have hhead : (g ++ filling d ((v', g') :: parts)).head? ≠ some '\'' := by
        obtain ⟨c, g, rfl⟩ := List.exists_cons_of_ne_nil hempty
        rintro ⟨⟩
        exact hg List.mem_cons_self
      rw [maskedFrom_string hread hhead, maskedFrom_keeps hg, skeleton,
        if_neg (fun h => hempty h.1), filling_cons]
      have h := @ih (g.getLast?.or (some '\''))
        (n + ('\'' :: (us ++ us').flatten ++ ['\'']).length + g.length) _ [] _ (by simp) hrest
      rw [List.flatten_nil, List.nil_append] at h
      rw [h, List.map_cons]

def filled (d : Dialect) (first : Chars) (gs : List Chars) (vs : List String) : String :=
  String.ofList (first ++ filling d (vs.zip gs))

/-- What stands between the literals of a statement: neither quotes nor backslashes, and no mark
that opens a comment. -/
structure IsFragment (g : Chars) : Prop where
  unquoted : ∀ c ∈ g, isQuote c = false
  backslash_notMem : '\\' ∉ g
  unmarked : Unmarked g

theorem IsFragment.quote_notMem (hg : IsFragment g) : '\'' ∉ g := by
  intro hmem
  exact absurd (hg.unquoted _ hmem) (by decide)

theorem unmarked_filling (hparts : ∀ p ∈ parts, IsInert d p.1 ∧ IsFragment p.2) :
    Unmarked (filling d parts) := by
  induction parts with
  | nil => exact .nil
  | cons p parts ih =>
    obtain ⟨⟨hv, hg⟩, hparts⟩ := List.forall_mem_cons.1 hparts
    have hrest : Unmarked (p.2 ++ filling d parts) := by
      refine unmarked_append hg.unmarked (ih hparts) (.inr fun b hb => ?_)
      rcases head?_filling d parts with ⟨hnil, -⟩ | hhead
      · rw [hnil] at hb
        cases hb
      · rw [hhead] at hb
        cases hb
        rfl
    have hliteral := unmarked_textLiteral (d := d) hv.unmarked
    have hlast : (d.textLiteral p.1).toList.getLast? = some '\'' := by
      rw [Dialect.toList_textLiteral]
      exact List.getLast?_append ..
    rw [filling, List.flatMap_cons, ← filling, List.append_assoc]
    exact unmarked_append hliteral hrest (.inl fun a ha => by
      rw [Dialect.literal, hlast] at ha
      cases ha
      rfl)

theorem withoutComments_filled {first : Chars} (hfirst : IsFragment first)
    (hparts : ∀ p ∈ parts, IsInert d p.1 ∧ IsFragment p.2) :
    withoutComments (first ++ filling d parts) = first ++ filling d parts := by
  refine withoutComments_of_unmarked (unmarked_append hfirst.unmarked (unmarked_filling hparts)
    (.inr fun b hb => ?_))
  rcases head?_filling d parts with ⟨hnil, -⟩ | hhead
  · rw [hnil] at hb
    cases hb
  · rw [hhead] at hb
    cases hb
    rfl

theorem withoutStrings_filled {first : Chars} (hfirst : IsFragment first)
    (hparts : ∀ p ∈ parts, IsInert d p.1 ∧ IsFragment p.2) :
    withoutStrings (first ++ filling d parts) = first ++ skeleton (parts.map (·.2)) := by
  change maskedFrom none 0 _ = _
  rw [maskedFrom_keeps hfirst.quote_notMem]
  cases parts with
  | nil => rw [filling, List.flatMap_nil, maskedFrom_nil]; rfl
  | cons p parts =>
    have h : maskedFrom (first.getLast?.or none) (0 + first.length) ('\'' ::
        ([].flatten ++ double '\'' (d.escape p.1.toList)) ++ ['\''] ++ (p.2 ++ filling d parts)) =
          skeleton (p.2 :: parts.map (·.2)) :=
      maskedFrom_filling (by simp) fun p hp => ⟨(hparts p hp).1, (hparts p hp).2.quote_notMem⟩
    rw [List.flatten_nil, List.nil_append] at h
    rw [filling_cons, h, List.map_cons]

/-! ## What is denied -/

def deleteStart : Pattern :=
  blanks ++ word "DELETE" ++ blank

/-- Whether a statement deletes does not depend on what follows its first fragment. -/
theorem refuses_delete {first : Chars} (hfirst : deleteStart.match? first = none)
    (hx : ∀ c ∈ x.head?, c = '\'') : Refuses deletePattern none (first ++ x) := by
  refine .seq_left (.seq_left (.seq_left (.seq_left (.seq_left (.assoc
    (refuses_blanks_seq (fun _ _ _ hc => .seq_left (refuses_word_blank (by decide) hc))
      fun before => ?_))))))
  obtain ⟨g, r, rfl, hg, hr⟩ := exists_blanks_append first
  have hsolid : ∀ c ∈ (r ++ x).head?, isBlank c = false := by
    intro c hc
    cases r with
    | nil => rw [hx c hc]; rfl
    | cons c' r => exact hr c hc
  rw [List.append_assoc, trimLeft_append hg, trimLeft_eq_self hsolid]
  by_cases hopens : opensWith "DELETE".toList (r ++ x) = true
  · obtain ⟨d, z, rfl, hlength, hd⟩ := exists_of_opensWith_append hopens fun c hc => by
      rw [hx c hc]
      decide
    rw [List.append_assoc]
    refine .after (only_word hlength) (refuses_blanks1 fun c hc => ?_)
    rw [Bool.eq_false_iff]
    intro hblank
    cases z with
    | nil =>
      rw [hx c hc] at hblank
      cases hblank
    | cons c' z =>
      cases hc
      have hstart : Reads (blanks ++ word "DELETE") none (g ++ d) ([c] ++ z) [] :=
        .seq (reads_blanks hg hr) (reads_word hd hlength)
      obtain ⟨m, hm, -⟩ := (hstart.seq (Reads.one hblank)).exists_match?
      rw [List.append_assoc, List.append_assoc] at hm
      exact absurd (hfirst.symm.trans hm) (by simp)
  · exact .seq_left (refuses_word (Bool.eq_false_iff.2 hopens))

/-- What the strings of a statement say does not change whether it is denied, as long as the
statement is no deletion. -/
theorem denied_filled_eq {first : Chars} {vs ws : List String} (hfirst : IsFragment first)
    (hdelete : deleteStart.match? first = none) (hgs : ∀ g ∈ gs, IsFragment g)
    (hvs : vs.length = gs.length) (hws : ws.length = gs.length) (hv : ∀ v ∈ vs, IsInert d v)
    (hw : ∀ w ∈ ws, IsInert d w) :
    denied? (filled d first gs vs) = denied? (filled d first gs ws) := by
  have hdenied {vs : List String} (hvs : vs.length = gs.length) (hv : ∀ v ∈ vs, IsInert d v) :
      denied? (filled d first gs vs) =
        (denials.find? (·.applies (first ++ skeleton gs))).map (·.reason) := by
    have hparts : ∀ p ∈ vs.zip gs, IsInert d p.1 ∧ IsFragment p.2 := fun p hp =>
      ⟨hv p.1 (List.of_mem_zip hp).1, hgs p.2 (List.of_mem_zip hp).2⟩
    have hnone : deletePattern.match? (first ++ filling d (vs.zip gs)) = none := by
      refine (refuses_delete hdelete fun c hc => ?_).match?
      rcases head?_filling d (vs.zip gs) with ⟨hnil, -⟩ | hhead
      · rw [hnil] at hc
        cases hc
      · rw [hhead] at hc
        exact (Option.some.inj hc).symm
    rw [denied?, filled, String.toList_ofList, withoutComments_filled hfirst hparts,
      withoutStrings_filled hfirst hparts, List.map_snd_zip hvs.ge, deletion?, hnone]
    cases denials.find? _ <;> rfl
  rw [hdenied hvs hv, hdenied hws hw]

theorem isFragment_select : IsFragment "SELECT ".toList :=
  ⟨by decide, by decide, by decide⟩

theorem isFragment_of_mem_call : ∀ g ∈ [", LOAD_FILE(".toList, ")".toList], IsFragment g := by
  intro g hg
  simp only [List.mem_cons, List.not_mem_nil, or_false] at hg
  rcases hg with rfl | rfl <;> exact ⟨by decide, by decide, by decide⟩

theorem call_denied_filled :
    deleteStart.match? "SELECT ".toList = none ∧
      (∀ v ∈ ["a", "b"], IsInert .sqlite v) ∧
      (∀ w ∈ ["it's \\n", "INTO OUTFILE"], IsInert .sqlite w) ∧
      denied? (filled .sqlite "SELECT ".toList [", LOAD_FILE(".toList, ")".toList] ["a", "b"]) =
        denied? (filled .sqlite "SELECT ".toList [", LOAD_FILE(".toList, ")".toList]
          ["it's \\n", "INTO OUTFILE"]) := by
  have hdelete : deleteStart.match? "SELECT ".toList = none := rfl
  have hv : ∀ v ∈ ["a", "b"], IsInert .sqlite v := by
    intro v hv
    simp only [List.mem_cons, List.not_mem_nil, or_false] at hv
    rcases hv with rfl | rfl <;> exact ⟨by decide, fun _ => by decide +kernel⟩
  have hw : ∀ w ∈ ["it's \\n", "INTO OUTFILE"], IsInert .sqlite w := by
    intro w hw
    simp only [List.mem_cons, List.not_mem_nil, or_false] at hw
    rcases hw with rfl | rfl <;> exact ⟨by decide, fun _ => by decide +kernel⟩
  exact ⟨hdelete, hv, hw,
    denied_filled_eq isFragment_select hdelete isFragment_of_mem_call rfl rfl hv hw⟩

/-- What strings say may hide a call behind them. -/
theorem not_denied_filled_eq : ¬∀ (d : Dialect) (first : Chars) (gs : List Chars)
    (vs ws : List String), IsFragment first → deleteStart.match? first = none →
      (∀ g ∈ gs, IsFragment g) → vs.length = gs.length → ws.length = gs.length →
      denied? (filled d first gs vs) = denied? (filled d first gs ws) := by
  intro h
  have hsame := h .mysql _ _ ["/*", "*/"] ["a", "b"] isFragment_select rfl isFragment_of_mem_call
    rfl rfl
  exact absurd hsame (by decide +kernel)

end SqlFerry.Restore
