import SqlFerry.Proofs.Pattern.Split
import SqlFerry.Proofs.Restore.Strings
import SqlFerry.Proofs.Restore.Tautology

/-!
# Screening deletions

The condition of a deletion is read with its strings. A deletion of the rows where a column has a
text is refused exactly if two words `OR` of the text enclose what looks like a condition that holds
for every row.
-/

namespace SqlFerry.Restore

open Text Pattern Sql

variable {d : Dialect} {v : String} {before : Option Char} {c : Char} {t w x y z rest : Chars}

/-! ## The condition -/

def disjunction : Pattern :=
  wholeWord "OR"

def holdsAlways (part : Chars) : Bool :=
  (tautology.match? (trim part)).isSome

/-- Whether a part of the literal between two words `OR` is taken for a condition that holds for
every row. -/
def misleads (d : Dialect) (v : String) : Bool :=
  (disjunction.split (oneLine (d.literal (.text v))).toList).tail.dropLast.any holdsAlways

theorem beginsSolid_quote (x : Chars) : BeginsSolid ('\'' :: x) :=
  beginsSolid_cons.2 rfl

theorem toList_literal (d : Dialect) (v : String) :
    (d.literal (.text v)).toList = '\'' :: double '\'' (d.escape v.toList) ++ ['\''] :=
  Dialect.toList_textLiteral ..

theorem reflowed_literal (d : Dialect) (v : String) :
    Reflowed (d.literal (.text v)).toList (oneLine (d.literal (.text v))).toList := by
  have h : Reflowed (d.literal (.text v)).toList
      (oneLine (String.ofList (d.literal (.text v)).toList)).toList := by
    refine .oneLine ?_ ?_
    · rw [toList_literal]
      exact beginsSolid_quote _
    · rw [toList_literal, List.reverse_append]
      exact beginsSolid_quote _
  rwa [String.ofList_toList] at h

theorem exists_oneLine_literal (d : Dialect) (v : String) :
    ∃ z, (oneLine (d.literal (.text v))).toList = '\'' :: z := by
  have h := reflowed_literal d v
  rw [toList_literal, List.cons_append] at h
  obtain ⟨z, hz, -⟩ := h.of_cons rfl
  exact ⟨z, hz⟩

/-- A column and the literal that it is compared with, without line breaks. -/
theorem toList_oneLine_equation (hw : IsWordText w) (d : Dialect) (v : String) :
    (oneLine (String.ofList (w ++ (" = ".toList ++ (d.literal (.text v)).toList)))).toList =
      w ++ (" = ".toList ++ (oneLine (d.literal (.text v))).toList) := by
  have hwords : words (w ++ ' ' :: (['='] ++ ' ' :: (d.literal (.text v)).toList)) =
      w :: ['='] :: words (d.literal (.text v)).toList := by
    rw [words_append_blank rfl, words_append_blank rfl, words_of_solid hw.not_isBlank hw.ne_nil]
    rfl
  have hone := toList_oneLine (d.literal (.text v)).toList
  rw [String.ofList_toList] at hone
  obtain ⟨u, us, hus⟩ : ∃ u us, words (d.literal (.text v)).toList = u :: us := by
    refine List.exists_cons_of_ne_nil fun hnil => ?_
    obtain ⟨z, hz⟩ := exists_oneLine_literal d v
    rw [hone, hnil] at hz
    cases hz
  have hequation : " = ".toList ++ (d.literal (.text v)).toList =
      ' ' :: (['='] ++ ' ' :: (d.literal (.text v)).toList) := rfl
  rw [hequation, toList_oneLine, hwords, hone, hus, List.intercalate_cons_cons,
    List.intercalate_cons_cons]
  simp

/-! ## The pieces of the condition -/

/-- Another word than `OR`, before something that begins with a space, is not cut. -/
theorem refuses_disjunction_of_word (hw : IsWordText w)
    (hor : ¬(w.length = "OR".length ∧ opensWith "OR".toList w = true)) (hxy : w = x ++ y)
    (hy : y ≠ []) : Refuses disjunction (x.getLast?.or none) (y ++ ' ' :: rest) := by
  have hword : ∀ c ∈ y, isWord c = true := fun c hc => hw.isWord c (by simp [hxy, hc])
  by_cases hx : x = []
  · subst hx
    obtain rfl : w = y := hxy
    by_cases hopens : opensWith "OR".toList (w ++ ' ' :: rest) = true
    · obtain ⟨t, z, rfl, hlength, ht⟩ := exists_of_opensWith_append hopens fun c hc => by
        cases hc
        decide
      have hz : z ≠ [] := by
        rintro rfl
        rw [List.append_nil] at hor
        exact hor ⟨hlength, ht⟩
      rw [List.append_assoc]
      refine .assoc (.edge_seq (refuses_word_edge hlength ?_ ?_))
      · have hne : t ≠ [] := List.ne_nil_of_length_pos (by rw [hlength]; decide)
        rw [List.getLast?_eq_some_getLast hne]
        exact hword _ (List.mem_append_left _ (List.getLast_mem hne))
      · rw [List.head?_append, List.head?_eq_some_head hz]
        exact hword _ (List.mem_append_right _ (List.head_mem hz))
    · exact .seq_left (.edge_seq (refuses_word (Bool.eq_false_iff.2 hopens)))
  · refine .seq_left (.seq_left (refuses_edge ?_))
    rw [List.getLast?_eq_some_getLast hx, Option.some_or, Cursor.atEdge, List.head?_append,
      List.head?_eq_some_head hy]
    have hlast : isWord (x.getLast hx) = true := hw.isWord _ (by simp [hxy])
    have hhead : isWord (y.head hy) = true := hword _ (List.head_mem hy)
    simp [hlast, hhead]

/-- Trimming keeps a text up to a character that is no blank. -/
theorem exists_trim_append (hx : BeginsSolid (x ++ [c])) (hc : isBlank c = false) (y : Chars) :
    ∃ z, trim (x ++ c :: y) = x ++ c :: z := by
  obtain ⟨g, r, hy, hg, hr⟩ := exists_blanks_append y.reverse
  have hy : y = r.reverse ++ g.reverse := by rw [← List.reverse_append, ← hy, List.reverse_reverse]
  have hg : ∀ c ∈ g.reverse, isBlank c = true := by simpa using hg
  refine ⟨r.reverse, ?_⟩
  rw [hy, ← List.cons_append, ← List.append_assoc, trim_append hg]
  refine trim_eq_self (fun c' hc' => hx c' ?_) fun c' hc' => ?_
  · cases x <;> exact hc'
  · rw [List.getLast?_append, List.getLast?_cons, List.getLast?_reverse] at hc'
    cases r with
    | nil => cases hc'; exact hc
    | cons b r => cases hc'; exact hr _ rfl

theorem holdsAlways_word (hw : IsWordText w) (y : Chars) :
    holdsAlways (w ++ ([' ', '=', ' ', '\''] ++ y)) = false := by
  have hsolid : BeginsSolid (w ++ [' ', '=', ' '] ++ ['\'']) := by
    rw [List.append_assoc]
    exact hw.beginsSolid _
  obtain ⟨z, hz⟩ := exists_trim_append hsolid (by decide) y
  have htext : w ++ ([' ', '=', ' ', '\''] ++ y) = w ++ [' ', '=', ' '] ++ '\'' :: y := by simp
  rw [holdsAlways, htext, hz]
  simpa using not_tautology_of_word (z := z) hw

theorem holdsAlways_equals (y : Chars) :
    holdsAlways ([' ', '=', ' ', '\''] ++ y) = false := by
  have hsolid : BeginsSolid (['=', ' '] ++ ['\'']) := beginsSolid_cons.2 (by decide)
  obtain ⟨z, hz⟩ := exists_trim_append hsolid (by decide) y
  have htrim : trim ([' ', '=', ' ', '\''] ++ y) = ['=', ' '] ++ '\'' :: z := hz
  rw [holdsAlways, htrim]
  exact not_tautology_of_equals _

/-- Behind another character of a string than its quotes stand an odd number of quotes: those of
the text come in pairs. -/
theorem not_two_dvd_count_behind {cs : Chars} (h : double '\'' cs ++ ['\''] = x ++ c :: y)
    (hc : c ≠ '\'') : ¬2 ∣ y.count '\'' := by
  have htwice (cs : Chars) : (double '\'' cs).count '\'' = 2 * cs.count '\'' := by
    induction cs with
    | nil => rfl
    | cons b cs ih =>
      rw [double, List.flatMap_cons, ← double, List.count_append, ih, List.count_cons]
      split
      · next hb => simp [hb]; omega
      · next hb => simp [hb]
  induction cs generalizing x with
  | nil =>
    cases x with
    | nil => cases h; exact absurd rfl hc
    | cons b x => simp [double] at h
  | cons b cs ih =>
    rw [double, List.flatMap_cons, ← double] at h
    split at h
    · obtain _ | ⟨q, _ | ⟨q', x⟩⟩ := x
      · cases h; exact absurd rfl hc
      · cases h; exact absurd rfl hc
      · exact ih (by simpa using (List.cons.inj (List.cons.inj h).2).2)
    · cases x with
      | nil =>
        obtain rfl : double '\'' cs ++ ['\''] = y := (List.cons.inj h).2
        rw [List.count_append, htwice]
        simp
      | cons q x => exact ih (List.cons.inj h).2

/-- Behind the last word `OR` a literal is not taken for a condition that holds for every row. -/
theorem holdsAlways_last {us : List Chars}
    (h : Splits disjunction before (oneLine (d.literal (.text v))).toList us) :
    ∀ u ∈ us.tail.getLast?, holdsAlways u = false := by
  rcases h.eq_singleton_or_last with rfl | ⟨w, t, u, hy, hlast, gs, hread⟩
  · simp
  rw [hlast]
  rintro _ ⟨⟩
  obtain ⟨hlength, hopens⟩ := opensWith_of_reads_wholeWord hread
  obtain ⟨a, b, rfl⟩ := List.length_eq_two.1 hlength
  obtain ⟨-, hb⟩ : sameLetter 'O' a = true ∧ sameLetter 'R' b = true := by
    have hopens : (sameLetter 'O' a && (sameLetter 'R' b && true)) = true := hopens
    simpa using hopens
  have hquote : b ≠ '\'' := by
    rintro rfl
    exact absurd hb (by decide)
  have hreflowed := (reflowed_literal d v).symm
  have hsplit : w ++ [a, b] ++ u = (w ++ [a]) ++ b :: u := by simp
  rw [hy, hsplit] at hreflowed
  obtain ⟨p, q, hliteral, -, hu⟩ := hreflowed.exists_of_append_cons
    (isBlank_of_sameLetter (by decide) (by decide) hb)
  have hodd : ¬2 ∣ q.count '\'' := by
    rw [toList_literal] at hliteral
    cases p with
    | nil => exact absurd (List.cons.inj hliteral).1.symm hquote
    | cons c p => exact not_two_dvd_count_behind (List.cons.inj hliteral).2 hquote
  rw [holdsAlways, Bool.eq_false_iff]
  intro htautology
  have heven := two_dvd_count_of_tautology htautology
  obtain ⟨g, g', htrim, hg, hg'⟩ := exists_trim u
  have hcount : u.count '\'' = (trim u).count '\'' := by
    conv_lhs => rw [htrim]
    rw [List.count_append, List.count_append, count_quote_of_isBlank hg,
      count_quote_of_isBlank hg', Nat.zero_add, Nat.add_zero]
  rw [← hcount, hu.count_eq (by decide)] at heven
  exact hodd heven

theorem splits_equation {u : Chars} {us : List Chars} (hw : IsWordText w)
    (hus : Splits disjunction (some '\'') z (u :: us)) : ∃ parts,
      Splits disjunction none (w ++ ([' ', '=', ' ', '\''] ++ z)) (parts ++ us) ∧
        parts.any holdsAlways = false := by
  have hmarks : ∀ c ∈ [' ', '=', ' ', '\''], sameLetter 'O' c = false := by decide
  have hbehind (before : Option Char) : Splits disjunction before ([' ', '=', ' ', '\''] ++ z)
      (([' ', '=', ' ', '\''] ++ u) :: us) := by
    refine .keeps (fun x y hxy hy => ?_) hus
    obtain ⟨c, y, rfl⟩ := List.exists_cons_of_ne_nil hy
    refine .seq_left (.edge_seq (refuses_word ?_))
    change (sameLetter 'O' c && _) = false
    rw [hmarks c (hxy ▸ by simp), Bool.false_and]
  by_cases hor : w.length = "OR".length ∧ opensWith "OR".toList w = true
  · have hfirst : Cursor.atEdge ⟨none, w ++ ([' ', '=', ' ', '\''] ++ z), 0⟩ = true := by
      rw [Cursor.atEdge, List.head?_append, List.head?_eq_some_head hw.ne_nil]
      simp [hw.isWord _ (List.head_mem hw.ne_nil)]
    have hlast : Cursor.atEdge ⟨w.getLast?.or none, [' ', '=', ' ', '\''] ++ z, 0⟩ = true := by
      have hspace : isWord ' ' = false := by decide
      rw [Cursor.atEdge, List.getLast?_eq_some_getLast hw.ne_nil]
      simp [hw.isWord _ (List.getLast_mem hw.ne_nil), hspace]
    refine ⟨[[], [' ', '=', ' ', '\''] ++ u],
      .cut (reads_wholeWord hor.2 hor.1 hfirst hlast) hw.ne_nil (hbehind _), ?_⟩
    have hempty : holdsAlways [] = false := by decide +kernel
    simp only [List.any_cons, List.any_nil, hempty, holdsAlways_equals, Bool.or_false]
  · refine ⟨[w ++ ([' ', '=', ' ', '\''] ++ u)],
      .keeps (fun x y hxy hy => refuses_disjunction_of_word hw hor hxy hy) (hbehind _), ?_⟩
    simp only [List.any_cons, List.any_nil, holdsAlways_word hw, Bool.or_false]

theorem any_eq_any_dropLast {f : Chars → Bool} {us : List Chars}
    (h : ∀ u ∈ us.getLast?, f u = false) : us.any f = us.dropLast.any f := by
  rcases List.eq_nil_or_concat us with rfl | ⟨us, u, rfl⟩
  · rfl
  · have hu : f u = false := h u (by simp)
    simp [hu]

/-- Of the condition that a column has a text only the text can be misleading. -/
theorem isTautology_equation (hw : IsWordText w) (d : Dialect) (v : String) :
    isTautology (' ' :: (w ++ (" = ".toList ++ (d.literal (.text v)).toList))) = misleads d v := by
  obtain ⟨z, hz⟩ := exists_oneLine_literal d v
  obtain ⟨us, hus⟩ := exists_splits_wholeWord (s := "OR") (by decide) (some '\'') z
  obtain ⟨u, us, rfl⟩ := List.exists_cons_of_ne_nil hus.ne_nil
  obtain ⟨parts, hsplits, hparts⟩ := splits_equation hw hus
  have hliteral : Splits disjunction none (oneLine (d.literal (.text v))).toList
      (('\'' :: u) :: us) := by
    rw [hz]
    exact .keep (.seq_left (.edge_seq (refuses_word rfl))) hus
  have hmisleads : misleads d v = us.dropLast.any holdsAlways := by
    rw [misleads, hliteral.split_eq, List.tail_cons]
  have hlast : (w ++ (" = ".toList ++ (d.literal (.text v)).toList)).reverse =
      '\'' :: (w ++ (" = ".toList ++ '\'' :: double '\'' (d.escape v.toList))).reverse := by
    rw [toList_literal]
    simp
  have htrim : trim (' ' :: (w ++ (" = ".toList ++ (d.literal (.text v)).toList))) =
      w ++ (" = ".toList ++ (d.literal (.text v)).toList) := by
    have h : trim ([' '] ++ (w ++ (" = ".toList ++ (d.literal (.text v)).toList)) ++ []) =
        w ++ (" = ".toList ++ (d.literal (.text v)).toList) := by
      refine trim_of_blanks isBlank_of_mem_space (by simp) (hw.beginsSolid _) fun c hc => ?_
      rw [← List.head?_reverse, hlast] at hc
      cases hc
      rfl
    rwa [List.append_nil] at h
  have hwhole : (oneLine (String.ofList
      (w ++ (" = ".toList ++ (d.literal (.text v)).toList)))).toList =
        w ++ ([' ', '=', ' ', '\''] ++ z) := by
    rw [toList_oneLine_equation hw, hz]
    rfl
  have hall : ((wholeWord "OR").split (w ++ ([' ', '=', ' ', '\''] ++ z))).any holdsAlways =
      us.any holdsAlways := by
    rw [← disjunction, hsplits.split_eq, List.any_append, hparts, Bool.false_or]
  rw [isTautology]
  dsimp only
  rw [htrim, hlast, List.dropWhile_cons_of_neg (by decide), ← hlast, List.reverse_reverse, hwhole,
    not_tautology_of_word hw, Bool.false_or]
  change ((wholeWord "OR").split _).any holdsAlways = _
  rw [hall, hmisleads]
  exact any_eq_any_dropLast (holdsAlways_last hliteral)

/-! ## The text of a deletion -/

def deleteHead (t w : Chars) : Chars :=
  "DELETE FROM ".toList ++ t ++ " WHERE ".toList ++ w ++ " = ".toList

def deleteWhere (d : Dialect) (t w : Chars) (v : String) : String :=
  String.ofList (deleteHead t w ++ (d.literal (.text v)).toList)

def isCalm (c : Char) : Bool :=
  isWord c || c == ' ' || c == '='

theorem isFragment_of_isCalm (hx : ∀ c ∈ x, isCalm c = true) : IsFragment x := by
  have hne {q : Char} (hq : isCalm q = false) : q ∉ x := by
    intro hmem
    rw [hx q hmem] at hq
    cases hq
  have hneutral : ∀ c ∈ x, isNeutral c = true := by
    intro c hc
    simp only [isNeutral, Bool.and_eq_true, bne_iff_ne]
    refine ⟨⟨?_, ?_⟩, ?_⟩ <;> rintro rfl <;> exact hne (by decide) hc
  refine ⟨fun c hc => ?_, hne (by decide), ?_⟩
  · have hquotes : ∀ q ∈ ['\'', '"', '\x60'], isCalm q = false := by decide
    rw [Bool.eq_false_iff]
    intro hquote
    exact hne (hquotes c (List.contains_iff_mem.1 hquote)) hc
  · exact (List.pairwise_of_forall_mem_list fun a ha b _ =>
      mayAdjoin_of_isNeutral_left (hneutral a ha)).isChain

theorem isCalm_deleteHead (ht : IsWordText t) (hw : IsWordText w) :
    ∀ c ∈ deleteHead t w, isCalm c = true := by
  have hword {x : Chars} (hx : IsWordText x) : ∀ c ∈ x, isCalm c = true := by
    intro c hc
    rw [isCalm, hx.isWord c hc]
    rfl
  have hdelete : ∀ c ∈ "DELETE FROM ".toList ++ t, isCalm c = true :=
    List.forall_mem_append.2 ⟨by decide, hword ht⟩
  have hwhere : ∀ c ∈ "DELETE FROM ".toList ++ t ++ " WHERE ".toList, isCalm c = true :=
    List.forall_mem_append.2 ⟨hdelete, by decide⟩
  exact List.forall_mem_append.2 ⟨List.forall_mem_append.2 ⟨hwhere, hword hw⟩, by decide⟩

/-! ## Other denials -/

theorem refuses_seq_char {a : Pattern} (h : c ∉ x) : Refuses (a ++ char c) before x := by
  intro n captures
  refine .seq fun r hr => .one fun c' hc' => ?_
  obtain ⟨taken, hrest, -⟩ := leads_of_mem_ends hr
  rw [beq_eq_false_iff_ne]
  rintro rfl
  refine h ?_
  have hx : x = taken ++ r.cursor.rest := hrest
  rw [hx]
  exact List.mem_append_right _ (List.mem_of_mem_head? hc')

def Never (p : Pattern) (x : Chars) : Prop :=
  ∀ before u v, x = u ++ v → Refuses p before v

theorem Never.occurs {p : Pattern} (h : Never p x) : p.occurs x = false := by
  rw [Pattern.occurs, search?_eq_none fun u v huv => h _ u v huv]
  rfl

def pair (s : String) (b : Pattern) : Pattern :=
  word s ++ (blanks1 ++ b)

section Pair

variable {s : String} {b : Pattern}

theorem never_pair_of_head {a : Char} (hs : s.toList.head? = some a)
    (h : ∀ c ∈ x, sameLetter a c = false) : Never (pair s b) x := by
  intro before u v huv
  refine .seq_left (refuses_word ?_)
  obtain ⟨w, hw⟩ := List.head?_eq_some_iff.1 hs
  rw [hw]
  cases v with
  | nil => rfl
  | cons c v => rw [opensWith, h c (by simp [huv]), Bool.false_and]

/-- A word before a space begins no such pair, unless it ends with `s` and what follows it begins
with `b`. -/
theorem never_pair_word (hs : ∀ a ∈ s.toList, isAsciiLetter a = true)
    (hfirst : s.toList.head?.any isAsciiLetter = true)
    (hb : ∀ before c y, isBlank c = true → Refuses b before (c :: y))
    (hw : ∀ c ∈ w, isBlank c = false) (hz : BeginsSolid z)
    (h : (∀ u ∈ w.tails, ¬(u.length = s.length ∧ opensWith s.toList u = true)) ∨
      ∀ before, Refuses b before z) (hrest : Never (pair s b) z) :
    Never (pair s b) (w ++ ' ' :: z) := by
  have hspace (before : Option Char) : Refuses (pair s b) before (' ' :: z) :=
    .seq_left (refuses_word_blank hfirst rfl)
  have hletter : ∀ c ∈ (' ' :: z).head?, ∀ a ∈ s.toList, sameLetter a c = false := by
    rintro c ⟨⟩ a ha
    rw [Bool.eq_false_iff]
    intro hsame
    have hsolid := isBlank_of_sameLetter (toNat_of_isAsciiLetter (hs a ha))
      (isBlank_of_isAsciiLetter (hs a ha)) hsame
    cases hsolid
  intro before u v huv
  rcases List.append_eq_append_iff.1 huv with ⟨t, rfl, ht⟩ | ⟨t, rfl, rfl⟩
  · cases t with
    | nil =>
      obtain rfl : ' ' :: z = v := ht
      exact hspace before
    | cons c t =>
      obtain ⟨-, hzt⟩ := List.cons.inj ht
      exact hrest before t v hzt
  by_cases hopens : opensWith s.toList (t ++ ' ' :: z) = true
  · obtain ⟨e, r, rfl, hlength, he⟩ := exists_of_opensWith_append hopens hletter
    rw [String.length_toList] at hlength
    rw [List.append_assoc]
    refine .after (only_word hlength) ?_
    cases r with
    | nil =>
      rcases h with h | h
      · exact absurd ⟨hlength, he⟩ (h e ((List.mem_tails _ _).2 ⟨u, by simp⟩))
      · refine refuses_blanks1_seq hb fun before => ?_
        have htrim : trimLeft (' ' :: z) = z :=
          (trimLeft_append isBlank_of_mem_space).trans (trimLeft_eq_self hz)
        rw [List.nil_append, htrim]
        exact h before
    | cons c r =>
      refine .seq_left (refuses_blanks1 ?_)
      rintro _ ⟨⟩
      exact hw c (by simp)
  · exact .seq_left (refuses_word (Bool.eq_false_iff.2 hopens))

end Pair

def deletionWords (t w : Chars) : Chars :=
  "DELETE".toList ++ ' ' :: ("FROM".toList ++ ' ' :: (t ++ ' ' :: ("WHERE".toList ++ ' ' ::
    (w ++ ' ' :: "= ''".toList))))

theorem deleteHead_append (t w : Chars) : deleteHead t w ++ ['\'', '\''] = deletionWords t w := by
  have hassoc (a b e y : Chars) :
      a ++ t ++ b ++ w ++ e ++ y = a ++ (t ++ (b ++ (w ++ (e ++ y)))) := by
    simp only [List.append_assoc]
  exact hassoc ..

theorem never_pair_delete {s : String} {b : Pattern} (ht : IsWordText t) (hw : IsWordText w)
    (hs : ∀ a ∈ s.toList, isAsciiLetter a = true)
    (hfirst : s.toList.head?.any isAsciiLetter = true)
    (hb : ∀ before c y, c = 'W' ∨ c = '=' ∨ isBlank c = true → Refuses b before (c :: y))
    (hwords : ∀ x ∈ ["DELETE", "FROM", "WHERE"], ∀ u ∈ x.toList.tails,
      ¬(u.length = s.length ∧ opensWith s.toList u = true))
    (hend : ∀ a ∈ s.toList.take 1, ∀ c ∈ "= ''".toList, sameLetter a c = false) :
    Never (pair s b) (deletionWords t w) := by
  have hblank (before : Option Char) (c : Char) (y : Chars) (hc : isBlank c = true) :
      Refuses b before (c :: y) := hb before c y (.inr (.inr hc))
  have hbegins (c : Char) (y : Chars) (hc : isBlank c = false) : BeginsSolid (c :: y) :=
    beginsSolid_cons.2 hc
  obtain ⟨a, ha⟩ : ∃ a, s.toList.head? = some a := by
    obtain ⟨a, ha, -⟩ := (Option.any_eq_true _ _).1 hfirst
    exact ⟨a, ha⟩
  have hstep {x y : Chars} (hx : ∀ c ∈ x, isBlank c = false) (hy : BeginsSolid y)
      (h : (∀ u ∈ x.tails, ¬(u.length = s.length ∧ opensWith s.toList u = true)) ∨
        ∀ before, Refuses b before y) (hrest : Never (pair s b) y) :
      Never (pair s b) (x ++ ' ' :: y) := never_pair_word hs hfirst hblank hx hy h hrest
  have hequals : Never (pair s b) "= ''".toList := by
    refine never_pair_of_head ha (hend a ?_)
    obtain ⟨letters, hletters⟩ := List.head?_eq_some_iff.1 ha
    simp [hletters]
  have hcolumn : Never (pair s b) (w ++ ' ' :: "= ''".toList) :=
    hstep hw.not_isBlank (hbegins '=' _ rfl)
      (.inr fun before => hb before _ _ (.inr (.inl rfl))) hequals
  have hwhere := hstep (x := "WHERE".toList) (by decide) (hw.beginsSolid _)
    (.inl (hwords "WHERE" (by simp))) hcolumn
  have htable := hstep ht.not_isBlank (hbegins 'W' _ rfl)
    (.inr fun before => hb before _ _ (.inl rfl)) hwhere
  have hfrom := hstep (x := "FROM".toList) (by decide) (ht.beginsSolid _)
    (.inl (hwords "FROM" (by simp))) htable
  exact hstep (by decide) (hbegins 'F' _ rfl)
    (.inl (hwords "DELETE" (by simp))) hfrom

theorem refuses_start {s : String} (hs : s.toList.head?.any isAsciiLetter = true)
    (hx : BeginsSolid x) (h : opensWith s.toList x = false) :
    Refuses (blanks ++ word s) before x := by
  refine refuses_blanks_seq (fun _ _ _ hc => refuses_word_blank hs hc) fun _ => ?_
  rw [trimLeft_eq_self hx]
  exact refuses_word h

/-- Nothing else than that it deletes speaks against such a deletion. -/
theorem find?_denials_deletion (ht : IsWordText t) (hw : IsWordText w) :
    denials.find? (·.applies (deletionWords t w)) = none := by
  have hsolid : BeginsSolid (deletionWords t w) := by
    rintro c ⟨⟩
    rfl
  have hparen : '(' ∉ deletionWords t w := by
    rw [← deleteHead_append, List.mem_append]
    rintro (hmem | hmem)
    · exact absurd (isCalm_deleteHead ht hw _ hmem) (by decide)
    · exact absurd hmem (by decide)
  have hcall (names : List String) : (call names).occurs (deletionWords t w) = false := by
    refine Never.occurs fun before u v huv => refuses_seq_char fun hmem => hparen ?_
    rw [huv]
    exact List.mem_append_right _ hmem
  have hinto : Never (pair "INTO" (choice [word "OUTFILE", word "DUMPFILE"]))
      (deletionWords t w) := by
    refine never_pair_delete ht hw (by decide) (by decide) (fun before c y hc => ?_)
      (by decide) (by decide)
    rcases hc with rfl | rfl | hc
    · exact .alt (refuses_word rfl) (refuses_word rfl)
    · exact .alt (refuses_word rfl) (refuses_word rfl)
    · exact .alt (refuses_word_blank (by decide) hc) (refuses_word_blank (by decide) hc)
  have hload : Never (pair "LOAD" (word "DATA")) (deletionWords t w) := by
    refine never_pair_delete ht hw (by decide) (by decide) (fun before c y hc => ?_)
      (by decide) (by decide)
    rcases hc with rfl | rfl | hc
    · exact refuses_word rfl
    · exact refuses_word rfl
    · exact refuses_word_blank (by decide) hc
  have hstart {d : Denial} (hd : d.atStart = true)
      (h : Refuses d.pattern none (deletionWords t w)) : d.applies (deletionWords t w) = false := by
    rw [Denial.applies, if_pos hd, h.match?]
    rfl
  have hfirst {s : String} (hs : s.toList.head?.any isAsciiLetter = true)
      (h : opensWith s.toList (deletionWords t w) = false) :
      Refuses (blanks ++ word s) none (deletionWords t w) := refuses_start hs hsolid h
  refine List.find?_eq_none.2 fun d hd => ?_
  simp only [denials, List.mem_cons, List.not_mem_nil, or_false] at hd
  rw [Bool.not_eq_true]
  rcases hd with rfl | rfl | rfl | rfl | rfl | rfl | rfl
  · exact hstart rfl (.seq_left (.seq_left (.seq_left (.seq_left (hfirst (by decide) rfl)))))
  · exact hcall _
  · exact Never.occurs fun before u v huv =>
      .seq_left (.assoc (.assoc (.edge_seq (hinto before u v huv))))
  · exact Never.occurs fun before u v huv =>
      .seq_left (.seq_left (.seq_left (.seq_left (.edge_seq (.assoc (hload before u v huv))))))
  · exact hcall _
  · exact hstart rfl (.seq_left (.seq_left (.seq_left (.seq_left (.seq_left (.seq_left
      (hfirst (by decide) rfl)))))))
  · exact hcall _

/-! ## Reading a deletion -/

/-- A name of a table as a bare word. The word `ONLY` is not read as a name, and bookkeeping may be
deleted. -/
structure IsTableName (t : Chars) : Prop where
  isWordText : IsWordText t
  ne_only : ¬(t.length = "ONLY".length ∧ opensWith "ONLY".toList t = true)
  notMem_exempt : lower (String.ofList t) ∉ exempt

structure EndsName (x : Chars) : Prop where
  head? : ∀ c ∈ x.head?, isBare c = false
  trimLeft : (trimLeft x).head? ≠ some '.'

theorem refuses_only (ht : IsTableName t) (hrest : EndsName rest) :
    Refuses (word "ONLY" ++ blanks1) before (t ++ rest) := by
  have hletter : ∀ c ∈ rest.head?, ∀ a ∈ "ONLY".toList, sameLetter a c = false := by
    intro c hc a ha
    have hletters : ∀ a ∈ "ONLY".toList, isAsciiLetter a = true := by decide
    have hbare := hrest.head? c hc
    rw [isBare, Bool.or_eq_false_iff] at hbare
    rw [Bool.eq_false_iff]
    intro hsame
    rw [isWord_of_sameLetter (hletters a ha) hsame] at hbare
    cases hbare.1
  by_cases hopens : opensWith "ONLY".toList (t ++ rest) = true
  · obtain ⟨e, r, rfl, hlength, he⟩ := exists_of_opensWith_append hopens hletter
    cases r with
    | nil =>
      rw [List.append_nil] at ht
      exact absurd ⟨hlength, he⟩ ht.ne_only
    | cons c r =>
      rw [List.append_assoc]
      refine .after (only_word hlength) (refuses_blanks1 ?_)
      rintro _ ⟨⟩
      exact ht.isWordText.not_isBlank c (by simp)
  · exact .seq_left (refuses_word (Bool.eq_false_iff.2 hopens))

theorem reads_delete (ht : IsTableName t) (hrest : EndsName rest) :
    Reads deletePattern none ("DELETE FROM ".toList ++ t) rest [(1, t)] := by
  have hsolid : BeginsSolid (t ++ rest) := ht.isWordText.beginsSolid rest
  have hdelete : Reads (blanks ++ word "DELETE") none ([] ++ "DELETE".toList)
      ([' '] ++ ("FROM".toList ++ ([' '] ++ (t ++ rest)))) [] :=
    .seq (reads_blanks (by simp) (by rintro c ⟨⟩; rfl)) (reads_word (by decide) (by decide))
  have hmodifiers (before : Option Char) : Refuses
      (choice [word "LOW_PRIORITY", word "QUICK", word "IGNORE"] ++ blanks1) before
      ("FROM".toList ++ ([' '] ++ (t ++ rest))) :=
    .seq_left (.alt (refuses_word rfl) (.alt (refuses_word rfl) (refuses_word rfl)))
  have hfrom (before : Option Char) : Reads (word "FROM") before "FROM".toList
      ([' '] ++ (t ++ rest)) [] := reads_word (by decide) (by decide)
  have hname (before : Option Char) : Reads (capture 1 qname) before t rest [(1, t)] :=
    .capture 1 (reads_qname (ht.isWordText.reads_ident hrest.head?) hrest.trimLeft)
  have hspace := hdelete.seq (reads_space1 (by rintro c ⟨⟩; rfl))
  have hstart := hspace.seq (y := []) (.star_nil (hmodifiers _))
  have hwords := (hstart.seq (hfrom _)).seq (reads_space1 hsolid)
  have hall := (hwords.seq (y := []) (.skip (refuses_only ht hrest))).seq (hname _)
  have htext : [] ++ "DELETE".toList ++ [' '] ++ [] ++ "FROM".toList ++ [' '] ++ [] =
      "DELETE FROM ".toList := by decide
  rwa [htext] at hall

/-- What is said of a deletion rests on what follows the first word `WHERE` behind the table. -/
theorem deletion?_of_name (ht : IsTableName t) (hrest : EndsName rest) :
    deletion? ("DELETE FROM ".toList ++ t ++ rest) = match wherePattern.search? rest with
      | none => some "DELETE without a WHERE clause is not allowed"
      | some m => if isTautology m.rest then
          some "DELETE with an always-true WHERE clause is not allowed" else none := by
  obtain ⟨m, hm, -, his⟩ := (reads_delete ht hrest).exists_match?
  have hgroup : m.group 1 = t := by
    rw [his.group]
    rfl
  have hexempt : exempt.contains (lower (unquote t)) = false := by
    rw [ht.isWordText.unquote, Bool.eq_false_iff]
    exact fun h => ht.notMem_exempt (List.contains_iff_mem.1 h)
  rw [deletion?, hm]
  dsimp only
  rw [hgroup, hexempt, his.rest]
  rfl

theorem exists_search_where (x : Chars) :
    ∃ m, wherePattern.search? (" WHERE ".toList ++ x) = some m ∧ m.rest = ' ' :: x := by
  have hread : Reads wherePattern (some ' ') "WHERE".toList (' ' :: x) [] :=
    reads_wholeWord (s := "WHERE") (by decide) (by decide) rfl rfl
  obtain ⟨m, hm, -, his⟩ := hread.exists_matchAt? 1
  have hspace : Refuses wherePattern none (' ' :: ("WHERE".toList ++ ' ' :: x)) :=
    .seq_left (.edge_seq (refuses_word rfl))
  refine ⟨m, ?_, his.rest⟩
  change wherePattern.searchIn none 0 (' ' :: ("WHERE".toList ++ ' ' :: x)) = some m
  rw [searchIn, hspace.matchAt? 0]
  exact searchIn_of_matchAt? hm

theorem endsName_where (x : Chars) : EndsName (" WHERE ".toList ++ x) := by
  constructor
  · rintro c ⟨⟩
    rfl
  · have htrim : trimLeft (" WHERE ".toList ++ x) = "WHERE ".toList ++ x := rfl
    rw [htrim]
    simp

theorem toList_deleteWhere (d : Dialect) (t w : Chars) (v : String) :
    (deleteWhere d t w v).toList = deleteHead t w ++ filling d [(v, [])] := by
  rw [deleteWhere, String.toList_ofList, filling, List.flatMap_singleton, List.append_nil]

/-- A deletion of the rows where a column has a text is refused exactly if the text misleads. -/
theorem denied_deleteWhere (ht : IsTableName t) (hw : IsWordText w) (hv : IsInert d v) :
    denied? (deleteWhere d t w v) = if misleads d v then
      some "DELETE with an always-true WHERE clause is not allowed" else none := by
  have hfragment := isFragment_of_isCalm (isCalm_deleteHead ht.isWordText hw)
  have hparts : ∀ p ∈ [(v, ([] : Chars))], IsInert d p.1 ∧ IsFragment p.2 :=
    List.forall_mem_singleton.2 ⟨hv, isFragment_of_isCalm (by simp)⟩
  have hliteral : filling d [(v, [])] = (d.literal (.text v)).toList := by
    rw [filling, List.flatMap_singleton, List.append_nil]
  have hassoc (a b e y : Chars) :
      a ++ t ++ b ++ w ++ e ++ y = a ++ t ++ (b ++ (w ++ (e ++ y))) := by
    simp only [List.append_assoc]
  have hbody : deleteHead t w ++ filling d [(v, [])] = "DELETE FROM ".toList ++ t ++
      (" WHERE ".toList ++ (w ++ (" = ".toList ++ (d.literal (.text v)).toList))) :=
    (congrArg (deleteHead t w ++ ·) hliteral).trans (hassoc ..)
  obtain ⟨m, hm, hrest⟩ :=
    exists_search_where (w ++ (" = ".toList ++ (d.literal (.text v)).toList))
  rw [denied?, toList_deleteWhere, withoutComments_filled hfragment hparts,
    withoutStrings_filled hfragment hparts, List.map_singleton]
  have hmasked : skeleton [[]] = ['\'', '\''] := rfl
  dsimp only
  rw [hmasked, deleteHead_append, find?_denials_deletion ht.isWordText hw]
  dsimp only
  rw [hbody, deletion?_of_name ht (endsName_where _), hm]
  dsimp only
  rw [hrest, isTautology_equation hw]

/-- A deletion is refused if the word `WHERE` stands nowhere behind the table. -/
theorem denied_of_unconditional {s : String} (ht : IsTableName t) (hrest : EndsName rest)
    (hs : withoutComments s.toList = "DELETE FROM ".toList ++ t ++ rest)
    (hwhere : wherePattern.occurs rest = false) : denied? s ≠ none := by
  have hnone : wherePattern.search? rest = none := by
    rw [Pattern.occurs] at hwhere
    exact Option.not_isSome_iff_eq_none.1 (Bool.eq_false_iff.1 hwhere)
  rw [denied?, hs, deletion?_of_name ht hrest, hnone]
  cases denials.find? _ <;> simp

/-- A deletion of the rows where a column has a text is let through unless the text misleads, and
one behind whose table the word `WHERE` does not stand is not. -/
theorem deletions_screened (t : Chars) (ht : IsTableName t) :
    (∀ (d : Dialect) (w : Chars) (v : String), IsWordText w → IsInert d v →
      (denied? (deleteWhere d t w v) = none ↔ misleads d v = false)) ∧
    ∀ (s : String) (rest : Chars), EndsName rest →
      withoutComments s.toList = "DELETE FROM ".toList ++ t ++ rest →
      wherePattern.occurs rest = false → denied? s ≠ none := by
  refine ⟨fun d w v hw hv => ?_, fun s rest hrest hs hwhere =>
    denied_of_unconditional ht hrest hs hwhere⟩
  rw [denied_deleteWhere ht hw hv]
  cases misleads d v <;> simp

theorem isTableName_t : IsTableName ['t'] :=
  ⟨⟨List.cons_ne_nil _ _, by decide⟩, by decide, by decide +kernel⟩

theorem users_deletions_screened :
    (denied? (deleteWhere .mysql ['t'] ['c'] "it's OR this") = none ↔
      misleads .mysql "it's OR this" = false) ∧
    denied? "DELETE FROM t -- WHERE" ≠ none := by
  have hcolumn : IsWordText ['c'] := ⟨List.cons_ne_nil _ _, by decide⟩
  have hrest : EndsName "  ".toList := ⟨by rintro c ⟨⟩; rfl, by decide⟩
  obtain ⟨hscreened, hrejected⟩ := deletions_screened ['t'] isTableName_t
  exact ⟨hscreened .mysql ['c'] "it's OR this" hcolumn ⟨by decide, fun h => absurd rfl h⟩,
    hrejected "DELETE FROM t -- WHERE" "  ".toList hrest (by decide +kernel) (by decide +kernel)⟩

/-- A text may be taken for a condition that holds for every row, and a word of a string for the
clause. -/
theorem not_deletions_screened :
    (¬∀ (d : Dialect) (t w : Chars) (v : String), IsTableName t → IsWordText w →
      denied? (deleteWhere d t w v) = none) ∧
    ¬∀ t rest : Chars, IsTableName t → EndsName rest →
      wherePattern.occurs (withoutStrings rest) = false →
      denied? (String.ofList ("DELETE FROM ".toList ++ t ++ rest)) ≠ none := by
  constructor
  · intro h
    have hcolumn : IsWordText ['c'] := ⟨List.cons_ne_nil _ _, by decide⟩
    exact absurd (h .mysql ['t'] ['c'] "x OR 1=1 OR y" isTableName_t hcolumn) (by decide +kernel)
  · intro h
    have hrest : EndsName " RETURNING 'WHERE'".toList := ⟨by rintro c ⟨⟩; rfl, by decide⟩
    exact absurd (h ['t'] " RETURNING 'WHERE'".toList isTableName_t hrest (by decide +kernel))
      (by decide +kernel)

end SqlFerry.Restore
