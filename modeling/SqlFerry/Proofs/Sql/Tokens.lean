import SqlFerry.Proofs.Sql.Nesting
import SqlFerry.Proofs.Value.Numerals

/-!
# Tokens of a text

A text put together from tokens with blanks between them is cut into these tokens, each at its own
place.
-/

namespace SqlFerry.Sql

open Text Pattern

variable {cs rest blanks tok w : Chars} {offset : Nat} {before : Option Char}

def tokenLength (cs : Chars) : Nat :=
  if cs.head? == some '(' then (closing? cs).elim cs.length (· + 1)
  else ((tokenPattern.match? cs).map (·.stop)).getD 0

theorem tokensFrom_succ (n offset : Nat) (cs : Chars) : tokensFrom (n + 1) offset cs =
    if tokenLength (trimLeft cs) = 0 then [] else
      ⟨(trimLeft cs).take (tokenLength (trimLeft cs)), offset + (cs.takeWhile isBlank).length,
        offset + (cs.takeWhile isBlank).length + tokenLength (trimLeft cs)⟩ ::
          tokensFrom n (offset + (cs.takeWhile isBlank).length + tokenLength (trimLeft cs))
            ((trimLeft cs).drop (tokenLength (trimLeft cs))) := by
  have hdrop : cs.drop (cs.takeWhile isBlank).length = trimLeft cs := by
    have hsplit : cs.takeWhile isBlank ++ trimLeft cs = cs := List.takeWhile_append_dropWhile
    have hleft : (cs.takeWhile isBlank ++ trimLeft cs).drop (cs.takeWhile isBlank).length =
        trimLeft cs := List.drop_left
    rwa [hsplit] at hleft
  rw [tokensFrom, hdrop]
  rfl

theorem length_trimLeft_le (cs : Chars) : (trimLeft cs).length ≤ cs.length :=
  (List.dropWhile_suffix _).length_le

theorem tokenLength_nil : tokenLength [] = 0 := rfl

/-- As many rounds as there are characters are enough. -/
theorem tokensFrom_congr {n m : Nat} (hn : cs.length ≤ n) (hm : cs.length ≤ m) :
    tokensFrom n offset cs = tokensFrom m offset cs := by
  have hempty (n offset : Nat) : tokensFrom n offset [] = [] := by
    cases n with
    | zero => rfl
    | succ n => rw [tokensFrom_succ, if_pos (by rw [trimLeft, List.dropWhile_nil, tokenLength_nil])]
  induction n generalizing m offset cs with
  | zero =>
    obtain rfl := List.length_eq_zero_iff.1 (Nat.le_zero.1 hn)
    rw [hempty, hempty]
  | succ n ih =>
    cases m with
    | zero =>
      obtain rfl := List.length_eq_zero_iff.1 (Nat.le_zero.1 hm)
      rw [hempty, hempty]
    | succ m =>
      have hlength := length_trimLeft_le cs
      rw [tokensFrom_succ, tokensFrom_succ]
      split
      · rfl
      · congr 1
        refine ih ?_ ?_ <;>
        · rw [List.length_drop]
          omega

def tokensAt (offset : Nat) (cs : Chars) : List Token :=
  tokensFrom cs.length offset cs

structure IsToken (tok rest : Chars) : Prop where
  ne_nil : tok ≠ []
  first : ∀ c ∈ tok.head?, isBlank c = false ∧ c ≠ '('
  reads : Reads tokenPattern none tok rest []

theorem IsToken.tokenLength_eq (h : IsToken tok rest) : tokenLength (tok ++ rest) = tok.length := by
  obtain ⟨m, hm, hstop, -⟩ := h.reads.exists_match?
  obtain ⟨c, tok, rfl⟩ := List.exists_cons_of_ne_nil h.ne_nil
  have hopen : ((c :: tok ++ rest).head? == some '(') = false := by
    have hc := (h.first c rfl).2
    simpa using hc
  rw [tokenLength, hopen, hm, Option.map_some, Option.getD_some, hstop]
  rfl

theorem tokensAt_blanks (offset : Nat) (hblanks : ∀ c ∈ blanks, isBlank c = true) (cs : Chars) :
    tokensAt offset (blanks ++ cs) = tokensAt (offset + blanks.length) cs := by
  have htake : (blanks ++ cs).takeWhile isBlank = blanks ++ cs.takeWhile isBlank :=
    List.takeWhile_append_of_pos hblanks
  have hlength := length_trimLeft_le cs
  rw [tokensAt, tokensFrom_congr (Nat.le_refl _) (Nat.le_succ _), tokensFrom_succ, htake,
    trimLeft_append hblanks, tokensAt, tokensFrom_congr (Nat.le_refl cs.length) (Nat.le_succ _),
    tokensFrom_succ, List.length_append, ← Nat.add_assoc]
  split
  · rfl
  · congr 1
    refine tokensFrom_congr ?_ ?_ <;> grind [List.length_drop, List.length_append]

theorem tokensAt_of_tokenLength (offset : Nat) (hne : tok ≠ [])
    (hfirst : ∀ c ∈ tok.head?, isBlank c = false)
    (hlength : tokenLength (tok ++ rest) = tok.length) : tokensAt offset (tok ++ rest) =
      ⟨tok, offset, offset + tok.length⟩ :: tokensAt (offset + tok.length) rest := by
  have hpos := List.length_pos_iff.2 hne
  obtain ⟨c, tok, rfl⟩ := List.exists_cons_of_ne_nil hne
  have hfirst : isBlank c = false := hfirst c rfl
  have htake : (c :: tok ++ rest).takeWhile isBlank = [] :=
    List.takeWhile_cons_of_neg (by simp [hfirst])
  have htrim : trimLeft (c :: tok ++ rest) = c :: tok ++ rest :=
    trimLeft_eq_self (by rintro x ⟨⟩; exact hfirst)
  rw [tokensAt, tokensFrom_congr (Nat.le_refl _) (Nat.le_succ _), tokensFrom_succ, htrim, htake,
    hlength, if_neg (by omega), List.take_left, List.drop_left, tokensAt]
  congr 1
  refine tokensFrom_congr ?_ (Nat.le_refl _)
  rw [List.length_append]
  omega

theorem tokensAt_append (offset : Nat) (hblanks : ∀ c ∈ blanks, isBlank c = true)
    (htok : IsToken tok rest) : tokensAt offset (blanks ++ tok ++ rest) =
      ⟨tok, offset + blanks.length, offset + blanks.length + tok.length⟩ ::
        tokensAt (offset + blanks.length + tok.length) rest := by
  rw [List.append_assoc, tokensAt_blanks offset hblanks, tokensAt_of_tokenLength _ htok.ne_nil
    (fun c hc => (htok.first c hc).1) htok.tokenLength_eq]

theorem tokensAt_token (offset : Nat) (htok : IsToken tok rest) : tokensAt offset (tok ++ rest) =
    ⟨tok, offset, offset + tok.length⟩ :: tokensAt (offset + tok.length) rest := by
  have hnone : ∀ c ∈ ([] : Chars), isBlank c = true := List.forall_mem_nil _
  exact tokensAt_append offset hnone htok

/-- A group in parentheses is one token. -/
theorem tokensAt_group (offset : Nat) {x : Chars} (hx : Balanced x) :
    tokensAt offset ('(' :: x ++ [')'] ++ rest) =
      ⟨'(' :: x ++ [')'], offset, offset + (x.length + 2)⟩ ::
        tokensAt (offset + (x.length + 2)) rest := by
  have hlength : ('(' :: x ++ [')']).length = x.length + 2 := by simp
  rw [← hlength]
  refine tokensAt_of_tokenLength offset (by simp) (by rintro c ⟨⟩; decide) ?_
  have hwhole : '(' :: x ++ [')'] ++ rest = '(' :: x ++ ')' :: rest := by simp
  rw [hwhole, tokenLength, closing?_group hx, hlength]
  rfl

theorem tokensAt_nil : tokensAt offset [] = [] := rfl

/-! ## Tokens -/

def isRunChar (c : Char) : Bool :=
  isWord c || c == '$' || c == '.'

/-- No quoted token begins with another character than a quote or a bracket. -/
theorem refuses_quoted (before : Option Char)
    (h : ∀ c ∈ cs.head?, c ∉ ['\'', '"', '\x60', '[', ':']) :
    Refuses quotedText before cs ∧ Refuses quotedIdent before cs ∧
      Refuses (text "::") before cs := by
  have hone {q : Char} (hq : q ∈ ['\'', '"', '\x60', '[', ':']) : Refuses (char q) before cs := by
    refine .one fun c hc => ?_
    rw [beq_eq_false_iff_ne]
    rintro rfl
    exact h _ hc hq
  have hname : Refuses quotedIdent before cs :=
    .alt (.seq_left (.seq_left (hone (by decide))))
      (.alt (.seq_left (.seq_left (hone (by decide)))) (.seq_left (.seq_left (hone (by decide)))))
  exact ⟨.seq_left (.seq_left (hone (by decide))), hname, .seq_left (hone (by decide))⟩

theorem isRunChar_of_isWord {c : Char} (h : isWord c = true) : isRunChar c = true := by
  rw [isRunChar, h, Bool.true_or, Bool.true_or]

theorem not_isBlank_of_isRunChar {c : Char} (h : isRunChar c = true) : isBlank c = false := by
  simp only [isRunChar, Bool.or_eq_true, beq_iff_eq] at h
  rcases h with (hword | rfl) | rfl
  · exact not_isBlank_of_isWord hword
  · decide
  · decide

/-- Characters of words and numbers up to a character of another kind. -/
theorem isToken_run (hne : w ≠ []) (hw : ∀ c ∈ w, isRunChar c = true)
    (hrest : ∀ c ∈ rest.head?, isRunChar c = false) : IsToken w rest := by
  have hdiffers {c x : Char} (hc : c ∈ w.head?) (hx : isRunChar x = false) : c ≠ x := by
    rintro rfl
    rw [hw c (List.mem_of_mem_head? hc)] at hx
    cases hx
  have hfirst : ∀ c ∈ (w ++ rest).head?, c ∉ ['\'', '"', '\x60', '[', ':'] := by
    intro c hc hmem
    rw [List.head?_append_of_ne_nil _ hne] at hc
    simp only [List.mem_cons, List.not_mem_nil, or_false] at hmem
    rcases hmem with h | h | h | h | h <;> exact hdiffers hc (by decide) h
  obtain ⟨htext, hname, hcast⟩ := refuses_quoted none hfirst
  exact {
    ne_nil := hne
    first := fun c hc =>
      ⟨not_isBlank_of_isRunChar (hw c (List.mem_of_mem_head? hc)), hdiffers hc (by decide)⟩
    reads := .right htext (.right hname (.right hcast (.left (reads_plus_one hne hw hrest)))) }

/-- A word up to a character of another kind. -/
theorem isToken_word (hw : IsWordText w) (hrest : ∀ c ∈ rest.head?, isRunChar c = false) :
    IsToken w rest :=
  isToken_run hw.ne_nil (fun c hc => isRunChar_of_isWord (hw.isWord c hc)) hrest

/-- The sign of a number. -/
theorem isToken_sign {c : Char} (hc : c = '+' ∨ c = '-') (rest : Chars) : IsToken [c] rest where
  ne_nil := List.cons_ne_nil _ _
  first := by
    rcases hc with rfl | rfl <;>
    · rintro c ⟨⟩
      decide
  reads := by
    have hfirst : ∀ x ∈ ([c] ++ rest).head?, x ∉ ['\'', '"', '\x60', '[', ':'] := by
      rcases hc with rfl | rfl <;>
      · rintro c ⟨⟩
        decide
    have hrun : isRunChar c = false := by rcases hc with rfl | rfl <;> decide
    have hsolid : isBlank c = false := by rcases hc with rfl | rfl <;> decide
    obtain ⟨htext, hname, hcast⟩ := refuses_quoted none hfirst
    refine .right htext (.right hname (.right hcast (.right (.seq_left (.one ?_)) (.one ?_))))
    · rintro c ⟨⟩
      exact hrun
    · rw [hsolid]
      rfl

/-- A minus sign before a digit. -/
theorem isToken_dash (rest : Chars) : IsToken ['-'] rest :=
  isToken_sign (.inr rfl) rest

/-- A name in quotes. -/
theorem isToken_quote (d : Dialect) (n : String) (hrest : rest.head? ≠ some d.nameQuote) :
    IsToken (d.quote n).toList rest := by
  have hfirst : ∀ c ∈ (d.quote n).toList.head?, c = '"' ∨ c = '\x60' := by
    rw [head?_quote]
    rintro c ⟨⟩
    exact nameQuote_cases d
  have hne : (d.quote n).toList ≠ [] := by
    rw [Dialect.toList_quote]
    simp
  refine ⟨hne, fun c hc => ?_, .right (.seq_left (.seq_left (.one fun c hc => ?_)))
    (.left (reads_quotedIdent d n hrest))⟩
  · rcases hfirst c hc with rfl | rfl <;> decide
  · rw [List.head?_append_of_ne_nil _ hne] at hc
    rcases hfirst c hc with rfl | rfl <;> rfl

def quotedUnit : Pattern :=
  choice [noneOf "'\\", char '\'' ++ char '\'', char '\\' ++ any]

theorem reads_quotedUnit {u : Chars} (hu : InQuotes '\'' true u) :
    Reads quotedUnit before u rest [] := by
  cases hu with
  | one c hc he =>
    refine .left (.one ?_)
    simpa using ⟨hc, he rfl⟩
  | doubled => exact .right (.one (by simp)) (.left (.seq (x := ['\'']) (.one rfl) (.one rfl)))
  | escaped c he =>
    refine .right (.one (by simp)) (.right (.seq_left (.one (by simp))) ?_)
    exact .seq (x := ['\\']) (.one rfl) (.one rfl)

/-- A text in single quotes: a quote inside is doubled or stands behind a backslash. -/
inductive IsQuoted : Chars → Prop where
  | intro {us : List Chars} (h : ∀ u ∈ us, InQuotes '\'' true u) :
      IsQuoted ('\'' :: us.flatten ++ ['\''])

theorem isQuoted_literal (d : Dialect) {v : String} (hv : d = .mysql ∨ '\\' ∉ v.toList) :
    IsQuoted (d.textLiteral v).toList := by
  obtain ⟨f, htext, hf⟩ := exists_units d hv
  rw [htext, List.flatMap_def]
  exact .intro (List.forall_mem_map.2 hf)

theorem IsQuoted.head? {q : Chars} (h : IsQuoted q) : q.head? = some '\'' := by
  cases h
  rfl

theorem isToken_quoted {q : Chars} (hq : IsQuoted q) (hrest : rest.head? ≠ some '\'') :
    IsToken q rest := by
  obtain @⟨us, hus⟩ := hq
  have hbody : Reads (star quotedUnit) (some '\'') (us.flatMap id) ('\'' :: rest) [] := by
    refine .star_flatMap (fun u hu _ _ => reads_quotedUnit (hus u hu)) (fun u hu => ?_) fun _ => ?_
    · intro hnil
      have hunit := hus u hu
      rw [show u = [] from hnil] at hunit
      cases hunit
    · refine .alt (.one (by simp)) (.alt ?_ (.seq_left (.one (by simp))))
      refine .seq_one (f := (· == '\'')) fun _ => .one fun c hc => ?_
      have hne : c ≠ '\'' := fun h => hrest (h ▸ hc)
      simpa using hne
  rw [List.flatMap_id] at hbody
  have hopen : Reads (char '\'') none ['\''] (us.flatten ++ (['\''] ++ rest)) [] := .one rfl
  have hread : Reads quotedText none ('\'' :: us.flatten ++ ['\'']) rest [] :=
    (hopen.seq hbody).seq (.one rfl)
  refine ⟨by simp, ?_, .left hread⟩
  rintro c ⟨⟩
  decide

theorem isToken_literal (d : Dialect) {v : String} (hv : d = .mysql ∨ '\\' ∉ v.toList)
    (hrest : rest.head? ≠ some '\'') : IsToken (d.textLiteral v).toList rest :=
  isToken_quoted (isQuoted_literal d hv) hrest

end SqlFerry.Sql
