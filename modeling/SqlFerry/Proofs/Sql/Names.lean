import SqlFerry.Proofs.Pattern.Words
import SqlFerry.Proofs.Sql.Quoting
import SqlFerry.Proofs.Text.Reflow

/-!
# Reading names

A name that a dialect writes in its quotes is read by the patterns for names up to its closing
quote, and gives back the name; so is a bare word.
-/

namespace SqlFerry

open Text Pattern

namespace Sql

variable {before : Option Char} {cs w rest : Chars} {q : Char} {n : String} {p : Parts}

/-! ## Names in quotes -/

theorem head?_quote (d : Dialect) (n : String) : (d.quote n).toList.head? = some d.nameQuote := by
  rw [Dialect.toList_quote]
  rfl

theorem getLast?_quote (d : Dialect) (n : String) :
    (d.quote n).toList.getLast? = some d.nameQuote := by
  rw [Dialect.toList_quote, List.getLast?_append, List.getLast?_singleton, Option.some_or]

theorem reads_quotedIdent (d : Dialect) (n : String) (h : rest.head? ≠ some d.nameQuote) :
    Reads quotedIdent before (d.quote n).toList rest [] := by
  have hread : Reads (doubled d.nameQuote) before (d.quote n).toList rest [] :=
    Dialect.toList_quote d n ▸ reads_doubled h
  have hdouble : d.nameQuote = '"' → Reads quotedIdent before (d.quote n).toList rest [] :=
    fun hq => .left (a := quotedBy '"') (hq ▸ hread)
  cases d with
  | mysql =>
    refine .right (a := quotedBy '"') (.seq_left (.seq_left (.one ?_))) (.left hread)
    intro c hc
    rw [List.head?_append, head?_quote, Option.some_or, Option.mem_some_iff] at hc
    rw [← hc]
    rfl
  | sqlite => exact hdouble rfl
  | postgresql => exact hdouble rfl

theorem reads_ident (d : Dialect) (n : String) (h : rest.head? ≠ some d.nameQuote) :
    Reads ident before (d.quote n).toList rest [] :=
  .left (reads_quotedIdent d n h)

def dottedIdent : Pattern :=
  blanks ++ char '.' ++ blanks ++ ident

theorem refuses_dotted (hdot : (trimLeft rest).head? ≠ some '.') :
    Refuses dottedIdent before rest := by
  refine .seq_left (.seq_left (refuses_blanks_one (fun c hc => ?_) fun c hc => ?_))
  · rw [beq_eq_false_iff_ne]
    rintro rfl
    exact hdot hc
  · rw [beq_eq_false_iff_ne]
    rintro rfl
    exact absurd hc (by decide)

/-- What is read as a name is read as a qualified name where no dot follows. -/
theorem reads_qname (h : Reads ident before cs rest []) (hdot : (trimLeft rest).head? ≠ some '.') :
    Reads qname before cs rest [] := by
  have hseq : Reads (ident ++ Pattern.star dottedIdent) before (cs ++ []) rest ([] ++ []) :=
    .seq (by simpa using h) (.star_nil (refuses_dotted hdot))
  rw [List.append_nil, List.append_nil] at hseq
  exact hseq

theorem foldl_add_quoted (hq : q = '"' ∨ q = '\x60') (hp : p.until? = none) (cs : Chars) :
    (q :: double q cs ++ [q]).foldl Parts.add p =
      { p with part := (q :: double q cs ++ [q]).reverse ++ p.part } := by
  obtain ⟨quote, part, done⟩ := p
  obtain rfl : quote = none := hp
  have opening (part : Chars) :
      Parts.add ⟨none, part, done⟩ q = ⟨some q, q :: part, done⟩ := by
    rcases hq with rfl | rfl <;> rfl
  have closing (part : Chars) :
      Parts.add ⟨some q, part, done⟩ q = ⟨none, q :: part, done⟩ := by
    simp [Parts.add]
  have body (part : Chars) : (double q cs).foldl Parts.add ⟨some q, part, done⟩ =
      ⟨some q, (double q cs).reverse ++ part, done⟩ := by
    induction cs generalizing part with
    | nil => rfl
    | cons c cs ih =>
      rw [double, List.flatMap_cons, ← double, List.foldl_append, List.reverse_append]
      split
      · rw [List.foldl_cons, List.foldl_cons, List.foldl_nil, closing, opening, ih]
        simp
      · next hc =>
        have hinside : Parts.add ⟨some q, part, done⟩ c = ⟨some q, c :: part, done⟩ := by
          simp [Parts.add, hc]
        rw [List.foldl_cons, List.foldl_nil, hinside, ih]
        simp
  rw [List.cons_append, List.foldl_cons, opening, List.foldl_append, body, List.foldl_cons,
    closing]
  simp

theorem nameQuote_cases (d : Dialect) : d.nameQuote = '"' ∨ d.nameQuote = '\x60' := by
  cases d with
  | mysql => exact .inr rfl
  | sqlite | postgresql => exact .inl rfl

theorem not_isBlank_nameQuote (d : Dialect) : isBlank d.nameQuote = false := by
  rcases nameQuote_cases d with h | h <;> rw [h] <;> decide

/-- What begins with a name in quotes begins with no blank. -/
theorem not_isBlank_head?_quote (d : Dialect) (n : String) (rest : Chars) :
    ∀ c ∈ ((d.quote n).toList ++ rest).head?, isBlank c = false := by
  rw [List.head?_append, head?_quote]
  rintro c ⟨⟩
  exact not_isBlank_nameQuote d

theorem trim_quote (d : Dialect) (n : String) : trim (d.quote n).toList = (d.quote n).toList := by
  refine trim_eq_self ?_ ?_
  · rw [head?_quote]
    exact fun c hc => Option.mem_some_iff.1 hc ▸ not_isBlank_nameQuote d
  · rw [getLast?_quote]
    exact fun c hc => Option.mem_some_iff.1 hc ▸ not_isBlank_nameQuote d

theorem lastPart_quote (d : Dialect) (n : String) :
    lastPart (d.quote n).toList = (d.quote n).toList := by
  rw [lastPart, Dialect.toList_quote, foldl_add_quoted (nameQuote_cases d) rfl]
  simp

/-- What has a written name for its last part is read as that name. -/
theorem unquote_of_lastPart (d : Dialect) (h : trim (lastPart (trim cs)) = (d.quote n).toList) :
    unquote cs = n := by
  have hlength : ¬(d.quote n).toList.length < 2 := by
    rw [Dialect.toList_quote]
    simp
  have hmark : (d.nameQuote == '"' || d.nameQuote == '\x60') = true := by
    rcases nameQuote_cases d with h | h <;> rw [h] <;> rfl
  rw [unquote, unquoteChars, h]
  simp only [head?_quote, getLast?_quote, hlength, if_false, beq_self_eq_true, hmark, Bool.and_self,
    if_true]
  rw [Dialect.toList_quote, inner_enclosed, undouble, String.ofList_toList]

/-- Unquoting a written name gives it back. -/
theorem unquote_quote (d : Dialect) (n : String) : unquote (d.quote n).toList = n := by
  refine unquote_of_lastPart d ?_
  rw [trim_quote, lastPart_quote, trim_quote]

/-! ## Bare words -/

structure IsWordText (w : Chars) : Prop where
  ne_nil : w ≠ []
  isWord : ∀ c ∈ w, isWord c = true

namespace IsWordText

theorem ne_of_mem (h : IsWordText w) {c x : Char} (hc : c ∈ w) (hx : Text.isWord x = false) :
    c ≠ x := by
  rintro rfl
  rw [h.isWord c hc] at hx
  cases hx

theorem reads_ident (h : IsWordText w) (hrest : ∀ c ∈ rest.head?, isBare c = false) :
    Reads ident before w rest [] := by
  have hhead {q : Char} (hq : Text.isWord q = false) :
      ∀ c ∈ (w ++ rest).head?, (c == q) = false := by
    intro c hc
    rw [beq_eq_false_iff_ne]
    obtain ⟨x, xs, rfl⟩ := List.exists_cons_of_ne_nil h.ne_nil
    cases hc
    exact h.ne_of_mem List.mem_cons_self hq
  refine .right (.alt (.seq_left (.seq_left (.one (hhead (by decide)))))
    (.alt (.seq_left (.seq_left (.one (hhead (by decide)))))
      (.seq_left (.seq_left (.one (hhead (by decide))))))) ?_
  exact reads_plus_one h.ne_nil (fun c hc => by rw [isBare, h.isWord c hc, Bool.true_or]) hrest

theorem not_isBlank (h : IsWordText w) : ∀ c ∈ w, isBlank c = false :=
  fun c hc => not_isBlank_of_isWord (h.isWord c hc)

theorem beginsSolid (h : IsWordText w) (rest : Chars) : BeginsSolid (w ++ rest) :=
  BeginsSolid.append (fun c hc => h.not_isBlank c (List.mem_of_mem_head? hc)) h.ne_nil rest

theorem trim (h : IsWordText w) : Text.trim w = w :=
  trim_eq_self (fun c hc => h.not_isBlank c (List.mem_of_mem_head? hc))
    fun c hc => h.not_isBlank c (List.mem_of_mem_getLast? hc)

theorem lastPart (h : IsWordText w) : lastPart w = w := by
  have hfold (p : Parts) (hp : p.until? = none) (cs : Chars) (hcs : ∀ c ∈ cs, c ∈ w) :
      cs.foldl Parts.add p = { p with part := cs.reverse ++ p.part } := by
    obtain ⟨quote, part, done⟩ := p
    obtain rfl : quote = none := hp
    induction cs generalizing part with
    | nil => rfl
    | cons c cs ih =>
      have hc (x : Char) (hx : Text.isWord x = false) : (c == x) = false :=
        beq_eq_false_iff_ne.2 (h.ne_of_mem (hcs c List.mem_cons_self) hx)
      have hadd : Parts.add ⟨none, part, done⟩ c = ⟨none, c :: part, done⟩ := by
        simp [Parts.add, hc '"' (by decide), hc '\x60' (by decide), hc '[' (by decide),
          hc '.' (by decide)]
      rw [List.foldl_cons, hadd, ih fun x hx => hcs x (List.mem_cons_of_mem _ hx)]
      simp
  rw [Sql.lastPart, hfold {} rfl w fun _ hc => hc]
  simp

theorem unquote (h : IsWordText w) : unquote w = String.ofList w := by
  have hhead {q : Char} (hq : Text.isWord q = false) (c : Char) (hc : w.head? = some c) :
      (c == q) = false :=
    beq_eq_false_iff_ne.2 (h.ne_of_mem (List.mem_of_mem_head? hc) hq)
  rw [Sql.unquote, unquoteChars, h.trim, h.lastPart, h.trim]
  congr 1
  cases ha : w.head? with
  | none => simp
  | some a =>
    cases hz : w.getLast? with
    | none => rfl
    | some z =>
      simp [hhead (q := '"') (by decide) a ha, hhead (q := '\x60') (by decide) a ha,
        hhead (q := '[') (by decide) a ha]

end IsWordText

end Sql

end SqlFerry
