import SqlFerry.Proofs.Splitter.Final
import SqlFerry.Proofs.Splitter.Passing
import SqlFerry.Proofs.Sql.Quoting
import SqlFerry.Proofs.Text.Case
import SqlFerry.Proofs.Text.Cells

/-!
# Scripts made of pieces

A script put together from plain text, quoted literals and names, comments and semicolons, and what
its statements should be: the groups of pieces between the semicolons, with a space for every
comment. What begins the text of a piece, which pieces a splitter keeps apart, and the words of a
group that decide whether it opens a block.
-/

namespace SqlFerry.Splitter

open Text

/-- A piece of a script. Plain text comes one character at a time. -/
inductive Piece where
  | plain (c : Char)
  | literal (text : String)
  | name (name : String)
  | lineComment (content : Chars)
  | blockComment (content : Chars)
  | semicolon
  deriving DecidableEq

namespace Piece

def text (d : Dialect) : Piece → Chars
  | plain c => [c]
  | literal v => (d.literal (.text v)).toList
  | name n => (d.quote n).toList
  | lineComment cs => ['-', '-'] ++ cs ++ ['\n']
  | blockComment cs => ['/', '*'] ++ cs ++ ['*', '/']
  | semicolon => [';']

def cells (d : Dialect) : Piece → List Cell
  | plain c => [(c, false)]
  | p@(literal _) | p@(name _) => (p.text d).map (·, true)
  | lineComment _ | blockComment _ => [(' ', false)]
  | semicolon => []

def isPlain (c : Char) : Bool :=
  isTagChar c || [' ', '\n', '(', ')', ',', '=', '.', '*', '+'].contains c

def IsWhole : Piece → Prop
  | plain c => isPlain c
  | lineComment cs => '\n' ∉ cs
  | blockComment cs => ¬['*', '/'] <:+: cs ∧ cs.head? ≠ some '!'
  | literal _ | name _ | semicolon => True

def isQuoted : Piece → Bool
  | literal _ | name _ => true
  | _ => false

def isSemicolon : Piece → Bool
  | semicolon => true
  | _ => false

def isSolid : Piece → Bool
  | plain c => !isBlank c
  | p => p.isQuoted

def isAlphanumeric : Piece → Bool
  | plain c => isAsciiLetter c || isAsciiDigit c
  | _ => false

/-- Whether the second piece may follow the first: two quoted pieces would be read as one, and a
literal behind a letter may be an escape string. -/
def MayFollow : Piece → Piece → Prop
  | p, literal _ => p.isQuoted = false ∧ p.isAlphanumeric = false
  | p, name _ => p.isQuoted = false
  | _, _ => True

def plainChar : Piece → Char
  | plain c => c
  | _ => ' '

end Piece

/-- The words of a text: what letters, digits and underscores stand together, but for digits at the
front. -/
def scriptWords (cs : Chars) : List Chars :=
  (cs.splitOnP (!isTagChar ·)).map (·.dropWhile isAsciiDigit)

def isDirective (word : Chars) : Bool :=
  upperWord word == "CREATE" || upperWord word == "DELIMITER"

def Undirected (ps : List Piece) : Prop :=
  ∀ w ∈ scriptWords (ps.map Piece.plainChar), isDirective w = false

/-- The pieces of a script that only its semicolons split. -/
structure IsScript (ps : List Piece) : Prop where
  whole : ∀ p ∈ ps, p.IsWhole
  apart : ps.IsChain Piece.MayFollow
  undirected : Undirected ps

def groups (ps : List Piece) : List (List Piece) :=
  (ps.splitOnP Piece.isSemicolon).filter (·.any Piece.isSolid)

section

variable (d : Dialect)

def scriptText (ps : List Piece) : Chars :=
  ps.flatMap (Piece.text d)

def groupCells (ps : List Piece) : List Cell :=
  ps.flatMap (Piece.cells d)

/-- How many characters of a group count: neither comments nor blanks outside quotes do. -/
def groupSize (ps : List Piece) : Nat :=
  (groupCells d ps).countP (!isGap ·)

/-- A statement whose text is that of the group, with a space for every comment, once runs of blanks
are made one space and none stands at the ends; and only blanks outside quotes are touched. -/
structure IsStatementOf (group : List Piece) (st : Statement) : Prop where
  oneLine : oneLine st.text = oneLine (String.ofList ((groupCells d group).map Prod.fst))
  runs : ∃ cells, st.text.toList = cells.map Prod.fst ∧ runs cells = runs (groupCells d group)

end

/-! ## Pieces side by side -/

variable {d : Dialect} {g ps : List Piece} {p : Piece} {dr dr' : Draft} {c : Char} {cs rest : Chars}
  {w : String} {ws : List String}

theorem scriptText_append (ps q : List Piece) :
    scriptText d (ps ++ q) = scriptText d ps ++ scriptText d q :=
  List.flatMap_append

namespace Piece

def IsSound (d : Dialect) : Piece → Prop
  | plain c => c ∉ openers d ∧ c ≠ ';'
  | p => p.IsWhole

theorem IsWhole.isSound (h : p.IsWhole) (d : Dialect) : p.IsSound d := by
  cases p with
  | plain c =>
    have hplain : isPlain c = true := h
    have hopeners : (openers d).any isPlain = false := by
      cases d <;> decide
    constructor
    · intro hc
      exact List.any_eq_false.1 hopeners c hc hplain
    · rintro rfl
      exact absurd hplain (by decide)
  | literal v | name n | lineComment cs | blockComment cs | semicolon => exact h

def isComment : Piece → Bool
  | lineComment _ | blockComment _ => true
  | _ => false

def isLiteral : Piece → Bool
  | literal _ => true
  | _ => false

theorem map_cells (h : p.isSolid = true) : (p.cells d).map Prod.fst = p.text d := by
  cases p with
  | plain c => rfl
  | literal v | name n =>
    rw [cells, List.map_map]
    exact List.map_id _
  | lineComment cs | blockComment cs | semicolon => cases h

/-- Whether the second piece may follow the first: two quoted pieces would be read as one, two
dashes begin a comment, and on PostgreSQL a literal behind a letter may be an escape string. -/
structure MayAdjoin (d : Dialect) (p q : Piece) : Prop where
  quoted : p.isQuoted = true → q.isQuoted = false
  escape : d = .postgresql → q.isLiteral = true → p.isAlphanumeric = false
  dash : p = plain '-' → q ≠ plain '-' ∧ q.isComment = false

theorem MayFollow.mayAdjoin {q : Piece} (h : MayFollow p q) (hp : p ≠ plain '-') (d : Dialect) :
    MayAdjoin d p q where
  quoted := by
    intro hquoted
    cases q with
    | literal v => exact absurd h.1 (by rw [hquoted]; decide)
    | name n => exact absurd (show p.isQuoted = false from h) (by rw [hquoted]; decide)
    | plain c | lineComment cs | blockComment cs | semicolon => rfl
  escape := by
    intro _ hliteral
    cases q with
    | literal v => exact h.2
    | name n | plain c | lineComment cs | blockComment cs | semicolon => cases hliteral
  dash := fun hdash => absurd hdash hp

def isTag : Piece → Bool
  | plain c => isTagChar c
  | _ => false

end Piece

/-! ## Where a piece begins -/

/-- What begins a piece that is not quoted is no quote. -/
theorem head_ne_of_not_quoted {q : Char} (hsound : ∀ p ∈ ps, p.IsSound d)
    (hps : ∀ p ∈ ps.head?, p.isQuoted = false) (hq : q ∈ ['\'', '"', '\x60']) :
    (scriptText d ps).head? ≠ some q := by
  have hne (x : Char) (hx : x ∉ ['\'', '"', '\x60']) : some x ≠ some q := by
    rintro ⟨⟩
    exact hx hq
  cases ps with
  | nil => rintro ⟨⟩
  | cons p ps =>
    have hp := hsound p List.mem_cons_self
    have hquoted := hps p rfl
    cases p with
    | plain c =>
      refine hne c fun hc => hp.1 ?_
      simp only [List.mem_cons, List.not_mem_nil, or_false] at hc
      rcases hc with rfl | rfl | rfl <;> cases d <;> decide
    | literal v => cases hquoted
    | name n => cases hquoted
    | lineComment cs => exact hne '-' (by decide)
    | blockComment cs => exact hne '/' (by decide)
    | semicolon => exact hne ';' (by decide)

/-- What begins a piece that is no character of words ends a word. -/
theorem head_of_not_tag {x : Char} (hsound : ∀ p ∈ ps, p.IsSound d)
    (hps : ∀ p ∈ ps.head?, p.isTag = false) (hx : x ∈ (scriptText d ps).head?) :
    isWordPart x = false := by
  cases ps with
  | nil => cases hx
  | cons p ps =>
    have hp := hsound p List.mem_cons_self
    have htag := hps p rfl
    cases p with
    | plain c =>
      cases hx
      have hdollar : (x == '$') = false := by
        rw [beq_eq_false_iff_ne]
        rintro rfl
        exact hp.1 (by cases d <;> decide)
      rw [isWordPart, hdollar, Bool.or_false]
      exact htag
    | literal v =>
      rw [scriptText, List.flatMap_cons, Piece.text, Dialect.literal,
        Dialect.toList_textLiteral] at hx
      cases hx
      decide
    | name n =>
      rw [scriptText, List.flatMap_cons, Piece.text, Dialect.toList_quote] at hx
      cases hx
      cases d <;> decide
    | lineComment cs =>
      cases hx
      decide
    | blockComment cs =>
      cases hx
      decide
    | semicolon =>
      cases hx
      decide

/-- A dash that may stand before a piece does not make it a comment. -/
theorem head_ne_dash (hps : ∀ q ∈ ps.head?, Piece.MayAdjoin d (.plain '-') q) :
    (scriptText d ps).head? ≠ some '-' := by
  cases ps with
  | nil => rintro ⟨⟩
  | cons p ps =>
    obtain ⟨hdash, hcomment⟩ := (hps p rfl).dash rfl
    cases p with
    | plain c =>
      rintro ⟨⟩
      exact hdash rfl
    | literal v =>
      rw [scriptText, List.flatMap_cons, Piece.text, Dialect.literal, Dialect.toList_textLiteral]
      rintro ⟨⟩
    | name n =>
      rw [scriptText, List.flatMap_cons, Piece.text, Dialect.toList_quote]
      cases d <;> rintro ⟨⟩
    | lineComment cs => cases hcomment
    | blockComment cs => cases hcomment
    | semicolon => rintro ⟨⟩

theorem exists_tags (ps : List Piece) : ∃ (cs : Chars) (ps' : List Piece),
    ps = cs.map Piece.plain ++ ps' ∧
    (∀ x ∈ cs, isTagChar x = true) ∧ ∀ p ∈ ps'.head?, p.isTag = false := by
  induction ps with
  | nil => exact ⟨[], [], rfl, by simp, by simp⟩
  | cons p ps ih =>
    by_cases hp : p.isTag = true
    · obtain ⟨cs, ps', rfl, hcs, hps'⟩ := ih
      cases p with
      | plain c => exact ⟨c :: cs, ps', rfl, by simpa using ⟨hp, hcs⟩, hps'⟩
      | literal v | name n | lineComment cs | blockComment cs | semicolon => cases hp
    · exact ⟨[], p :: ps, rfl, by simp, by simpa using hp⟩

theorem scriptText_plain (cs : Chars) : scriptText d (cs.map Piece.plain) = cs := by
  rw [scriptText, List.flatMap_map]
  exact List.flatMap_singleton' cs

/-! ## Words -/

theorem toNat_of_isTagChar (hc : isTagChar c = true) : c.toNat < 128 := by
  simp only [isTagChar, isWordStart, Bool.or_eq_true, beq_iff_eq] at hc
  rcases hc with (hletter | rfl) | hdigit
  · exact toNat_of_isAsciiLetter hletter
  · decide
  · exact toNat_of_isAsciiDigit hdigit

theorem isAsciiDigit_of_isWordStart (hc : isWordStart c = true) : isAsciiDigit c = false := by
  have hunderscore : c = '_' → isAsciiDigit c = false := by
    rintro rfl
    decide
  simp only [isWordStart, isAsciiLetter, isAsciiDigit, Char.le_def, UInt32.le_iff_toNat_le,
    Bool.or_eq_true, Bool.and_eq_true, decide_eq_true_eq, beq_iff_eq] at hc hunderscore ⊢
  rcases hc with hletter | hc
  · simp at hletter ⊢
    omega
  · exact hunderscore hc

theorem scriptWords_cons_of_not_tag (hc : isTagChar c = false) (cs : Chars) :
    scriptWords (c :: cs) = [] :: scriptWords cs := by
  rw [scriptWords, List.splitOnP_cons_eq_if_modifyHead, if_pos (by rw [hc]; rfl)]
  rfl

theorem scriptWords_cons_of_digit (hc : isAsciiDigit c = true) (cs : Chars) :
    scriptWords (c :: cs) = scriptWords cs := by
  have htag : isTagChar c = true := by rw [isTagChar, hc, Bool.or_true]
  obtain ⟨first, others, hsplit⟩ :=
    List.exists_cons_of_ne_nil (List.splitOnP_ne_nil (!isTagChar ·) cs)
  rw [scriptWords, scriptWords, List.splitOnP_cons_eq_if_modifyHead, if_neg (by simp [htag]),
    hsplit, List.modifyHead_cons, List.map_cons, List.map_cons, List.dropWhile_cons_of_pos hc]

/-- A word and what is behind it. -/
theorem scriptWords_word (hc : isWordStart c = true) (hcs : ∀ x ∈ cs, isTagChar x = true)
    (hrest : ∀ x ∈ rest.head?, isTagChar x = false) :
    ∃ others, scriptWords (c :: cs ++ rest) = (c :: cs) :: others ∧
      scriptWords rest = [] :: others := by
  have htag : ∀ x ∈ c :: cs, (!isTagChar x) = false := by
    intro x hx
    rw [Bool.not_eq_false']
    rcases List.mem_cons.1 hx with rfl | hx
    · rw [isTagChar, hc, Bool.true_or]
    · exact hcs x hx
  have hfirst : (c :: cs).dropWhile isAsciiDigit = c :: cs := by
    rw [List.dropWhile_cons_of_neg (by simp [isAsciiDigit_of_isWordStart hc])]
  cases rest with
  | nil =>
    refine ⟨[], ?_, rfl⟩
    rw [List.append_nil, scriptWords, List.splitOnP_eq_singleton htag, List.map_singleton, hfirst]
  | cons x rest =>
    have hx := hrest x rfl
    refine ⟨scriptWords rest, ?_, scriptWords_cons_of_not_tag hx rest⟩
    rw [scriptWords, List.splitOnP_append_cons_of_forall_mem htag x (by rw [hx]; rfl),
      List.map_cons, hfirst]
    rfl

/-! ## Headers -/

def headerWords (ps : List Piece) : List String :=
  ((scriptWords ((ps.takeWhile (!·.isSemicolon)).map Piece.plainChar)).filter
    (!·.isEmpty)).map upperWord

theorem headerWords_cons (hp : p.isSemicolon = false) (hword : isWordStart p.plainChar = false) :
    headerWords (p :: ps) = headerWords ps := by
  rw [headerWords, List.takeWhile_cons_of_pos (by rw [hp]; rfl), List.map_cons]
  by_cases hdigit : isAsciiDigit p.plainChar = true
  · rw [scriptWords_cons_of_digit hdigit, headerWords]
  · have htag : isTagChar p.plainChar = false := by simp [isTagChar, hword, hdigit]
    rw [scriptWords_cons_of_not_tag htag]
    rfl

theorem headerWords_append_semicolon (hps : ∀ p ∈ ps, p.isSemicolon = false) (b : List Piece) :
    headerWords (ps ++ .semicolon :: b) = headerWords ps := by
  have hkeep : ∀ p ∈ ps, (!p.isSemicolon) = true := fun p hp => by rw [hps p hp]; rfl
  rw [headerWords, headerWords, List.takeWhile_append_of_pos hkeep,
    List.takeWhile_cons_of_neg (by decide), List.append_nil, List.takeWhile_eq_self_iff.2 hkeep]

theorem headerWords_word (hc : isWordStart c = true) (hcs : ∀ x ∈ cs, isTagChar x = true)
    (hps : ∀ p ∈ ps.head?, p.isTag = false) :
    headerWords ((c :: cs).map .plain ++ ps) = upperWord (c :: cs) :: headerWords ps := by
  have hplain : ∀ p ∈ (c :: cs).map Piece.plain, (!p.isSemicolon) = true := by
    intro p hp
    obtain ⟨x, -, rfl⟩ := List.mem_map.1 hp
    rfl
  have hchars : ((c :: cs).map Piece.plain).map Piece.plainChar = c :: cs := by
    rw [List.map_map]
    exact List.map_id _
  have hrest : ∀ x ∈ ((ps.takeWhile (!·.isSemicolon)).map Piece.plainChar).head?,
      isTagChar x = false := by
    intro x hx
    rw [List.head?_map] at hx
    obtain ⟨p, hp, rfl⟩ := Option.map_eq_some_iff.1 hx
    have htag : p.isTag = false := by
      cases ps with
      | nil => cases hp
      | cons p' ps =>
        rw [List.takeWhile_cons] at hp
        split at hp
        · cases hp
          exact hps _ rfl
        · cases hp
    cases p with
    | plain c => exact htag
    | literal v | name n | lineComment cs | blockComment cs | semicolon =>
      exact (by decide : isTagChar ' ' = false)
  obtain ⟨others, hword, hothers⟩ := scriptWords_word hc hcs hrest
  rw [headerWords, List.takeWhile_append_of_pos hplain, List.map_append, hchars, hword,
    headerWords, hothers]
  rfl

theorem foldl_readHeader_congr (hheader : dr.header = dr'.header)
    (hcompound : dr.compound = dr'.compound) :
    (ws.foldl Draft.readHeader dr).compound = (ws.foldl Draft.readHeader dr').compound := by
  induction ws generalizing dr dr' with
  | nil => exact hcompound
  | cons w ws ih =>
    refine ih ?_ ?_
    · simp only [Draft.readHeader, hheader]
      split <;> [rfl; exact hheader]
    · simp only [Draft.readHeader, hheader, hcompound]
      split <;> [rfl; exact hcompound]

theorem foldl_readHeader_of_some {b : Bool} (h : dr.compound = some b) :
    (ws.foldl Draft.readHeader dr).compound = some b := by
  induction ws generalizing dr with
  | nil => exact h
  | cons w ws ih =>
    refine ih ?_
    unfold Draft.readHeader
    split
    · simp only [h]
    · exact h

/-- Whether the words of the group under way leave the splitter as it is: they neither open a block
nor set a delimiter. -/
structure Calm (dr : Draft) (ps : List Piece) : Prop where
  header : ((headerWords ps).foldl Draft.readHeader dr).compound ≠ some true
  opening : dr.start = none → (headerWords ps).head? ≠ some "DELIMITER"

namespace Calm

theorem compound (h : Calm dr ps) : dr.compound ≠ some true :=
  fun hc => h.header (foldl_readHeader_of_some hc)

theorem tail (h : Calm dr (p :: ps)) (hp : p.isSemicolon = false)
    (hword : isWordStart p.plainChar = false) (hheader : dr'.header = dr.header)
    (hcompound : dr'.compound = dr.compound) (hstart : dr'.start = none → dr.start = none) :
    Calm dr' ps := by
  obtain ⟨hh, ho⟩ := h
  rw [headerWords_cons hp hword] at hh ho
  exact ⟨foldl_readHeader_congr hheader hcompound ▸ hh, fun hs => ho (hstart hs)⟩

theorem word (h : Calm dr ((c :: cs).map .plain ++ ps)) (hc : isWordStart c = true)
    (hcs : ∀ x ∈ cs, isTagChar x = true) (hps : ∀ p ∈ ps.head?, p.isTag = false)
    (hheader : dr'.header = (dr.readHeader (upperWord (c :: cs))).header)
    (hcompound : dr'.compound = (dr.readHeader (upperWord (c :: cs))).compound)
    (hstart : dr'.start.isSome = true) : Calm dr' ps := by
  obtain ⟨hh, -⟩ := h
  rw [headerWords_word hc hcs hps, List.foldl_cons] at hh
  refine ⟨foldl_readHeader_congr hheader hcompound ▸ hh, fun hs => ?_⟩
  rw [hs] at hstart
  cases hstart

theorem first (h : Calm dr ((c :: cs).map .plain ++ ps)) (hc : isWordStart c = true)
    (hcs : ∀ x ∈ cs, isTagChar x = true) (hps : ∀ p ∈ ps.head?, p.isTag = false) :
    (dr.start = none → upperWord (c :: cs) ≠ "DELIMITER") ∧
      (dr.readHeader (upperWord (c :: cs))).compound ≠ some true := by
  obtain ⟨hh, ho⟩ := h
  rw [headerWords_word hc hcs hps] at hh ho
  exact ⟨fun hs hd => ho hs (hd ▸ rfl),
    fun hs => hh (by rw [List.foldl_cons, foldl_readHeader_of_some hs])⟩

theorem append_semicolon (h : Calm dr ps) (hps : ∀ p ∈ ps, p.isSemicolon = false)
    (b : List Piece) : Calm dr (ps ++ .semicolon :: b) := by
  have hwords := headerWords_append_semicolon hps b
  exact ⟨hwords ▸ h.header, hwords ▸ h.opening⟩

end Calm

/-! ## Scripts without directives -/

theorem scriptWords_append_cons (hc : isTagChar c = false) (a b : Chars) :
    scriptWords (a ++ c :: b) = scriptWords a ++ scriptWords b := by
  rw [scriptWords, List.splitOnP_append_cons _ _ (by rw [hc]; rfl), List.map_append]
  rfl

theorem Undirected.of_semicolon {a b : List Piece} (h : Undirected (a ++ .semicolon :: b)) :
    Undirected b := by
  unfold Undirected at h ⊢
  rw [List.map_append, List.map_cons, show Piece.semicolon.plainChar = ' ' from rfl,
    scriptWords_append_cons (by decide)] at h
  exact fun w hw => h w (List.mem_append_right _ hw)

theorem exists_of_mem_headerWords (hw : w ∈ headerWords ps) :
    ∃ x ∈ scriptWords (ps.map Piece.plainChar), w = upperWord x := by
  obtain ⟨x, hx, rfl⟩ := List.mem_map.1 hw
  have hx := (List.mem_filter.1 hx).1
  refine ⟨x, ?_, rfl⟩
  rw [← List.takeWhile_append_dropWhile (p := (!Piece.isSemicolon ·)) (l := ps), List.map_append]
  cases hdrop : ps.dropWhile (!Piece.isSemicolon ·) with
  | nil => simpa using hx
  | cons q others =>
    have hq : q.plainChar = ' ' := by
      have hq := List.head_dropWhile_not (p := (!Piece.isSemicolon ·)) (l := ps) (by simp [hdrop])
      simp only [hdrop, List.head_cons, Bool.not_eq_false'] at hq
      cases q with
      | semicolon => rfl
      | plain c | literal v | name n | lineComment cs | blockComment cs => cases hq
    rw [List.map_cons, hq, scriptWords_append_cons (by decide)]
    exact List.mem_append_left _ hx

theorem Undirected.calm (h : Undirected ps) (hc : dr.compound = none) (hh : dr.header = []) :
    Calm dr ps := by
  have hword (w : String) (hw : w ∈ headerWords ps) : w ≠ "CREATE" ∧ w ≠ "DELIMITER" := by
    obtain ⟨x, hx, rfl⟩ := exists_of_mem_headerWords hw
    have := h x hx
    simpa [isDirective] using this
  constructor
  · cases hws : headerWords ps with
    | nil => simp [hc]
    | cons w ws =>
      have hw := (hword w (by rw [hws]; exact List.mem_cons_self)).1
      have hfirst : (dr.readHeader w).compound = some false := by
        simp [Draft.readHeader, hc, hh, Draft.headerLength, Draft.detect, hw]
      rw [List.foldl_cons, foldl_readHeader_of_some hfirst]
      simp
  · intro _ hhead
    exact (hword _ (List.mem_of_mem_head? hhead)).2 rfl

end SqlFerry.Splitter
