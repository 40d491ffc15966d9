import SqlFerry.Proofs.Ddl.References
import SqlFerry.Proofs.Splitter.Statements

/-!
# Clauses of columns

The clauses of a column as people write them: keywords in either case, any blanks between the parts,
literals, expressions and names of every kind. What a clause gives its column does not depend on
the clauses around it, but a reference takes all that follows it.
-/

namespace SqlFerry.Ddl

open Text Pattern Sql
open Splitter (EndsSolid)

variable {k : String} {w u v n g x y q e pre rest text more : Chars} {c : Column}
  {es : List Extra} {t : Token} {ts us : List Token} {offset : Nat}

/-! ## Keywords -/

def EitherCase (k : String) (w : Chars) : Prop :=
  w.map Char.toUpper = k.toList

instance (k : String) (w : Chars) : Decidable (EitherCase k w) :=
  inferInstanceAs (Decidable (_ = _))

def clauseWords : List String :=
  ["UNSIGNED", "NOT", "NULL", "DEFAULT", "UNIQUE", "KEY", "CHECK", "COLLATE", "COMMENT",
    "REFERENCES"]

theorem toNat_of_toUpper {x : Char} (h : isAsciiLetter x.toUpper = true) : x.toNat < 128 := by
  unfold Char.toUpper at h
  split at h
  · next hlower =>
    have hn : x.val.toNat = x.toNat := rfl
    simp only [UInt32.le_iff_toNat_le, hn] at hlower
    simp at hlower
    omega
  · exact toNat_of_isAsciiLetter h

theorem isWord_of_toUpper {x : Char} (h : isAsciiLetter x.toUpper = true) : isWord x = true := by
  have hall : isAsciiLetter x.toUpper = true → isWord x = true :=
    of_ascii x (toNat_of_toUpper h) (by decide)
  exact hall h

namespace EitherCase

theorem isAsciiLetter (h : EitherCase k w) (hk : k ∈ clauseWords) :
    ∀ c ∈ w, Text.isAsciiLetter c.toUpper = true := by
  have hall : ∀ k ∈ clauseWords, k.toList.all Text.isAsciiLetter = true := by decide
  intro c hc
  have hmem : c.toUpper ∈ k.toList := h ▸ List.mem_map_of_mem hc
  exact List.all_eq_true.1 (hall k hk) _ hmem

theorem isWordText (h : EitherCase k w) (hk : k ∈ clauseWords) : IsWordText w where
  ne_nil := by
    have hne : ∀ k ∈ clauseWords, k.toList ≠ [] := by decide
    rintro rfl
    exact hne k hk h.symm
  isWord := fun c hc => isWord_of_toUpper (h.isAsciiLetter hk c hc)

theorem upper (h : EitherCase k w) (hk : k ∈ clauseWords) : upper (ofChars w) = k := by
  have hchar (c : Char) (hc : c ∈ w) : upperChar c = [c.toUpper] := by
    rw [upperChar, if_pos (toNat_of_toUpper (h.isAsciiLetter hk c hc))]
  have hmap : w.flatMap upperChar = w.map Char.toUpper := by
    rw [List.map_eq_flatMap]
    exact List.flatMap_congr hchar
  apply String.toList_injective
  rw [toList_upper, ofChars, String.toList_ofList, hmap, h]

theorem tokensAt (h : EitherCase k w) (hk : k ∈ clauseWords) (offset : Nat)
    (hrest : ∀ c ∈ rest.head?, isRunChar c = false) : tokensAt offset (w ++ rest) =
      ⟨w, offset, offset + w.length⟩ :: Sql.tokensAt (offset + w.length) rest :=
  tokensAt_token offset (isToken_word (h.isWordText hk) hrest)

end EitherCase

/-! ## Names -/

inductive IsName : Chars → Prop where
  | word {n : Chars} (hn : IsWordText n) : IsName n
  | quoted (d : Dialect) (n : String) : IsName (d.quote n).toList

def nameMarks : List Char :=
  ['(', '[']

def EndsName (rest : Chars) : Prop :=
  ∀ c ∈ rest.head?, isBlank c = true ∨ c ∈ nameMarks

theorem EndsName.ne {x : Char} (h : EndsName rest) (hblank : isBlank x = false)
    (hx : x ∉ nameMarks) : rest.head? ≠ some x := by
  intro hc
  rcases h x hc with hc | hc
  · rw [hblank] at hc
    cases hc
  · exact hx hc

theorem EndsName.isRunChar (h : EndsName rest) : ∀ c ∈ rest.head?, isRunChar c = false := by
  have hmarks : ∀ c ∈ nameMarks, Sql.isRunChar c = false := by decide
  intro c hc
  rcases h c hc with hblank | hmark
  · rw [Bool.eq_false_iff]
    intro hrun
    rw [not_isBlank_of_isRunChar hrun] at hblank
    cases hblank
  · exact hmarks c hmark

theorem EndsName.isBare (h : EndsName rest) : ∀ c ∈ rest.head?, isBare c = false := by
  intro c hc
  have hrun := h.isRunChar c hc
  rw [Sql.isRunChar, Bool.or_eq_false_iff] at hrun
  exact hrun.1

theorem EndsName.not_quote (h : EndsName rest) : ∀ c ∈ rest.head?, c ∉ ['\'', '"', '\x60'] := by
  intro c hc hmem
  simp only [List.mem_cons, List.not_mem_nil, or_false] at hmem
  rcases hmem with rfl | rfl | rfl <;> exact h.ne (by decide) (by decide) hc

theorem endsName_of_blank (h : ∀ c ∈ rest.head?, isBlank c = true) : EndsName rest :=
  fun c hc => .inl (h c hc)

namespace IsName

theorem head?_ne_nameQuote (d : Dialect) (hrest : EndsName rest) :
    rest.head? ≠ some d.nameQuote := by
  refine hrest.ne (not_isBlank_nameQuote d) ?_
  cases d <;> decide

theorem isToken (h : IsName n) (hrest : EndsName rest) : IsToken n rest := by
  cases h with
  | word hn => exact isToken_word hn hrest.isRunChar
  | quoted d n => exact isToken_quote d n (head?_ne_nameQuote d hrest)

theorem reads_ident {before : Option Char} (h : IsName n)
    (hbare : ∀ c ∈ rest.head?, isBare c = false)
    (hquote : ∀ d : Dialect, rest.head? ≠ some d.nameQuote) : Reads ident before n rest [] := by
  cases h with
  | word hn => exact hn.reads_ident hbare
  | quoted d n => exact Sql.reads_ident d n (hquote d)

theorem reads_ident_end {before : Option Char} (h : IsName n) (hrest : EndsName rest) :
    Reads ident before n rest [] :=
  h.reads_ident hrest.isBare fun d => head?_ne_nameQuote d hrest

theorem ne_nil (h : IsName n) : n ≠ [] := by
  cases h with
  | word hn => exact hn.ne_nil
  | quoted d n =>
    rw [Dialect.toList_quote]
    simp

theorem beginsSolid (h : IsName n) : BeginsSolid n := by
  cases h with
  | word hn => exact fun c hc => hn.not_isBlank c (List.mem_of_mem_head? hc)
  | quoted d n => exact (isItem_quote d n).first

theorem last (h : IsName n) : ∀ c ∈ n.getLast?, isBlank c = false := by
  cases h with
  | word hn => exact fun c hc => hn.not_isBlank c (List.mem_of_mem_getLast? hc)
  | quoted d n => exact (isItem_quote d n).last

end IsName

inductive IsTableName : Chars → Prop where
  | one {n : Chars} (hn : IsName n) : IsTableName n
  | dotted {n x : Chars} (hn : IsName n) (hx : IsTableName x) : IsTableName (n ++ '.' :: x)

namespace IsTableName

theorem exists_name (h : IsTableName x) : ∃ n more, x = n ++ more ∧ IsName n := by
  cases h with
  | one hn => exact ⟨x, [], (List.append_nil x).symm, hn⟩
  | dotted hn => exact ⟨_, _, rfl, hn⟩

theorem beginsSolid (h : IsTableName x) (rest : Chars) : BeginsSolid (x ++ rest) := by
  obtain ⟨n, more, rfl, hn⟩ := h.exists_name
  rw [List.append_assoc]
  exact hn.beginsSolid.append hn.ne_nil _

theorem reads_dotted {before : Option Char} (hn : IsName n)
    (hbare : ∀ c ∈ rest.head?, isBare c = false)
    (hquote : ∀ d : Dialect, rest.head? ≠ some d.nameQuote) :
    Reads dottedIdent before ('.' :: n) rest [] := by
  have hnone : ∀ c ∈ ([] : Chars), isBlank c = true := List.forall_mem_nil _
  have hgap (before : Option Char) : Reads blanks before [] (n ++ rest) [] :=
    reads_blanks hnone (hn.beginsSolid.append hn.ne_nil rest)
  have hlead : Reads blanks before [] (['.'] ++ ([] ++ (n ++ rest))) [] :=
    reads_blanks hnone (by rintro c ⟨⟩; decide)
  exact ((hlead.seq (.one rfl)).seq (hgap _)).seq (hn.reads_ident hbare hquote)

/-- The names behind the first are read with it where neither a name nor a dot goes on. -/
theorem reads_star {before : Option Char} (h : IsTableName x) (hrest : EndsName rest)
    (hdot : (trimLeft rest).head? ≠ some '.') :
    Reads (star dottedIdent) before ('.' :: x) rest [] := by
  induction h generalizing before with
  | @one n hn =>
    have hpart : Reads dottedIdent before ('.' :: n) ([] ++ rest) [] :=
      reads_dotted hn hrest.isBare fun d => IsName.head?_ne_nameQuote d hrest
    have hwhole := hpart.star_cons (List.cons_ne_nil _ _) (.star_nil (refuses_dotted hdot))
    rwa [List.append_nil] at hwhole
  | @dotted n x hn _ ih =>
    have hpart : Reads dottedIdent before ('.' :: n) ('.' :: x ++ rest) [] :=
      reads_dotted hn (by rintro c ⟨⟩; decide) (by rintro ⟨⟩ ⟨⟩)
    exact hpart.star_cons (List.cons_ne_nil _ _) ih

theorem reads_qname {before : Option Char} (h : IsTableName x) (hrest : EndsName rest)
    (hdot : (trimLeft rest).head? ≠ some '.') : Reads qname before x rest [] := by
  cases h with
  | one hn => exact Sql.reads_qname (hn.reads_ident_end hrest) hdot
  | @dotted n x hn hx =>
    have hfirst : Reads ident before n ('.' :: x ++ rest) [] :=
      hn.reads_ident (by rintro c ⟨⟩; decide) (by rintro ⟨⟩ ⟨⟩)
    exact hfirst.seq (hx.reads_star hrest hdot)

end IsTableName

/-! ## Literals -/

inductive IsQuotedText : Chars → Prop where
  | single {q : Chars} (hq : IsQuoted q) : IsQuotedText q
  | double (d : Dialect) (v : String) : IsQuotedText (d.quote v).toList

namespace IsQuotedText

theorem isItem (h : IsQuotedText q) : IsItem q := by
  cases h with
  | double d v => exact isItem_quote d v
  | single hq =>
    obtain @⟨us, hus⟩ := hq
    have hsingle : Single ('\'' :: us.flatMap id ++ ['\'']) := .quoted (.inl rfl) hus
    rw [List.flatMap_id] at hsingle
    refine ⟨hsingle, by simp, by rintro c ⟨⟩; decide, ?_⟩
    rw [List.getLast?_append]
    rintro c ⟨⟩
    decide

theorem isToken (h : IsQuotedText q) (hrest : ∀ c ∈ rest.head?, c ∉ ['\'', '"', '\x60']) :
    IsToken q rest := by
  cases h with
  | single hq => exact isToken_quoted hq fun h => hrest _ h (by decide)
  | double d v => exact isToken_quote d v fun h => hrest _ h (by cases d <;> decide)

theorem isStop (h : IsQuotedText q) (hq : t.text = q) : isStop t = false := by
  have hhead : q.head? = some '\'' ∨ q.head? = some '"' ∨ q.head? = some '\x60' := by
    cases h with
    | single hq => exact .inl hq.head?
    | double d v =>
      rw [head?_quote]
      rcases nameQuote_cases d with h | h <;> rw [h] <;> simp
  rw [← hq] at hhead
  rcases hhead with h | h | h <;> exact isStop_of_head? h rfl rfl

theorem stringValues (h : IsQuotedText q) : stringValues q = [stringValue q] := by
  have hitems : items ([] ++ [','].intercalate [q] ++ []) = [q] :=
    items_intercalate (List.forall_mem_singleton.2 h.isItem) (List.forall_mem_nil _)
      (List.forall_mem_nil _) (List.forall_mem_nil _)
  rw [List.nil_append, List.append_nil, List.intercalate_singleton] at hitems
  rw [Sql.stringValues, hitems, List.map_singleton]

end IsQuotedText

/-- The parts of a literal: runs of letters, digits and points, none of them a word that begins a
clause, signs, and texts in quotes. -/
inductive IsLiteral : Chars → Prop where
  | nil : IsLiteral []
  | run {w v : Chars} (hne : w ≠ []) (hw : ∀ c ∈ w, isRunChar c = true)
      (hstop : upper (ofChars w) ∉ stopWords) (hv : ∀ c ∈ v.head?, isRunChar c = false)
      (h : IsLiteral v) : IsLiteral (w ++ v)
  | sign {c : Char} {v : Chars} (hc : c = '+' ∨ c = '-') (h : IsLiteral v) : IsLiteral (c :: v)
  | quoted {q v : Chars} (hq : IsQuotedText q) (hv : ∀ c ∈ v.head?, c ∉ ['\'', '"', '\x60'])
      (h : IsLiteral v) : IsLiteral (q ++ v)

inductive Row : List Token → Nat → Nat → Prop where
  | nil (start : Nat) : Row [] start start
  | cons {x : Chars} {us : List Token} {start stop : Nat}
      (hx : isStop ⟨x, start, start + x.length⟩ = false) (h : Row us (start + x.length) stop) :
      Row (⟨x, start, start + x.length⟩ :: us) start stop

theorem Row.isValue {start stop : Nat} (h : Row us start stop) (hne : us ≠ []) :
    IsValue us start stop := by
  induction h with
  | nil => exact absurd rfl hne
  | @cons x us start stop hx h ih =>
    cases h with
    | nil => exact ⟨List.forall_mem_singleton.2 hx, ⟨_, rfl, rfl⟩, ⟨_, rfl, rfl⟩⟩
    | cons hy h =>
      have htail := ih (List.cons_ne_nil _ _)
      refine ⟨List.forall_mem_cons.2 ⟨hx, htail.values⟩, ⟨_, rfl, rfl⟩, ?_⟩
      rw [List.getLast?_cons_of_ne_nil (List.cons_ne_nil _ _)]
      exact htail.last

/-- The tokens of a literal end no default. -/
theorem IsLiteral.exists_row (h : IsLiteral v) (hrest : ∀ c ∈ rest.head?, isBlank c = true)
    (offset : Nat) : ∃ us, tokensAt offset (v ++ rest) = us ++ tokensAt (offset + v.length) rest ∧
      Row us offset (offset + v.length) := by
  have part {x v : Chars} {offset : Nat} (hx : IsToken x (v ++ rest))
      (hstop : isStop ⟨x, offset, offset + x.length⟩ = false)
      (ih : ∃ us, tokensAt (offset + x.length) (v ++ rest) =
          us ++ tokensAt (offset + x.length + v.length) rest ∧
            Row us (offset + x.length) (offset + x.length + v.length)) :
      ∃ us, tokensAt offset (x ++ v ++ rest) = us ++ tokensAt (offset + (x ++ v).length) rest ∧
        Row us offset (offset + (x ++ v).length) := by
    obtain ⟨us, hcut, hrow⟩ := ih
    rw [List.length_append, ← Nat.add_assoc, List.append_assoc, tokensAt_token offset hx, hcut]
    exact ⟨_ :: us, rfl, .cons hstop hrow⟩
  have hends {v : Chars} {p : Char → Prop} (hv : ∀ c ∈ v.head?, p c)
      (hp : ∀ c ∈ rest.head?, p c) : ∀ c ∈ (v ++ rest).head?, p c := by
    cases v with
    | nil => exact hp
    | cons c v => exact hv
  have hname := endsName_of_blank hrest
  induction h generalizing offset with
  | nil => exact ⟨[], rfl, .nil offset⟩
  | @run w v hne hw hstop hv _ ih =>
    refine part (isToken_run hne hw (hends hv hname.isRunChar)) ?_ (ih _)
    rw [isStop, Bool.eq_false_iff]
    exact fun h => hstop (List.contains_iff_mem.1 h)
  | @sign x v hx _ ih =>
    refine part (x := [x]) (isToken_sign hx _) ?_ (ih _)
    rcases hx with rfl | rfl
    · exact isStop_of_head? (x := '+') rfl rfl rfl
    · exact isStop_of_head? (x := '-') rfl rfl rfl
  | @quoted q v hq hv _ ih =>
    exact part (hq.isToken (hends hv hname.not_quote)) (hq.isStop rfl) (ih _)

/-! ## Clauses -/

/-- What a clause says. The sign of a number belongs to its type, but is read as a clause. -/
inductive Clause where
  | unsigned
  | notNull
  | default (value : Chars)
  | defaultNull
  | unique
  | check (expression : Chars)
  | collate
  | comment (value : String)
  | references (target : Chars)
  deriving DecidableEq

namespace Clause

def keyword : Clause → String
  | unsigned => "UNSIGNED"
  | notNull => "NOT"
  | default _ | defaultNull => "DEFAULT"
  | unique => "UNIQUE"
  | check _ => "CHECK"
  | collate => "COLLATE"
  | comment _ => "COMMENT"
  | references _ => "REFERENCES"

def keywords : List String :=
  ["UNSIGNED", "NOT", "DEFAULT", "UNIQUE", "CHECK", "COLLATE", "COMMENT", "REFERENCES"]

def give (c : Column) : Clause → Column
  | unsigned => { c with unsigned := true }
  | notNull => { c with nullable := false }
  | default v => { c with default := some (ofChars (trim v)) }
  | defaultNull => { c with nullable := true }
  | comment v => { c with comment := some v }
  | unique | check _ | collate | references _ => c

def extras (column : String) : Clause → List Extra
  | unique => [.constraint { kind := .unique, columns := [column] }]
  | check e => [.constraint { kind := .check, expression := some (ofChars (trim e)) }]
  | references target =>
    match Ddl.references none [column] target with
    | .ok key => [.constraint key]
    | .error _ => []
  | unsigned | notNull | default _ | defaultNull | collate | comment _ => []

inductive IsTarget : Chars → Prop where
  | intro {g n more : Chars} (hg : IsBlanks g) (hn : IsTableName n) (hne : unquote n ≠ "")
      (hmore : EndsName more) (hdot : (trimLeft more).head? ≠ some '.')
      (hlast : EndsSolid (n ++ more)) : IsTarget (g ++ (n ++ more))

/-- How a clause may be written. -/
inductive Spelled : Clause → Chars → Prop where
  | unsigned {w : Chars} (hw : EitherCase "UNSIGNED" w) : Spelled unsigned w
  | notNull {w g u : Chars} (hw : EitherCase "NOT" w) (hg : IsBlanks g)
      (hu : EitherCase "NULL" u) : Spelled notNull (w ++ (g ++ u))
  | default {w g v : Chars} (hw : EitherCase "DEFAULT" w) (hg : IsBlanks g) (hv : IsLiteral v)
      (hne : v ≠ []) : Spelled (default v) (w ++ (g ++ v))
  | defaultNull {w g u : Chars} (hw : EitherCase "DEFAULT" w) (hg : IsBlanks g)
      (hu : EitherCase "NULL" u) : Spelled defaultNull (w ++ (g ++ u))
  | unique {w : Chars} (hw : EitherCase "UNIQUE" w) : Spelled unique w
  | uniqueKey {w g u : Chars} (hw : EitherCase "UNIQUE" w) (hg : IsBlanks g)
      (hu : EitherCase "KEY" u) : Spelled unique (w ++ (g ++ u))
  | check {w g e : Chars} (hw : EitherCase "CHECK" w) (hg : ∀ c ∈ g, isBlank c = true)
      (he : Balanced e) (hne : trim e ≠ []) : Spelled (check e) (w ++ (g ++ ('(' :: e ++ [')'])))
  | collate {w g n : Chars} (hw : EitherCase "COLLATE" w) (hg : IsBlanks g) (hn : IsName n) :
      Spelled collate (w ++ (g ++ n))
  | comment {w g q : Chars} (hw : EitherCase "COMMENT" w) (hg : IsBlanks g) (hq : IsQuotedText q) :
      Spelled (comment (stringValue q)) (w ++ (g ++ q))
  | references {w target : Chars} (hw : EitherCase "REFERENCES" w) (ht : IsTarget target) :
      Spelled (references target) (w ++ target)

theorem keyword_mem (a : Clause) : a.keyword ∈ keywords := by
  cases a <;> simp [keyword, keywords]

theorem keyword_mem_clauseWords (a : Clause) : a.keyword ∈ clauseWords := by
  have hall : ∀ k ∈ keywords, k ∈ clauseWords := by decide
  exact hall _ a.keyword_mem

theorem keyword_mem_stopWords (a : Clause) : a.keyword ∈ stopWords := by
  have hall : ∀ k ∈ keywords, k ∈ stopWords := by decide
  exact hall _ a.keyword_mem

end Clause

open Clause

variable {a : Clause}

/-! ## Around the keyword -/

theorem endsName_gap (hg : IsBlanks g) : EndsName (g ++ x) := by
  obtain ⟨c, g, rfl, hc⟩ := hg.exists_cons
  rintro c ⟨⟩
  exact .inl hc

theorem endsName_group (hg : ∀ c ∈ g, isBlank c = true) : EndsName (g ++ '(' :: x) := by
  cases g with
  | nil =>
    rintro c ⟨⟩
    exact .inr (by decide)
  | cons c g =>
    rintro c ⟨⟩
    exact .inl (hg c List.mem_cons_self)

/-- A clause is its keyword and what follows it. -/
theorem Clause.Spelled.exists_keyword (h : a.Spelled x) :
    ∃ w more, x = w ++ more ∧ EitherCase a.keyword w ∧
      ∀ rest, EndsName rest → EndsName (more ++ rest) := by
  have hgap {g y : Chars} (hg : IsBlanks g) (rest : Chars) (_ : EndsName rest) :
      EndsName (g ++ y ++ rest) := by
    rw [List.append_assoc]
    exact endsName_gap hg
  cases h with
  | unsigned hw => exact ⟨_, [], (List.append_nil _).symm, hw, fun _ => id⟩
  | unique hw => exact ⟨_, [], (List.append_nil _).symm, hw, fun _ => id⟩
  | notNull hw hg => exact ⟨_, _, rfl, hw, hgap hg⟩
  | default hw hg => exact ⟨_, _, rfl, hw, hgap hg⟩
  | defaultNull hw hg => exact ⟨_, _, rfl, hw, hgap hg⟩
  | uniqueKey hw hg => exact ⟨_, _, rfl, hw, hgap hg⟩
  | collate hw hg => exact ⟨_, _, rfl, hw, hgap hg⟩
  | comment hw hg => exact ⟨_, _, rfl, hw, hgap hg⟩
  | check hw hg =>
    refine ⟨_, _, rfl, hw, fun rest _ => ?_⟩
    rw [List.append_assoc]
    exact endsName_group hg
  | references hw ht =>
    obtain ⟨hg⟩ := ht
    exact ⟨_, _, rfl, hw, hgap hg⟩

/-- What ends a clause: nothing, or blanks and a word that begins a clause. -/
structure EndsClause (rest : Chars) : Prop where
  blank : ∀ c ∈ rest.head?, isBlank c = true
  stop : ∀ offset, ∀ t ∈ (tokensAt offset rest).head?, isStop t = true

theorem endsClause_nil : EndsClause [] where
  blank := by simp
  stop := by simp [tokensAt_nil]

theorem Clause.Spelled.endsClause (h : a.Spelled x) (hg : IsBlanks g) (hrest : EndsClause rest) :
    EndsClause (g ++ (x ++ rest)) where
  blank := by
    obtain ⟨c, g, rfl, hc⟩ := hg.exists_cons
    rintro c ⟨⟩
    exact hc
  stop := by
    intro offset t ht
    obtain ⟨w, more, rfl, hw, hmore⟩ := h.exists_keyword
    have hends : EndsName (more ++ rest) := hmore rest (endsName_of_blank hrest.blank)
    rw [tokensAt_blanks offset hg.isBlank, List.append_assoc,
      hw.tokensAt a.keyword_mem_clauseWords _ hends.isRunChar] at ht
    cases ht
    have hword : upper (ofChars w) = a.keyword := hw.upper a.keyword_mem_clauseWords
    rw [isStop, List.contains_iff_mem]
    change upper (ofChars w) ∈ stopWords
    rw [hword]
    exact a.keyword_mem_stopWords

/-! ## One clause -/

/-- A keyword and one token behind it. -/
theorem tokensAt_pair (hw : EitherCase k w) (hk : k ∈ clauseWords)
    (hg : ∀ c ∈ g, isBlank c = true) (hends : EndsName (g ++ (y ++ rest)))
    (hy : ∀ offset, tokensAt offset (y ++ rest) =
      ⟨y, offset, offset + y.length⟩ :: tokensAt (offset + y.length) rest) (offset : Nat) :
    ∃ t u : Token, t.word = k ∧ u.text = y ∧ tokensAt offset (w ++ (g ++ y) ++ rest) =
      t :: u :: tokensAt (offset + (w ++ (g ++ y)).length) rest := by
  have hlength : offset + (w ++ (g ++ y)).length = offset + w.length + g.length + y.length := by
    simp only [List.length_append]
    omega
  rw [List.append_assoc, List.append_assoc, hw.tokensAt hk offset hends.isRunChar,
    tokensAt_blanks _ hg, hy, hlength]
  exact ⟨⟨w, offset, offset + w.length⟩, ⟨y, offset + w.length + g.length,
    offset + w.length + g.length + y.length⟩, hw.upper hk, rfl, rfl⟩

theorem tokensAt_words_pair {l : String} (hw : EitherCase k w) (hk : k ∈ clauseWords)
    (hg : IsBlanks g) (hu : EitherCase l u) (hl : l ∈ clauseWords) (hrest : EndsName rest)
    (offset : Nat) :
    ∃ s t : Token, s.word = k ∧ t.word = l ∧ tokensAt offset (w ++ (g ++ u) ++ rest) =
      s :: t :: tokensAt (offset + (w ++ (g ++ u)).length) rest := by
  obtain ⟨s, t, hs, ht, hcut⟩ := tokensAt_pair hw hk hg.isBlank (endsName_gap hg)
    (fun offset => hu.tokensAt hl offset hrest.isRunChar) offset
  refine ⟨s, t, hs, ?_, hcut⟩
  rw [Token.word, ht]
  exact hu.upper hl

theorem readAttribute_null (h : t.word = "NULL") :
    readAttribute text t ts c es = .ok ({ c with nullable := true }, es, some 0) := by
  unfold readAttribute
  rw [h]
  rfl

/-- A default before a word that ends it is none. -/
theorem readAttribute_default_stop (h : t.word = "DEFAULT")
    (hts : ∀ u ∈ ts.head?, isStop u = true) :
    readAttribute text t ts c es = .ok (c, es, some 0) := by
  have htake : ts.takeWhile (!isStop ·) = [] := by
    cases ts with
    | nil => rfl
    | cons u ts => rw [List.takeWhile_cons_of_neg (by simp [hts u rfl])]
  unfold readAttribute
  rw [h]
  dsimp only
  rw [htake]
  rfl

theorem readAttribute_unique (h : t.word = "UNIQUE") (hts : ∀ u ∈ ts.head?, u.word ≠ "KEY") :
    readAttribute text t ts c es =
      .ok (c, es ++ [.constraint { kind := .unique, columns := [c.name] }], some 0) := by
  have hnext : ((ts.head?.map Token.word).getD "" == "KEY") = false := by
    cases ts with
    | nil => rfl
    | cons u ts => simpa using hts u rfl
  unfold readAttribute
  rw [h]
  dsimp only
  rw [hnext]
  rfl

theorem readAttribute_uniqueKey (h : t.word = "UNIQUE") (hu : ∃ u ∈ ts.head?, u.word = "KEY") :
    readAttribute text t ts c es =
      .ok (c, es ++ [.constraint { kind := .unique, columns := [c.name] }], some 1) := by
  obtain ⟨u, hu, hkey⟩ := hu
  unfold readAttribute
  rw [h]
  dsimp only
  rw [Option.mem_def.1 hu, Option.map_some, hkey]
  rfl

theorem readAttribute_check {s : Token} (h : t.word = "CHECK") (hs : s.text = '(' :: e ++ [')'])
    (he : trim e ≠ []) : readAttribute text t (s :: ts) c es =
      .ok (c, es ++ [.constraint { kind := .check, expression := some (ofChars (trim e)) }],
        some 1) := by
  have htrim : trim ('(' :: e ++ [')']) = '(' :: e ++ [')'] := by
    refine trim_eq_self (by rintro c ⟨⟩; decide) ?_
    rw [List.getLast?_append]
    rintro c ⟨⟩
    decide
  have hgiven : given (some (ofChars (trim e))) = true := by
    simpa [given, ofChars] using he
  unfold readAttribute
  rw [h]
  dsimp only
  rw [hs, htrim, inner_enclosed, Constraint.checked, Constraint.lack?]
  dsimp only
  rw [hgiven]
  rfl

theorem readAttribute_collate (h : t.word = "COLLATE") :
    readAttribute text t ts c es = .ok (c, es, some 1) := by
  unfold readAttribute
  rw [h]
  rfl

theorem readAll_default_value (hw : EitherCase "DEFAULT" w) (hg : IsBlanks g) (hv : IsLiteral v)
    (hne : v ≠ []) (hrest : EndsClause rest) (htext : text = pre ++ (w ++ (g ++ v)) ++ rest) :
    readAll text (tokensAt pre.length (w ++ (g ++ v) ++ rest)) c es =
      readAll text (tokensAt (pre ++ (w ++ (g ++ v))).length rest)
        { c with default := some (ofChars (trim v)) } es := by
  have hplace : pre.length + w.length + g.length = (pre ++ w ++ g).length := by
    simp only [List.length_append]
  have hlength : (pre ++ (w ++ (g ++ v))).length = (pre ++ w ++ g).length + v.length := by
    simp only [List.length_append]
    omega
  obtain ⟨us, hcut, hrow⟩ := hv.exists_row hrest.blank (pre ++ w ++ g).length
  have hus : us ≠ [] := by
    rintro rfl
    have hpos := List.length_pos_iff.2 hne
    generalize hstop : (pre ++ w ++ g).length + v.length = stop at hrow
    cases hrow
    omega
  have hvalue : IsValue us (pre ++ w ++ g).length ((pre ++ w ++ g).length + v.length) :=
    hrow.isValue hus
  have hwhole : text = pre ++ w ++ g ++ v ++ rest := by
    rw [htext]
    simp only [List.append_assoc]
  have hspan : ofChars (trim (span text us)) = ofChars (trim v) := by
    rw [hvalue.span_eq hwhole]
  have hends : EndsName (g ++ (v ++ rest)) := endsName_gap hg
  have hdefault : (⟨w, pre.length, pre.length + w.length⟩ : Token).word = "DEFAULT" :=
    hw.upper (by decide)
  rw [List.append_assoc, List.append_assoc, hw.tokensAt (by decide) _ hends.isRunChar,
    tokensAt_blanks _ hg.isBlank, hplace, hcut, readAll_cons (readAttribute_default hdefault hus
      hvalue.values (hrest.stop _) hspan), List.drop_left, hlength]

/-- A clause but for a reference is read on its own. -/
theorem Clause.Spelled.readAll (h : a.Spelled x) (ha : a.keyword ≠ "REFERENCES")
    (hrest : EndsClause rest) (htext : text = pre ++ x ++ rest) :
    readAll text (tokensAt pre.length (x ++ rest)) c es =
      Ddl.readAll text (tokensAt (pre ++ x).length rest) (a.give c) (es ++ a.extras c.name) := by
  have hends := endsName_of_blank hrest.blank
  have hnone : es ++ [] = es := List.append_nil _
  have hplace : (pre ++ x).length = pre.length + x.length := List.length_append
  have word {k : String} {w : Chars} (hw : EitherCase k w) (hk : k ∈ clauseWords) :
      (⟨w, pre.length, pre.length + w.length⟩ : Token).word = k ∧
        tokensAt pre.length (w ++ rest) = ⟨w, pre.length, pre.length + w.length⟩ ::
          tokensAt (pre.length + w.length) rest :=
    ⟨hw.upper hk, hw.tokensAt hk _ hends.isRunChar⟩
  rw [hplace]
  cases h with
  | unsigned hw =>
    obtain ⟨ht, hcut⟩ := word hw (by decide)
    rw [hcut, readAll_cons (readAttribute_unsigned ht)]
    exact congrArg _ hnone.symm
  | unique hw =>
    obtain ⟨ht, hcut⟩ := word hw (by decide)
    -- With `KEY` behind it the clause would take one token more.
    have hkey : ∀ u ∈ (tokensAt (pre.length + x.length) rest).head?, u.word ≠ "KEY" := by
      intro u hu hkey
      have hstop := hrest.stop _ u hu
      rw [isStop, hkey] at hstop
      exact absurd hstop (by decide)
    rw [hcut, readAll_cons (readAttribute_unique ht hkey)]
    rfl
  | notNull hw hg hu =>
    obtain ⟨s, t, hs, ht, hcut⟩ :=
      tokensAt_words_pair hw (by decide) hg hu (by decide) hends pre.length
    rw [hcut, readAll_cons (readAttribute_not hs ht)]
    exact congrArg _ hnone.symm
  | defaultNull hw hg hu =>
    obtain ⟨s, t, hs, ht, hcut⟩ :=
      tokensAt_words_pair hw (by decide) hg hu (by decide) hends pre.length
    -- The word `NULL` ends a default, which is empty then, and is read as a clause of its own.
    have hstop : isStop t = true := by
      rw [isStop, ht]
      decide
    rw [hcut, readAll_cons (readAttribute_default_stop hs (by rintro u ⟨⟩; exact hstop)),
      List.drop_zero, readAll_cons (readAttribute_null ht)]
    exact congrArg _ hnone.symm
  | uniqueKey hw hg hu =>
    obtain ⟨s, t, hs, ht, hcut⟩ :=
      tokensAt_words_pair hw (by decide) hg hu (by decide) hends pre.length
    rw [hcut, readAll_cons (readAttribute_uniqueKey hs ⟨t, rfl, ht⟩)]
    rfl
  | default hw hg hv hne =>
    rw [← hplace]
    exact (readAll_default_value hw hg hv hne hrest htext).trans (congrArg _ hnone.symm)
  | @check w g e hw hg he hne =>
    have hgroup : EndsName (g ++ ('(' :: e ++ [')'] ++ rest)) := endsName_group hg
    obtain ⟨s, t, hs, ht, hcut⟩ := tokensAt_pair hw (by decide) hg hgroup
      (fun offset => by
        rw [tokensAt_group offset he]
        simp) pre.length
    rw [hcut, readAll_cons (readAttribute_check hs ht hne)]
    rfl
  | @collate w g n hw hg hn =>
    obtain ⟨s, t, hs, -, hcut⟩ := tokensAt_pair hw (by decide) hg.isBlank (endsName_gap hg)
      (fun offset => tokensAt_token offset (hn.isToken hends)) pre.length
    rw [hcut, readAll_cons (readAttribute_collate hs)]
    exact congrArg _ hnone.symm
  | @comment w g q hw hg hq =>
    obtain ⟨s, ⟨z, start, stop⟩, hs, rfl, hcut⟩ := tokensAt_pair hw (by decide) hg.isBlank
      (endsName_gap hg) (fun offset => tokensAt_token offset (hq.isToken hends.not_quote))
      pre.length
    rw [hcut, readAll_cons (readAttribute_comment hs hq.stringValues)]
    exact congrArg _ hnone.symm
  | references => exact absurd rfl ha

/-! ## References -/

/-- A list in parentheses is read if it is closed, and left out if it is not. -/
theorem exists_reads_list (before : Option Char) (y : Chars) : ∃ z rest gs, y = z ++ rest ∧
    Reads (opt (capture 2 listPattern)) before z rest gs ∧ gs.lookup 1 = none := by
  have skip (h : Refuses listPattern before y) : ∃ z rest gs, y = z ++ rest ∧
      Reads (opt (capture 2 listPattern)) before z rest gs ∧ gs.lookup 1 = none :=
    ⟨[], y, [], rfl, .skip (.capture 2 h), rfl⟩
  by_cases hy : y.head? = some '('
  · obtain ⟨z, rfl⟩ := List.head?_eq_some_iff.1 hy
    by_cases hz : ')' ∈ z
    · obtain ⟨u, v, rfl, hu⟩ := List.eq_append_cons_of_mem hz
      have hopen : Reads (char '(') before ['('] (u ++ ([')'] ++ v)) [] := .one rfl
      have hbody : Reads (star (noneOf ")")) (some '(') u ([')'] ++ v) [] := by
        refine .star_one (fun c hc => ?_) (by rintro c ⟨⟩; rfl)
        have hne : c ≠ ')' := fun h => hu (h ▸ hc)
        simpa using hne
      have hlist : Reads listPattern before (['('] ++ u ++ [')']) v [] :=
        (hopen.seq hbody).seq (.one rfl)
      refine ⟨['('] ++ u ++ [')'], v, _, ?_, .opt (.capture 2 hlist), rfl⟩
      simp only [List.append_assoc, List.cons_append, List.nil_append]
    · refine skip (.assoc (.seq_one fun _ => .star_seq fun u v _ huv _ => .one fun c hc => ?_))
      rw [beq_eq_false_iff_ne]
      rintro rfl
      exact hz (huv ▸ List.mem_append_right u (List.mem_of_mem_head? hc))
  · refine skip (.seq_left (.seq_left (.one fun c hc => ?_)))
    rw [beq_eq_false_iff_ne]
    rintro rfl
    exact hy hc

/-- A reference to a table with a name is a foreign key. -/
theorem Clause.IsTarget.exists_references (h : IsTarget x) (columns : List String) :
    ∃ key, Ddl.references none columns x = .ok key := by
  obtain @⟨g, n, more, hg, hn, hne, hmore, hdot, -⟩ := h
  obtain ⟨gap, y, rfl, hgap, hy⟩ := exists_blanks_append more
  have hname : Reads (blanks ++ capture 1 qname) none (g ++ n) (gap ++ y) [(1, n)] :=
    (reads_blanks hg.isBlank (hn.beginsSolid _)).seq (.capture 1 (hn.reads_qname hmore hdot))
  obtain ⟨z, rest, gs, rfl, hlist, hgs⟩ :=
    exists_reads_list (gap.getLast?.or ((g ++ n).getLast?.or none)) y
  have hblank : Reads blanks ((g ++ n).getLast?.or none) gap (z ++ rest) [] := reads_blanks hgap hy
  have hlist' :
      Reads (opt (capture 2 listPattern)) ((g ++ n ++ gap).getLast?.or none) z rest gs := by
    rwa [List.getLast?_append, Option.or_assoc]
  obtain ⟨m, hm, -, his⟩ := ((hname.seq hblank).seq hlist').exists_match?
  have hgroup : m.group 1 = n := by
    rw [his.group, List.lookup_append, hgs]
    rfl
  have hgiven : given (some (unquote n)) = true := by simpa [given] using hne
  have hwhole : g ++ (n ++ (gap ++ (z ++ rest))) = g ++ n ++ gap ++ z ++ rest := by
    simp only [List.append_assoc]
  have hpattern : blanks ++ capture 1 qname ++ blanks ++ opt (capture 2 (char '(' ++
      star (noneOf ")") ++ char ')')) = referencePattern := rfl
  have hm : referencePattern.match? (g ++ n ++ gap ++ z ++ rest) = some m := hm
  rw [hwhole]
  unfold Ddl.references
  dsimp only
  rw [hpattern, hm, Option.map_some, hgroup, Option.getD_some, Constraint.checked,
    Constraint.lack?]
  dsimp only
  rw [hgiven]
  exact ⟨_, rfl⟩

/-- What follows the word is taken for the reference, and no attribute is read behind it. -/
theorem readAll_references (hw : EitherCase "REFERENCES" w)
    (hx : ∀ c ∈ x.head?, isRunChar c = false) (htext : text = pre ++ (w ++ x)) :
    readAll text (tokensAt pre.length (w ++ x)) c es =
      (references none [c.name] x).map fun key => (c, es ++ [.constraint key]) := by
  have hword : (⟨w, pre.length, pre.length + w.length⟩ : Token).word = "REFERENCES" :=
    hw.upper (by decide)
  have hdrop : text.drop (pre.length + w.length) = x := by
    rw [htext, ← List.append_assoc, List.drop_left' List.length_append]
  have hread (ts : List Token) :
      readAttribute text ⟨w, pre.length, pre.length + w.length⟩ ts c es =
        (references none [c.name] x).map fun key => (c, es ++ [.constraint key], none) := by
    unfold readAttribute
    rw [hword]
    dsimp only
    rw [hdrop]
    cases references none [c.name] x <;> rfl
  rw [hw.tokensAt (by decide) _ hx, readAll, List.length_cons, readAttributes, hread]
  cases references none [c.name] x <;> rfl

/-! ## One clause behind the other -/

structure WrittenClause where
  clause : Clause
  gap : Chars
  text : Chars
  isBlanks : IsBlanks gap
  spelled : clause.Spelled text

def clausesText (ws : List WrittenClause) : Chars :=
  ws.flatMap fun w => w.gap ++ w.text

/-- No clause stands behind a reference. -/
def ReferenceLast (ws : List WrittenClause) : Prop :=
  ∀ w ∈ ws.dropLast, w.clause.keyword ≠ "REFERENCES"

instance (ws : List WrittenClause) : Decidable (ReferenceLast ws) :=
  List.decidableBAll _ ws.dropLast

variable {b : WrittenClause} {bs : List WrittenClause}

theorem clausesText_cons :
    clausesText (b :: bs) = b.gap ++ (b.text ++ clausesText bs) := by
  rw [clausesText, List.flatMap_cons, List.append_assoc, ← clausesText]

theorem endsClause_clausesText (bs : List WrittenClause) : EndsClause (clausesText bs) := by
  induction bs with
  | nil => exact endsClause_nil
  | cons b bs ih =>
    rw [clausesText_cons]
    exact b.spelled.endsClause b.isBlanks ih

@[simp]
theorem Clause.give_name (a : Clause) (c : Column) : (a.give c).name = c.name := by
  cases a <;> rfl

theorem Clause.Spelled.exists_target (h : a.Spelled x) (ha : a.keyword = "REFERENCES") :
    ∃ w target, a = .references target ∧ x = w ++ target ∧ EitherCase "REFERENCES" w ∧
      IsTarget target := by
  cases h with
  | references hw ht => exact ⟨_, _, rfl, rfl, hw, ht⟩
  | _ => exact absurd ha (by simp [keyword])

/-- A clause of any kind is read where no other follows it. -/
theorem Clause.Spelled.readAll_last (h : a.Spelled x) (htext : text = pre ++ x) :
    Ddl.readAll text (tokensAt pre.length x) c es = .ok (a.give c, es ++ a.extras c.name) := by
  by_cases ha : a.keyword = "REFERENCES"
  · obtain ⟨w, target, rfl, rfl, hw, ht⟩ := h.exists_target ha
    obtain ⟨key, hkey⟩ := ht.exists_references [c.name]
    have hends : EndsName target := by
      obtain ⟨hg⟩ := ht
      exact endsName_gap hg
    rw [readAll_references hw hends.isRunChar htext, extras, hkey]
    rfl
  · have hwhole : text = pre ++ x ++ [] := by rw [htext, List.append_nil]
    have hread : Ddl.readAll text (tokensAt pre.length (x ++ [])) c es =
        Ddl.readAll text (tokensAt (pre ++ x).length []) (a.give c) (es ++ a.extras c.name) :=
      h.readAll ha endsClause_nil hwhole
    rw [List.append_nil] at hread
    exact hread

/-- Clauses are read one behind the other if no reference stands before another clause. -/
theorem readAll_clauses (hlast : ReferenceLast (b :: bs))
    (htext : text = pre ++ (b.text ++ clausesText bs)) :
    readAll text (tokensAt pre.length (b.text ++ clausesText bs)) c es =
      .ok (((b :: bs).map (·.clause)).foldl Clause.give c,
        es ++ ((b :: bs).map (·.clause)).flatMap (Clause.extras c.name)) := by
  induction bs generalizing b pre c es with
  | nil =>
    have hnil : b.text ++ clausesText [] = b.text := List.append_nil _
    rw [hnil] at htext ⊢
    rw [b.spelled.readAll_last htext]
    simp
  | cons b' bs ih =>
    have hb : b.clause.keyword ≠ "REFERENCES" := hlast b List.mem_cons_self
    have hbs : ReferenceLast (b' :: bs) := fun w hw => hlast w (List.mem_cons_of_mem _ hw)
    have hplace : (pre ++ b.text).length + b'.gap.length = (pre ++ b.text ++ b'.gap).length :=
      List.length_append.symm
    have hwhole : text = pre ++ b.text ++ b'.gap ++ (b'.text ++ clausesText bs) := by
      rw [htext, clausesText_cons]
      simp only [List.append_assoc]
    rw [b.spelled.readAll hb (endsClause_clausesText (b' :: bs))
      (htext.trans (List.append_assoc ..).symm), clausesText_cons,
      tokensAt_blanks _ b'.isBlanks.isBlank, hplace, ih hbs hwhole]
    simp

/-! ## Where clauses begin and end -/

theorem endsSolid_of_last (hne : x ≠ []) (h : ∀ c ∈ x.getLast?, isBlank c = false) :
    EndsSolid x := by
  obtain ⟨c, hc⟩ := Option.isSome_iff_exists.1 (List.getLast?_isSome.2 hne)
  rw [EndsSolid, hc, Option.any_some, h c hc]
  rfl

theorem endsSolid_word (h : IsWordText w) : EndsSolid w :=
  endsSolid_of_last h.ne_nil fun c hc => h.not_isBlank c (List.mem_of_mem_getLast? hc)

theorem endsSolid_name (h : IsName n) : EndsSolid n :=
  endsSolid_of_last h.ne_nil h.last

theorem endsSolid_concat {z : Char} (x : Chars) (hz : isBlank z = false) :
    EndsSolid (x ++ [z]) := by
  rw [EndsSolid, List.getLast?_append, List.getLast?_singleton, Option.some_or, Option.any_some, hz]
  rfl

theorem endsSolid_quoted (h : IsQuotedText q) : EndsSolid q :=
  endsSolid_of_last h.isItem.ne_nil h.isItem.last

theorem IsLiteral.endsSolid (h : IsLiteral v) (hne : v ≠ []) : EndsSolid v := by
  have part {x v : Chars} (hx : EndsSolid x) (ih : v ≠ [] → EndsSolid v) : EndsSolid (x ++ v) := by
    by_cases hv : v = []
    · rwa [hv, List.append_nil]
    · exact (ih hv).behind x
  induction h with
  | nil => exact absurd rfl hne
  | run hw hall _ _ _ ih =>
    refine part (endsSolid_of_last hw fun c hc => ?_) ih
    exact not_isBlank_of_isRunChar (hall c (List.mem_of_mem_getLast? hc))
  | @sign z v hz _ ih =>
    refine part (x := [z]) (endsSolid_concat [] ?_) ih
    rcases hz with rfl | rfl <;> decide
  | quoted hq _ _ ih => exact part (endsSolid_quoted hq) ih

theorem Clause.Spelled.endsSolid (h : a.Spelled x) : EndsSolid x := by
  have word {k : String} {w : Chars} (hw : EitherCase k w) (hk : k ∈ clauseWords) : EndsSolid w :=
    endsSolid_word (hw.isWordText hk)
  cases h with
  | unsigned hw => exact word hw (by decide)
  | unique hw => exact word hw (by decide)
  | notNull _ _ hu => exact ((word hu (by decide)).behind _).behind _
  | defaultNull _ _ hu => exact ((word hu (by decide)).behind _).behind _
  | uniqueKey _ _ hu => exact ((word hu (by decide)).behind _).behind _
  | default _ _ hv hne => exact ((hv.endsSolid hne).behind _).behind _
  | check => exact ((endsSolid_concat _ (by decide)).behind _).behind _
  | collate _ _ hn => exact ((endsSolid_name hn).behind _).behind _
  | comment _ _ hq => exact ((endsSolid_quoted hq).behind _).behind _
  | references _ ht =>
    obtain ⟨-, -, -, -, -, hlast⟩ := ht
    exact (hlast.behind _).behind _

def clauseInitials : List Char :=
  ['U', 'N', 'D', 'C', 'R']

theorem Clause.Spelled.exists_cons (h : a.Spelled x) :
    ∃ z y, x = z :: y ∧ z.toUpper ∈ clauseInitials := by
  obtain ⟨w, more, rfl, hw, -⟩ := h.exists_keyword
  obtain ⟨z, w, rfl⟩ := List.exists_cons_of_ne_nil (hw.isWordText a.keyword_mem_clauseWords).ne_nil
  have hall : ∀ k ∈ keywords, k.toList.head?.any (clauseInitials.contains ·) = true := by decide
  have hinitials := hall _ a.keyword_mem
  have hfirst : a.keyword.toList = z.toUpper :: w.map Char.toUpper := hw.symm
  rw [hfirst, List.head?_cons, Option.any_some, List.contains_iff_mem] at hinitials
  exact ⟨z, w ++ more, rfl, hinitials⟩

theorem isAsciiLetter_of_initial {z : Char} (h : z.toUpper ∈ clauseInitials) :
    isAsciiLetter z.toUpper = true := by
  have hall : ∀ z ∈ clauseInitials, isAsciiLetter z = true := by decide
  exact hall _ h

theorem not_isBlank_of_initial {z : Char} (h : z.toUpper ∈ clauseInitials) : isBlank z = false :=
  not_isBlank_of_isWord (isWord_of_toUpper (isAsciiLetter_of_initial h))

theorem endsSolid_clausesText (hx : EndsSolid x) (bs : List WrittenClause) :
    EndsSolid (x ++ clausesText bs) := by
  induction bs generalizing x with
  | nil => rwa [clausesText, List.flatMap_nil, List.append_nil]
  | cons b bs ih =>
    have hnext := ih ((b.spelled.endsSolid.behind b.gap).behind x)
    rw [clausesText_cons]
    simpa only [List.append_assoc] using hnext

theorem trim_clausesText (b : WrittenClause) (bs : List WrittenClause) :
    trim (clausesText (b :: bs)) = b.text ++ clausesText bs := by
  obtain ⟨z, y, htext, hz⟩ := b.spelled.exists_cons
  have hfirst : ∀ c ∈ (b.text ++ clausesText bs).head?, isBlank c = false := by
    rw [htext]
    rintro c ⟨⟩
    exact not_isBlank_of_initial hz
  have htrim := trim_of_blanks b.isBlanks.isBlank (List.forall_mem_nil _) hfirst
    (endsSolid_clausesText b.spelled.endsSolid bs).not_isBlank
  rwa [List.append_nil, ← clausesText_cons] at htrim

/-- What clauses give a column and its table. -/
theorem readAll_trim_clauses (hlast : ReferenceLast bs) (c : Column) :
    readAll (trim (clausesText bs)) (tokens (trim (clausesText bs))) c [] =
      .ok ((bs.map (·.clause)).foldl Clause.give c,
        (bs.map (·.clause)).flatMap (Clause.extras c.name)) := by
  cases bs with
  | nil => rfl
  | cons b bs =>
    have hread : readAll (b.text ++ clausesText bs)
        (tokensAt ([] : Chars).length (b.text ++ clausesText bs)) c [] =
          .ok (((b :: bs).map (·.clause)).foldl Clause.give c,
            [] ++ ((b :: bs).map (·.clause)).flatMap (Clause.extras c.name)) :=
      readAll_clauses hlast rfl
    rw [trim_clausesText]
    exact hread

end SqlFerry.Ddl
