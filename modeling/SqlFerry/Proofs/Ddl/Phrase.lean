import SqlFerry.Proofs.Splitter.Statements
import SqlFerry.Proofs.Sql.Nesting

/-!
# Phrases

The texts that definitions are put together from: words, names, literals, numbers and groups in
parentheses, with single spaces between them. A phrase stands for one item of a list, and pieces
that a splitter keeps in one statement spell it. So a script of definitions, each with a semicolon
and a line feed at its end, is split into the very texts of its definitions.
-/

namespace SqlFerry.Ddl

open Text Sql Splitter

variable {d : Dialect} {a b w pre gap post : Chars} {l : List Chars}

/-- A text that stands for one item of a list and that pieces of one statement spell. -/
structure Phrase (d : Dialect) (cs : Chars) : Prop extends IsItem cs where
  spelled : Spelled d cs

theorem blank_of_mem {cs : Chars} (hcs : ∀ c ∈ cs, c = ' ' ∨ c = '\n') :
    ∀ c ∈ cs, isBlank c = true := by
  intro c hc
  rcases hcs c hc with rfl | rfl <;> decide

theorem balanced_list (hl : ∀ x ∈ l, Phrase d x) (hpre : ∀ c ∈ pre, c = ' ' ∨ c = '\n')
    (hgap : ∀ c ∈ gap, c = ' ' ∨ c = '\n') (hpost : ∀ c ∈ post, c = ' ' ∨ c = '\n') :
    Balanced (pre ++ (',' :: gap).intercalate l ++ post) :=
  ((single_of_blanks (blank_of_mem hpre)).toBalanced.append
    (balanced_intercalate (fun x hx => (hl x hx).single.toBalanced) (blank_of_mem hgap))).append
      (single_of_blanks (blank_of_mem hpost)).toBalanced

namespace Phrase

theorem name (d : Dialect) (n : String) : Phrase d (d.quote n).toList where
  toIsItem := isItem_quote d n
  spelled := .name d n

theorem literal (d : Dialect) {v : String} (hv : d = .mysql ∨ '\\' ∉ v.toList) :
    Phrase d (d.textLiteral v).toList where
  toIsItem := isItem_literal d hv
  spelled := .literal d v

theorem word (h : IsWordText w) : Phrase d w where
  single := by
    refine .plain fun c hc => ⟨?_, h.ne_of_mem hc (by decide)⟩
    have hmark : ∀ x ∈ ['\'', '"', '\x60', '(', ')'], c ≠ x := by
      simpa using ⟨h.ne_of_mem hc (by decide), h.ne_of_mem hc (by decide),
        h.ne_of_mem hc (by decide), h.ne_of_mem hc (by decide), h.ne_of_mem hc (by decide)⟩
    rw [isMark, Bool.eq_false_iff]
    exact fun hc' => hmark c (List.contains_iff_mem.1 hc') rfl
  ne_nil := h.ne_nil
  first := fun c hc => h.not_isBlank c (List.mem_of_mem_head? hc)
  last := fun c hc => h.not_isBlank c (List.mem_of_mem_getLast? hc)
  spelled := .flat (.of_words fun c hc => .inl (h.isWord c hc))

theorem number (d : Dialect) (n : Int) : Phrase d (toString n).toList := by
  have hword : IsWordText (Nat.toDigits 10 n.natAbs) :=
    ⟨Nat.toDigits_ne_nil, fun c hc => Value.isWord_of_isDigit (Value.isDigit_of_mem_toDigits hc)⟩
  have hdigits : Phrase d (Nat.toDigits 10 n.natAbs) := word hword
  rcases Int.lt_or_le n 0 with hneg | hpos
  · rw [Value.toList_toString_of_neg hneg]
    exact {
      single := (Single.one (by decide) (by decide)).append hdigits.single
      ne_nil := by simp
      first := by
        rintro c ⟨⟩
        decide
      last := by
        rw [List.getLast?_cons_of_ne_nil hword.ne_nil]
        exact hdigits.last
      spelled := by
        rw [← Value.toList_toString_of_neg hneg]
        exact .number (Value.isNumberText_toString n) }
  · rwa [Value.toList_toString_of_nonneg hpos]

theorem space (ha : Phrase d a) (hb : Phrase d b) : Phrase d (a ++ ' ' :: b) where
  toIsItem := by
    have h := ha.toIsItem.around (Single.one (c := ' ') (by decide) (by decide)) hb.toIsItem
    rwa [List.append_assoc] at h
  spelled := by
    have hspace : IsLink d [' '] := .of_separators (by simp) (by simp [separators])
    have h := ha.spelled.link hspace hb.spelled
    rwa [List.append_assoc] at h

theorem group (hl : ∀ x ∈ l, Phrase d x) (hpre : ∀ c ∈ pre, c = ' ' ∨ c = '\n')
    (hgap : ∀ c ∈ gap, c = ' ' ∨ c = '\n') (hpost : ∀ c ∈ post, c = ' ' ∨ c = '\n') :
    Phrase d ('(' :: (pre ++ (',' :: gap).intercalate l ++ post) ++ [')']) where
  toIsItem := isItem_group (balanced_list hl hpre hgap hpost)
  spelled := Spelled.nil.group (fun x hx => (hl x hx).spelled) hpre hgap hpost

/-- A group behind a phrase. -/
theorem call (ha : Phrase d a) (hl : ∀ x ∈ l, Phrase d x) (hpre : ∀ c ∈ pre, c = ' ' ∨ c = '\n')
    (hgap : ∀ c ∈ gap, c = ' ' ∨ c = '\n') (hpost : ∀ c ∈ post, c = ' ' ∨ c = '\n') :
    Phrase d (a ++ ('(' :: (pre ++ (',' :: gap).intercalate l ++ post) ++ [')'])) where
  toIsItem := by
    have h := ha.toIsItem.around Single.nil (isItem_group (balanced_list hl hpre hgap hpost))
    rwa [List.append_nil] at h
  spelled := ha.spelled.group (fun x hx => (hl x hx).spelled) hpre hgap hpost

end Phrase

/-! ## Definitions -/

variable {cs : Chars}

inductive IsDefinition (d : Dialect) : Chars → Prop where
  | intro {ws : List String} {rest : Chars} (hopening : ws ∈ openings) (hrest : Phrase d rest) :
      IsDefinition d (spaced ws ++ rest)

theorem IsDefinition.formed (h : IsDefinition d cs) : Formed d cs := by
  obtain @⟨ws, rest, hopening, hrest⟩ := h
  refine .of_opening hopening hrest.spelled ?_
  obtain ⟨rest, c, rfl⟩ := (List.eq_nil_or_concat rest).resolve_left hrest.ne_nil
  simpa [EndsSolid] using hrest.last c (by simp)

theorem phrase_spaced {ws : List String} (hws : ∀ w ∈ ws, IsWordText w.toList)
    (hcs : Phrase d cs) : Phrase d (spaced ws ++ cs) := by
  induction ws with
  | nil => exact hcs
  | cons w ws ih =>
    obtain ⟨hw, hws⟩ := List.forall_mem_cons.1 hws
    rw [spaced_cons]
    exact (Phrase.word hw).space (ih hws)

theorem IsDefinition.phrase (h : IsDefinition d cs) : Phrase d cs := by
  obtain @⟨ws, rest, hopening, hrest⟩ := h
  have hwords : ∀ ws ∈ openings, ∀ w ∈ ws, w.toList ≠ [] ∧ w.toList.all isWord = true := by decide
  exact phrase_spaced (fun w hw => ⟨(hwords ws hopening w hw).1,
    List.all_eq_true.1 (hwords ws hopening w hw).2⟩) hrest

def script (texts : List String) : String :=
  String.join (texts.map (· ++ ";\n"))

/-- A script of definitions is split into their texts. -/
theorem statements_script (d : Dialect) (texts : List String)
    (h : ∀ x ∈ texts, IsDefinition d x.toList)
    (hsize : ∀ x ∈ texts, x.length ≤ 100 * 1024 * 1024) :
    ∃ found, statements (some d) (script texts) = .ok found ∧ found.map (·.text) = texts := by
  have hlaid : Laid d (texts.map (·.toList)) (script texts).toList :=
    .statements fun x hx => (h x hx).formed
  obtain ⟨found, hparse, hfound⟩ := parse_laid hlaid (.ofInt (100 * 1024 * 1024)) fun cs hcs => by
    obtain ⟨x, hx, rfl⟩ := List.mem_map.1 hcs
    have hlength : x.toList.length ≤ 100 * 1024 * 1024 := hsize x hx
    simp only [SizeLimit.isExceededBy, SizeLimit.ofInt, Option.any_some, decide_eq_false_iff_not]
    omega
  exact ⟨found, hparse, by simpa [Function.comp_def] using hfound⟩

end SqlFerry.Ddl
