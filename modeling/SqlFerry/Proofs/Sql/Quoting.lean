import SqlFerry.Proofs.Pattern.Reads
import SqlFerry.Proofs.Text.Replace
import SqlFerry.Sql.Requote

/-!
# Quoted texts

What stands between the quotes of a written name or literal, how the patterns of the dialects read
it to its closing quote, and that decoding gives back what was written.
-/

namespace SqlFerry

open Text Pattern

namespace Sql

def double (q : Char) (cs : Chars) : Chars :=
  cs.flatMap fun c => if c = q then [q, q] else [c]

/-- What stands for one character within quotes: a character, a doubled quote, or a backslash with
the character that it protects. -/
inductive InQuotes (q : Char) (escapes : Bool) : Chars → Prop where
  | one (c : Char) (hc : c ≠ q) (he : escapes = true → c ≠ '\\') : InQuotes q escapes [c]
  | doubled : InQuotes q escapes [q, q]
  | escaped (c : Char) (he : escapes = true) : InQuotes q escapes ['\\', c]

instance (q : Char) (escapes : Bool) (u : Chars) : Decidable (InQuotes q escapes u) :=
  match u with
  | [c] => decidable_of_iff (c ≠ q ∧ (escapes = true → c ≠ '\\'))
      ⟨fun h => .one c h.1 h.2, fun | .one _ hc he => ⟨hc, he⟩⟩
  | [a, b] => decidable_of_iff ((a = q ∧ b = q) ∨ (a = '\\' ∧ escapes = true))
      ⟨fun
        | .inl ⟨ha, hb⟩ => by
          rw [ha, hb]
          exact .doubled
        | .inr ⟨ha, he⟩ => ha ▸ .escaped b he,
      fun
        | .doubled => .inl ⟨rfl, rfl⟩
        | .escaped _ he => .inr ⟨rfl, he⟩⟩
  | [] | _ :: _ :: _ :: _ => isFalse nofun

variable {q : Char} {before : Option Char} {cs rest : Chars}

theorem inQuotes_double (q c : Char) : InQuotes q false (if c = q then [q, q] else [c]) := by
  split
  · exact .doubled
  · next hc => exact .one c hc (by simp)

theorem inner_enclosed (a z : Char) (cs : Chars) : inner (a :: cs ++ [z]) = cs := by
  simp [inner]

theorem replace_double (q : Char) (new cs : Chars) :
    replace [q, q] new (double q cs) = cs.flatMap fun c => if c = q then new else [c] := by
  refine replace_flatMap (by simp) fun c _ hc x hx => ?_
  cases hx
  exact hc

theorem undouble (q : Char) (cs : Chars) : replace [q, q] [q] (double q cs) = cs := by
  rw [replace_double]
  induction cs with
  | nil => rfl
  | cons c cs ih =>
    rw [List.flatMap_cons, ih]
    split
    · next h => rw [h, List.singleton_append]
    · rfl

/-- A text in which quotes are doubled is read up to the first quote that no other follows. -/
theorem reads_doubled (h : rest.head? ≠ some q) :
    Reads (doubled q) before (q :: double q cs ++ [q]) rest [] := by
  have body : Reads (star (alt (one (· != q)) (char q ++ char q))) (some q) (double q cs)
      (q :: rest) [] := by
    refine Reads.star_flatMap (fun c _ before y => ?_) (fun c _ => ?_) fun before => ?_
    · split
      · exact .right (.one (by simp)) (.seq (x := [q]) (.one (by simp)) (.one (by simp)))
      · next hc => exact .left (.one (by simpa using hc))
    · split <;> simp
    · refine .alt (.one (by simp)) ?_
      refine Refuses.seq_one (f := (· == q)) fun _ => .one fun c hc => ?_
      have hne : c ≠ q := fun hcq => h (hcq ▸ hc)
      simpa using hne
  have closing (before : Option Char) : Reads (char q) before [q] rest [] := .one (by simp)
  have opening : Reads (char q) before [q] (double q cs ++ ([q] ++ rest)) [] := .one (by simp)
  exact (opening.seq body).seq (closing _)

end Sql

namespace Dialect

def escape (d : Dialect) (cs : Chars) : Chars :=
  if d = mysql then cs.flatMap escapeBackslash else cs

theorem toList_enclose (q : Char) (cs : Chars) :
    (enclose q cs).toList = q :: Sql.double q cs ++ [q] := by
  simp only [enclose, Sql.double, beq_iff_eq, String.toList_ofList]

theorem toList_quote (d : Dialect) (name : String) :
    (d.quote name).toList = d.nameQuote :: Sql.double d.nameQuote name.toList ++ [d.nameQuote] :=
  toList_enclose _ _

theorem toList_textLiteral (d : Dialect) (s : String) :
    (d.textLiteral s).toList = '\'' :: Sql.double '\'' (d.escape s.toList) ++ ['\''] := by
  rw [textLiteral, toList_enclose, escape]
  simp only [beq_iff_eq]

end Dialect

namespace Sql

variable {before : Option Char} {cs rest : Chars}

def escapedChar (c : Char) : Chars :=
  if c = '\'' then ['\'', '\''] else Dialect.escapeBackslash c

theorem inQuotes_escapedChar (c : Char) : InQuotes '\'' true (escapedChar c) := by
  unfold escapedChar Dialect.escapeBackslash
  split
  · exact .doubled
  · next hquote =>
    split
    · exact .escaped '\\' rfl
    · next hbackslash =>
      split
      · exact .escaped '0' rfl
      · exact .one c hquote fun _ => by simpa using hbackslash

theorem double_escape_mysql (cs : Chars) :
    double '\'' (Dialect.mysql.escape cs) = cs.flatMap escapedChar := by
  rw [double, Dialect.escape, if_pos rfl, List.flatMap_assoc]
  congr 1
  funext c
  simp only [escapedChar, Dialect.escapeBackslash, beq_iff_eq]
  split
  · next h => subst h; rfl
  · split
    · next h => subst h; rfl
    · split
      · next h => subst h; rfl
      · next h => simp [h]

structure IsPlainText (v : String) : Prop where
  backslash : '\\' ∉ v.toList
  null : '\x00' ∉ v.toList

theorem IsPlainText.escape {v : String} (h : IsPlainText v) (d : Dialect) :
    d.escape v.toList = v.toList := by
  have hone : v.toList.flatMap Dialect.escapeBackslash = v.toList.flatMap fun c => [c] := by
    refine List.flatMap_congr fun c hc => ?_
    have hbackslash : (c == '\\') = false :=
      beq_eq_false_iff_ne.2 fun he => h.backslash (he ▸ hc)
    have hnull : (c == '\x00') = false := beq_eq_false_iff_ne.2 fun he => h.null (he ▸ hc)
    rw [Dialect.escapeBackslash, hbackslash, hnull]
    rfl
  rw [Dialect.escape]
  split
  · rw [hone, List.flatMap_singleton']
  · rfl

/-- A literal is made of units for its characters; where a backslash is not escaped, of a text
without backslashes. -/
theorem exists_units (d : Dialect) {v : String} (hv : d = .mysql ∨ '\\' ∉ v.toList) :
    ∃ f : Char → Chars, (d.textLiteral v).toList = '\'' :: v.toList.flatMap f ++ ['\''] ∧
      ∀ c ∈ v.toList, InQuotes '\'' true (f c) := by
  rw [Dialect.toList_textLiteral]
  by_cases hd : d = .mysql
  · rw [hd, double_escape_mysql]
    exact ⟨escapedChar, rfl, fun c _ => inQuotes_escapedChar c⟩
  · rw [Dialect.escape, if_neg hd]
    refine ⟨_, rfl, fun c hc => ?_⟩
    split
    · exact .doubled
    · next hquote =>
      refine .one c hquote ?_
      rintro - rfl
      exact hv.resolve_left hd hc

/-- A text in which MySQL escaped what it escapes is read up to the first quote that no other
follows. -/
theorem reads_escaped (h : rest.head? ≠ some '\'') :
    Reads (escaped '\'') before
      ('\'' :: double '\'' (Dialect.mysql.escape cs) ++ ['\'']) rest [] := by
  have body : Reads (star (choice [one fun c => c != '\'' && c != '\\', char '\\' ++ any,
      char '\'' ++ char '\''])) (some '\'') (cs.flatMap escapedChar) ('\'' :: rest) [] := by
    have backslash (c : Char) (before : Option Char) (y : Chars) :
        Reads (choice [one fun c => c != '\'' && c != '\\', char '\\' ++ any,
          char '\'' ++ char '\'']) before ['\\', c] y [] :=
      .right (.one (by simp)) (.left (.seq (x := ['\\']) (.one rfl) (.one rfl)))
    refine Reads.star_flatMap (fun c _ before y => ?_) (fun c _ => ?_) fun before => ?_
    · unfold escapedChar Dialect.escapeBackslash
      split
      · exact .right (.one (by simp)) (.right (.seq_left (.one (by simp)))
          (.seq (x := ['\'']) (.one rfl) (.one rfl)))
      · split
        · exact backslash _ _ _
        · split
          · exact backslash _ _ _
          · next hq hb _ => exact .left (.one (by simpa using ⟨hq, by simpa using hb⟩))
    · unfold escapedChar Dialect.escapeBackslash
      split
      · simp
      · split
        · simp
        · split <;> simp
    · refine .alt (.one (by simp)) (.alt (.seq_left (.one (by simp))) ?_)
      refine Refuses.seq_one (f := (· == '\'')) fun _ => .one fun c hc => ?_
      have hne : c ≠ '\'' := fun hcq => h (hcq ▸ hc)
      simpa using hne
  rw [double_escape_mysql]
  have closing (before : Option Char) : Reads (char '\'') before ['\''] rest [] := .one rfl
  have opening : Reads (char '\'') before ['\''] (cs.flatMap escapedChar ++ (['\''] ++ rest)) [] :=
    .one rfl
  exact (opening.seq body).seq (closing _)

/-! ## Decoding -/

/-- What stands for a character while MySQL's backslashes are decoded. -/
def marked (c : Char) : Chars :=
  if c = '\'' then placeholder else [c]

theorem replace_escaped (cs : Chars) :
    replace ['\'', '\''] placeholder (double '\'' (Dialect.mysql.escape cs)) =
      cs.flatMap fun c => if c = '\'' then placeholder else Dialect.escapeBackslash c := by
  rw [replace_double, Dialect.escape, if_pos rfl, List.flatMap_assoc]
  congr 1
  funext c
  simp only [Dialect.escapeBackslash, beq_iff_eq]
  split
  · next h => subst h; rfl
  · split
    · next h => subst h; rfl
    · split
      · next h => subst h; rfl
      · next h => simp [h]

theorem decodeBackslashes_escaped (cs : Chars) :
    decodeBackslashes (cs.flatMap fun c =>
      if c = '\'' then placeholder else Dialect.escapeBackslash c) = cs.flatMap marked := by
  have keep {c : Char} (hc : c ≠ '\\') (rest : Chars) :
      decodeBackslashes (c :: rest) = c :: decodeBackslashes rest := by
    rw [decodeBackslashes]
    simp [hc]
  induction cs with
  | nil => rfl
  | cons c cs ih =>
    rw [List.flatMap_cons, List.flatMap_cons, ← ih, marked, Dialect.escapeBackslash]
    simp only [beq_iff_eq]
    split
    · simp only [placeholder, List.cons_append, List.nil_append]
      rw [keep (by decide), keep (by decide), keep (by decide)]
    · split
      · next h => subst h; rfl
      · split
        · next h => subst h; rfl
        · next h _ => exact keep h _

/-- Decoding a literal's text gives back the text; in MySQL, one without the character that stands
for a quote while backslashes are decoded. -/
theorem decodeString_escape (d : Dialect) (h : d = .mysql → '\x01' ∉ cs) :
    decodeString d '\'' (double '\'' (d.escape cs)) = cs := by
  unfold decodeString
  by_cases hd : d = .mysql
  · subst hd
    simp only [beq_self_eq_true, if_true, replace_escaped, decodeBackslashes_escaped]
    have hp : replace placeholder ['\''] (cs.flatMap fun c =>
        if c = '\'' then placeholder else [c]) =
          cs.flatMap fun c => if c = '\'' then ['\''] else [c] :=
      replace_flatMap (by simp [placeholder]) fun c hc _ x hx => by
        cases hx
        exact fun he => h rfl (he ▸ hc)
    rw [show cs.flatMap marked = cs.flatMap fun c => if c = '\'' then placeholder else [c] from rfl,
      hp, ← replace_double, undouble]
  · rw [if_neg (by simpa using hd), Dialect.escape, if_neg hd, undouble]

end Sql

end SqlFerry
