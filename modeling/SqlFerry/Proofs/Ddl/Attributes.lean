import SqlFerry.Ddl.Column
import SqlFerry.Proofs.Ddl.Phrase
import SqlFerry.Proofs.Sql.Tokens
import SqlFerry.Proofs.Text.Case

/-!
# Attributes of columns

What is written behind the type of a column, and that it is read as attributes of the column, one
after another.
-/

namespace SqlFerry.Ddl

open Text Sql

/-- A default that is a whole number or a text without backslashes. -/
inductive IsPlainDefault (d : Dialect) : String → Prop where
  | number (n : Int) : IsPlainDefault d (toString n)
  | text {v : String} (hv : '\\' ∉ v.toList) : IsPlainDefault d (d.textLiteral v)

inductive Attribute where
  | unsigned
  | notNull
  | rowKey
  | default (value : String)
  | automatic
  | comment (value : String)

namespace Attribute

def keyword : Attribute → String
  | unsigned => "unsigned"
  | notNull => "NOT"
  | rowKey => "PRIMARY"
  | default _ => "DEFAULT"
  | automatic => "AUTO_INCREMENT"
  | comment _ => "COMMENT"

def keywords : List String :=
  ["unsigned", "NOT", "PRIMARY", "DEFAULT", "AUTO_INCREMENT", "COMMENT"]

def text : Attribute → String
  | unsigned => "unsigned"
  | notNull => "NOT NULL"
  | rowKey => "PRIMARY KEY AUTOINCREMENT"
  | default v => "DEFAULT " ++ v
  | automatic => "AUTO_INCREMENT"
  | comment v => "COMMENT " ++ Dialect.mysql.textLiteral v

def give (c : Column) : Attribute → Column
  | unsigned => { c with unsigned := true }
  | notNull => { c with nullable := false }
  | rowKey => { c with nullable := false, autoIncrement := true }
  | default v => { c with default := some v }
  | automatic => { c with autoIncrement := true }
  | comment v => { c with comment := some v }

def extras : Attribute → List Extra
  | rowKey => [.primaryKey]
  | _ => []

def IsPlain (d : Dialect) : Attribute → Prop
  | default v => IsPlainDefault d v
  | comment v => d = .mysql ∧ IsPlainText v
  | _ => True

/-- Whether the attribute can be told from what follows. -/
def IsWritten (d : Dialect) : Attribute → Prop
  | default v => IsPlainDefault d v
  | comment _ => d = .mysql
  | _ => True

def read : Attribute → Attribute
  | comment v => comment (reread .mysql v)
  | a => a

def tail (as : List Attribute) : Chars :=
  as.flatMap fun a => ' ' :: a.text.toList

end Attribute

open Attribute

variable {d : Dialect} {text pre lead rest w b : Chars} {t : Token} {ts : List Token}
  {c c' : Column} {extras extras' : List Extra} {a : Attribute} {as : List Attribute}
  {offset n m k : Nat} {v : String}

/-! ## How attributes are written -/

theorem isWordText_of_all (hne : w ≠ []) (h : w.all isWord = true) : IsWordText w :=
  ⟨hne, List.all_eq_true.1 h⟩

theorem Attribute.keyword_mem (a : Attribute) : a.keyword ∈ keywords := by
  cases a <;> simp [keyword, keywords]

theorem isWordText_keyword (a : Attribute) : IsWordText a.keyword.toList := by
  have hwords : ∀ w ∈ keywords, w.toList ≠ [] ∧ w.toList.all isWord = true := by decide
  obtain ⟨hne, hall⟩ := hwords _ a.keyword_mem
  exact isWordText_of_all hne hall

/-- What follows the keyword begins with a space. -/
theorem exists_text_eq (a : Attribute) :
    ∃ more, a.text.toList = a.keyword.toList ++ more ∧ ∀ c ∈ more.head?, c = ' ' := by
  cases a with
  | unsigned | automatic => exact ⟨[], rfl, by simp⟩
  | notNull => exact ⟨" NULL".toList, rfl, by rintro c ⟨⟩; rfl⟩
  | rowKey => exact ⟨" KEY AUTOINCREMENT".toList, rfl, by rintro c ⟨⟩; rfl⟩
  | default v => exact ⟨' ' :: v.toList, by simp [Attribute.text, keyword], by simp⟩
  | comment v =>
    exact ⟨' ' :: (Dialect.mysql.textLiteral v).toList, by simp [Attribute.text, keyword], by simp⟩

theorem Attribute.IsPlain.isWritten (h : a.IsPlain d) : a.IsWritten d := by
  cases a with
  | default v => exact h
  | comment v => exact h.1
  | unsigned | notNull | rowKey | automatic => trivial

theorem Attribute.IsPlain.read_eq (h : a.IsPlain d) : a.read = a := by
  cases a with
  | comment v => exact congrArg Attribute.comment (h.2.reread_eq .mysql)
  | unsigned | notNull | rowKey | default | automatic => rfl

/-- What is written plainly is read as it was. -/
theorem map_read (has : ∀ a ∈ as, a.IsPlain d) : as.map Attribute.read = as := by
  conv_rhs => rw [← List.map_id as]
  exact List.map_congr_left fun a ha => (has a ha).read_eq

theorem Phrase.keyword (w : String) (hne : w.toList ≠ []) (h : w.toList.all isWord = true) :
    Phrase d w.toList :=
  .word (isWordText_of_all hne h)

theorem IsPlainDefault.phrase (h : IsPlainDefault d v) : Phrase d v.toList := by
  cases h with
  | number n => exact .number d n
  | text hv => exact .literal d (.inr hv)

theorem phrase_text (h : a.IsWritten d) : Phrase d a.text.toList := by
  cases a with
  | unsigned => exact .keyword "unsigned" (by decide) (by decide)
  | automatic => exact .keyword "AUTO_INCREMENT" (by decide) (by decide)
  | notNull =>
    have hnot : Phrase d "NOT".toList := .keyword "NOT" (by decide) (by decide)
    exact hnot.space (.keyword "NULL" (by decide) (by decide))
  | rowKey =>
    have hprimary : Phrase d "PRIMARY".toList := .keyword "PRIMARY" (by decide) (by decide)
    have hkey : Phrase d "KEY".toList := .keyword "KEY" (by decide) (by decide)
    exact hprimary.space (hkey.space (.keyword "AUTOINCREMENT" (by decide) (by decide)))
  | default v =>
    have hdefault : Phrase d "DEFAULT".toList := .keyword "DEFAULT" (by decide) (by decide)
    have hvalue : IsPlainDefault d v := h
    have hwhole := hdefault.space hvalue.phrase
    rwa [show "DEFAULT".toList ++ ' ' :: v.toList = (Attribute.default v).text.toList by
      simp [Attribute.text]] at hwhole
  | comment v =>
    obtain rfl : d = .mysql := h
    have hcomment : Phrase .mysql "COMMENT".toList := .keyword "COMMENT" (by decide) (by decide)
    have hwhole := hcomment.space (.literal .mysql (v := v) (.inl rfl))
    rwa [show "COMMENT".toList ++ ' ' :: (Dialect.mysql.textLiteral v).toList =
      (Attribute.comment v).text.toList by simp [Attribute.text]] at hwhole

theorem phrase_tail (hb : Phrase d b) (h : ∀ a ∈ as, a.IsWritten d) : Phrase d (b ++ tail as) := by
  induction as generalizing b with
  | nil => rwa [tail, List.flatMap_nil, List.append_nil]
  | cons a as ih =>
    have hnext := ih (hb.space (phrase_text (h a List.mem_cons_self)))
      fun a ha => h a (List.mem_cons_of_mem _ ha)
    rw [List.append_assoc] at hnext
    rwa [tail, List.flatMap_cons, ← tail]

theorem head?_tail (as : List Attribute) : ∀ c ∈ (tail as).head?, c = ' ' := by
  cases as with
  | nil => simp [tail]
  | cons a as =>
    rintro c ⟨⟩
    rfl

theorem isRunChar_of_space {rest : Chars} (h : ∀ c ∈ rest.head?, c = ' ') :
    ∀ c ∈ rest.head?, isRunChar c = false := by
  intro c hc
  rw [h c hc]
  decide

/-! ## Reading one after another -/

/-- As many rounds as there are tokens are enough. -/
theorem readAttributes_congr (hn : ts.length ≤ n) (hm : ts.length ≤ m) :
    readAttributes text n ts c extras = readAttributes text m ts c extras := by
  induction n generalizing m ts c extras with
  | zero =>
    obtain rfl := List.length_eq_zero_iff.1 (Nat.le_zero.1 hn)
    cases m <;> rfl
  | succ n ih =>
    cases ts with
    | nil => cases m <;> rfl
    | cons t rest =>
      cases m with
      | zero => cases hm
      | succ m =>
        rw [readAttributes, readAttributes]
        cases readAttribute text t rest c extras with
        | error e => rfl
        | ok r =>
          obtain ⟨c, extras, taken⟩ := r
          cases taken with
          | none => rfl
          | some k =>
            have hlength : (rest.drop k).length ≤ rest.length := by simp
            exact ih (hlength.trans (Nat.le_of_succ_le_succ hn))
              (hlength.trans (Nat.le_of_succ_le_succ hm))

def readAll (text : Chars) (ts : List Token) (c : Column) (extras : List Extra) :
    Except Fault (Column × List Extra) :=
  readAttributes text ts.length ts c extras

theorem readAll_cons (h : readAttribute text t ts c extras = .ok (c', extras', some k)) :
    readAll text (t :: ts) c extras = readAll text (ts.drop k) c' extras' := by
  have hlength : (ts.drop k).length ≤ ts.length := by simp
  rw [readAll, List.length_cons, readAttributes, h]
  exact readAttributes_congr hlength (Nat.le_refl _)

/-! ## Before the attributes -/

def readTyped (name : String) (written : WrittenType) :
    Except Fault (Option (Column × List Extra)) := do
  let c : Column := { name, typeName := TypeName.normal written.name, isArray := written.isArray }
  let c ← match written.arguments with
    | some arguments => withArguments c arguments
    | none => pure c
  let (c, extras) ← readAll written.rest (tokens written.rest) c []
  return some (normalizeSerial c, extras)

/-- The name is read up to the blanks behind it, the type from there on. -/
theorem readColumn_eq {n g z : Chars} (hn : Pattern.Reads ident none n (g ++ z) [])
    (hfirst : ∀ c ∈ (n ++ (g ++ z)).head?, isBlank c = false) (hne : g ≠ [])
    (hg : ∀ c ∈ g, isBlank c = true) (hz : ∀ c ∈ z.head?, isBlank c = false)
    (hlast : ∀ c ∈ z.getLast?, isBlank c = false) (hznil : z ≠ []) :
    readColumn (n ++ (g ++ z)) = readTyped (unquote n) (.ofChars z) := by
  have hread : Pattern.Reads (.capture 1 ident ++ Pattern.blanks1) none (n ++ g) z
      ([] ++ [(1, n)]) := .seq (.capture 1 hn) (Pattern.reads_blanks1 hne hg hz)
  obtain ⟨m, hm, -, his⟩ := hread.exists_match?
  rw [List.append_assoc] at hm
  have htrim : trim (n ++ (g ++ z)) = n ++ (g ++ z) := by
    refine trim_eq_self hfirst ?_
    rwa [List.getLast?_append_of_ne_nil _ (by simp [hznil]), List.getLast?_append_of_ne_nil _ hznil]
  rw [readColumn, htrim, hm]
  dsimp only
  rw [his.rest, his.group 1, trim_eq_self hz hlast]
  rfl

/-! ## Words -/

/-- The token of a word in upper case. -/
theorem tokensAt_word (offset : Nat) (hlead : ∀ c ∈ lead, isBlank c = true)
    (hw : IsWordText w) (hrest : ∀ c ∈ rest.head?, isRunChar c = false)
    (hupper : upper (ofChars w) = v) :
    ∃ t : Token, t.word = v ∧ t.text = w ∧
      tokensAt offset (lead ++ w ++ rest) =
        t :: tokensAt (offset + lead.length + w.length) rest :=
  ⟨⟨w, offset + lead.length, offset + lead.length + w.length⟩, hupper, rfl,
    tokensAt_append offset hlead (isToken_word hw hrest)⟩

/-- Every attribute begins with a word that ends a default. -/
theorem isStop_head?_tail (as : List Attribute) (offset : Nat) :
    ∀ t ∈ (tokensAt offset (tail as)).head?, isStop t = true := by
  cases as with
  | nil => simp [tail, tokensAt_nil]
  | cons a as =>
    obtain ⟨more, htext, hmore⟩ := exists_text_eq a
    have hnext : ∀ c ∈ (more ++ tail as).head?, c = ' ' := by
      cases more with
      | nil => exact head?_tail as
      | cons x more => exact hmore
    obtain ⟨t, ht, -, hcut⟩ := tokensAt_word offset isBlank_of_mem_space (isWordText_keyword a)
      (isRunChar_of_space hnext) rfl
    have htail : tail (a :: as) = [' '] ++ a.keyword.toList ++ (more ++ tail as) := by
      simp [tail, htext]
    rw [htail, hcut]
    rintro t' ⟨⟩
    have hstops : ∀ w ∈ keywords, stopWords.contains (upper (ofChars w.toList)) = true := by decide
    rw [isStop, ht]
    exact hstops _ a.keyword_mem

/-! ## Defaults -/

def beginsValue (c : Char) : Bool :=
  c == '\'' || c == '-' || c.isDigit

theorem upperChar_of_beginsValue {c : Char} (h : beginsValue c = true) : upperChar c = [c] := by
  have hdigits : ∀ n : Fin 58, 48 ≤ n.val → upperChar (Char.ofNat n) = [Char.ofNat n] := by decide
  simp only [beginsValue, Bool.or_eq_true, beq_iff_eq] at h
  rcases h with (rfl | rfl) | hdigit
  · rfl
  · rfl
  · obtain ⟨hlow, hhigh⟩ := Value.toNat_of_isDigit hdigit
    have hc := hdigits ⟨c.toNat, by omega⟩ hlow
    rwa [Char.ofNat_toNat] at hc

/-- No word that begins an attribute begins with anything but a letter. -/
theorem isStop_of_head? {x : Char} (hx : t.text.head? = some x) (hupper : upperChar x = [x])
    (hletter : isAsciiLetter x = false) : isStop t = false := by
  have hletters : stopWords.all (·.toList.head?.any isAsciiLetter) = true := by decide
  obtain ⟨text, start, stop⟩ := t
  obtain ⟨cs, rfl⟩ : ∃ cs, text = x :: cs := List.head?_eq_some_iff.1 hx
  rw [isStop, Bool.eq_false_iff]
  intro hstop
  have hfirst := List.all_eq_true.1 hletters _ (List.contains_iff_mem.1 hstop)
  rw [Token.word, toList_upper, String.toList_ofList, List.flatMap_cons, hupper] at hfirst
  have hfirst : isAsciiLetter x = true := hfirst
  rw [hletter] at hfirst
  cases hfirst

theorem isStop_of_beginsValue (h : t.text.head?.any beginsValue = true) : isStop t = false := by
  obtain ⟨x, hx, hbegins⟩ := (Option.any_eq_true _ _).1 h
  refine isStop_of_head? hx (upperChar_of_beginsValue hbegins) ?_
  simp only [beginsValue, Bool.or_eq_true, beq_iff_eq] at hbegins
  rcases hbegins with (rfl | rfl) | hdigit
  · rfl
  · rfl
  · obtain ⟨hlow, hhigh⟩ := Value.toNat_of_isDigit hdigit
    have hn : x.val.toNat = x.toNat := rfl
    simp only [isAsciiLetter, Char.le_def, UInt32.le_iff_toNat_le, hn]
    simp
    omega

/-- Tokens that stand for a value between two places. -/
structure IsValue (ts : List Token) (start stop : Nat) : Prop where
  values : ∀ t ∈ ts, isStop t = false
  head : ∃ t ∈ ts.head?, t.start = start
  last : ∃ t ∈ ts.getLast?, t.stop = stop

theorem IsValue.span_eq (h : IsValue ts pre.length (pre.length + w.length))
    (htext : text = pre ++ w ++ rest) : span text ts = w := by
  obtain ⟨a, ha, hstart⟩ := h.head
  obtain ⟨z, hz, hstop⟩ := h.last
  rw [span, Option.mem_def.1 ha, Option.mem_def.1 hz]
  dsimp only
  rw [slice, hstart, hstop, htext, List.append_assoc, List.drop_left, Nat.add_sub_cancel_left,
    List.take_left]

theorem isValue_singleton (h : t.text.head?.any beginsValue = true) :
    IsValue [t] t.start t.stop where
  values := by simpa using isStop_of_beginsValue h
  head := ⟨t, rfl, rfl⟩
  last := ⟨t, rfl, rfl⟩

theorem tokensAt_digits (offset : Nat) (hlead : ∀ c ∈ lead, isBlank c = true) (n : Nat)
    (hrest : ∀ c ∈ rest.head?, isRunChar c = false) :
    tokensAt offset (lead ++ Nat.toDigits 10 n ++ rest) =
      ⟨Nat.toDigits 10 n, offset + lead.length,
        offset + lead.length + (Nat.toDigits 10 n).length⟩ ::
        tokensAt (offset + lead.length + (Nat.toDigits 10 n).length) rest := by
  have hword : IsWordText (Nat.toDigits 10 n) :=
    ⟨Nat.toDigits_ne_nil, fun c hc => Value.isWord_of_isDigit (Value.isDigit_of_mem_toDigits hc)⟩
  exact tokensAt_append offset hlead (isToken_word hword hrest)

theorem beginsValue_digits (n : Nat) : (Nat.toDigits 10 n).head?.any beginsValue = true := by
  obtain ⟨c, cs, hdigits⟩ := List.exists_cons_of_ne_nil (Nat.toDigits_ne_nil (b := 10) (n := n))
  have hc : c.isDigit = true := Value.isDigit_of_mem_toDigits (hdigits ▸ List.mem_cons_self)
  rw [hdigits, List.head?_cons, Option.any_some, beginsValue, hc, Bool.or_true]

/-- The tokens of a plain default stand for it. -/
theorem tokensAt_default (offset : Nat) (hv : IsPlainDefault d v)
    (hlead : ∀ c ∈ lead, isBlank c = true) (hrest : ∀ c ∈ rest.head?, c = ' ') :
    ∃ ts, tokensAt offset (lead ++ v.toList ++ rest) =
        ts ++ tokensAt (offset + lead.length + v.toList.length) rest ∧
      IsValue ts (offset + lead.length) (offset + lead.length + v.toList.length) := by
  have hrun : ∀ c ∈ rest.head?, isRunChar c = false := by
    intro c hc
    rw [hrest c hc]
    decide
  cases hv with
  | @text w hw =>
    have hquote : rest.head? ≠ some '\'' := by
      intro h
      exact absurd (hrest _ h) (by decide)
    have hcut := tokensAt_append offset hlead (isToken_literal d (.inr hw) hquote)
    have hbegins : (d.textLiteral w).toList.head?.any beginsValue = true := by
      rw [Dialect.toList_textLiteral]
      rfl
    have hvalue := isValue_singleton (t := ⟨(d.textLiteral w).toList, offset + lead.length,
      offset + lead.length + (d.textLiteral w).toList.length⟩) hbegins
    exact ⟨_, hcut, hvalue⟩
  | number n =>
    rcases Int.lt_or_le n 0 with hneg | hpos
    · have hdash := tokensAt_append offset hlead
        (isToken_dash (Nat.toDigits 10 n.natAbs ++ rest))
      have hnone : ∀ c ∈ ([] : Chars), isBlank c = true := List.forall_mem_nil _
      have hdigits := tokensAt_digits (offset + lead.length + 1) hnone n.natAbs hrun
      rw [List.nil_append, List.length_nil, Nat.add_zero] at hdigits
      rw [List.length_singleton, hdigits] at hdash
      have hsplit : lead ++ '-' :: Nat.toDigits 10 n.natAbs ++ rest =
          lead ++ ['-'] ++ (Nat.toDigits 10 n.natAbs ++ rest) := by
        simp only [List.append_assoc, List.cons_append, List.nil_append]
      have hlength : offset + lead.length + ('-' :: Nat.toDigits 10 n.natAbs).length =
          offset + lead.length + 1 + (Nat.toDigits 10 n.natAbs).length := by
        rw [List.length_cons]
        omega
      rw [Value.toList_toString_of_neg hneg, hsplit, hlength]
      refine ⟨[_, _], hdash, ?_, ⟨_, rfl, rfl⟩, ⟨_, rfl, rfl⟩⟩
      simp only [List.forall_mem_cons, List.not_mem_nil, false_implies, implies_true, and_true]
      exact ⟨isStop_of_beginsValue rfl, isStop_of_beginsValue (beginsValue_digits _)⟩
    · rw [Value.toList_toString_of_nonneg hpos]
      exact ⟨_, tokensAt_digits offset hlead n.natAbs hrun, isValue_singleton
        (t := ⟨_, offset + lead.length, _⟩) (beginsValue_digits _)⟩

/-! ## One attribute -/

theorem readAttribute_unsigned (h : t.word = "UNSIGNED") :
    readAttribute text t ts c extras = .ok ({ c with unsigned := true }, extras, some 0) := by
  unfold readAttribute
  rw [h]
  rfl

theorem readAttribute_not {u : Token} (h : t.word = "NOT") (hu : u.word = "NULL") :
    readAttribute text t (u :: ts) c extras =
      .ok ({ c with nullable := false }, extras, some 1) := by
  unfold readAttribute
  rw [h, List.head?_cons, Option.map_some, hu]
  rfl

theorem readAttribute_primary (h : t.word = "PRIMARY") :
    readAttribute text t ts c extras =
      .ok ({ c with nullable := false }, extras ++ [.primaryKey], some 1) := by
  unfold readAttribute
  rw [h]
  rfl

theorem readAttribute_automatic (h : t.word = "AUTO_INCREMENT" ∨ t.word = "AUTOINCREMENT") :
    readAttribute text t ts c extras =
      .ok ({ c with autoIncrement := true }, extras, some 0) := by
  unfold readAttribute
  rcases h with h | h <;>
  · rw [h]
    rfl

theorem readAttribute_default {us : List Token} (h : t.word = "DEFAULT") (hne : us ≠ [])
    (hus : ∀ u ∈ us, isStop u = false) (hts : ∀ u ∈ ts.head?, isStop u = true)
    (hspan : ofChars (trim (span text us)) = v) :
    readAttribute text t (us ++ ts) c extras =
      .ok ({ c with default := some v }, extras, some us.length) := by
  have htake : (us ++ ts).takeWhile (!isStop ·) = us := by
    rw [List.takeWhile_append_of_pos (by simpa using hus)]
    cases ts with
    | nil => simp
    | cons u ts => rw [List.takeWhile_cons_of_neg (by simp [hts u rfl]), List.append_nil]
  unfold readAttribute
  rw [h]
  dsimp only
  rw [htake, hspan, List.isEmpty_eq_false_iff.2 hne]
  rfl

theorem readAttribute_comment {x : Chars} {start stop : Nat} (h : t.word = "COMMENT")
    (hx : stringValues x = [v]) :
    readAttribute text t (⟨x, start, stop⟩ :: ts) c extras =
      .ok ({ c with comment := some v }, extras, some 1) := by
  unfold readAttribute
  rw [h]
  dsimp only
  rw [hx]
  rfl

/-- Words with a space between neighbours. -/
theorem tokensAt_words (offset : Nat) {ws : List Chars} (hne : ws ≠ [])
    (hws : ∀ w ∈ ws, IsWordText w) (hlead : ∀ c ∈ lead, isBlank c = true)
    (hrest : ∀ c ∈ rest.head?, isRunChar c = false) :
    ∃ us, tokensAt offset (lead ++ [' '].intercalate ws ++ rest) =
        us ++ tokensAt (offset + (lead ++ [' '].intercalate ws).length) rest ∧
      us.map Token.word = ws.map fun w => upper (ofChars w) := by
  induction ws generalizing lead offset with
  | nil => exact absurd rfl hne
  | cons w ws ih =>
    have hw := hws w List.mem_cons_self
    cases ws with
    | nil =>
      obtain ⟨t, ht, -, hcut⟩ := tokensAt_word offset hlead hw hrest rfl
      rw [List.intercalate_singleton, hcut, List.length_append, ← Nat.add_assoc]
      exact ⟨[t], rfl, by simp [ht]⟩
    | cons x ws =>
      obtain ⟨us, hus, hwords⟩ := ih (offset + lead.length + w.length) (by simp)
        (fun w hw => hws w (List.mem_cons_of_mem _ hw)) isBlank_of_mem_space
      have hnext : ∀ c ∈ ([' '] ++ [' '].intercalate (x :: ws) ++ rest).head?,
          isRunChar c = false := by
        rintro c ⟨⟩
        decide
      obtain ⟨t, ht, -, hcut⟩ := tokensAt_word offset hlead hw hnext rfl
      have hsplit : lead ++ [' '].intercalate (w :: x :: ws) ++ rest =
          lead ++ w ++ ([' '] ++ [' '].intercalate (x :: ws) ++ rest) := by
        rw [List.intercalate_cons_cons]
        simp only [List.append_assoc]
      have hlength : (lead ++ [' '].intercalate (w :: x :: ws)).length =
          lead.length + w.length + ([' '] ++ [' '].intercalate (x :: ws)).length := by
        rw [List.intercalate_cons_cons]
        simp only [List.length_append]
        omega
      refine ⟨t :: us, ?_, by simp only [List.map_cons, ht, hwords]⟩
      rw [hsplit, hcut, hus, hlength, ← Nat.add_assoc, ← Nat.add_assoc]
      rfl

/-- An attribute of a keyword and a value begins with the token of the keyword. -/
theorem tokensAt_keyword (offset : Nat) (x rest : Chars) (hw : IsWordText w)
    (hlead : ∀ c ∈ lead, isBlank c = true) (hupper : upper (ofChars w) = v) :
    ∃ t : Token, t.word = v ∧ tokensAt offset (lead ++ (w ++ ' ' :: x) ++ rest) =
      t :: tokensAt (offset + lead.length + w.length) ([' '] ++ x ++ rest) := by
  have hnext : ∀ c ∈ ([' '] ++ x ++ rest).head?, isRunChar c = false := by
    rintro c ⟨⟩
    decide
  obtain ⟨t, ht, -, hcut⟩ := tokensAt_word offset hlead hw hnext hupper
  have hwhole : lead ++ (w ++ ' ' :: x) ++ rest = lead ++ w ++ ([' '] ++ x ++ rest) := by
    simp only [List.append_assoc, List.cons_append, List.nil_append]
  exact ⟨t, ht, by rw [hwhole, hcut]⟩

theorem toList_default (v : String) :
    (Attribute.default v).text.toList = "DEFAULT".toList ++ ' ' :: v.toList := by
  simp [Attribute.text]

theorem toList_comment (v : String) : (Attribute.comment v).text.toList =
    "COMMENT".toList ++ ' ' :: (Dialect.mysql.textLiteral v).toList := by
  simp [Attribute.text]

theorem readAll_default (hv : IsPlainDefault d v) (hlead : ∀ c ∈ lead, isBlank c = true)
    (htext : text = pre ++ (lead ++ (Attribute.default v).text.toList) ++ tail as) :
    readAll text (tokensAt pre.length (lead ++ (Attribute.default v).text.toList ++ tail as)) c
        extras =
      readAll text (tokensAt (pre ++ (lead ++ (Attribute.default v).text.toList)).length (tail as))
        { c with default := some v } extras := by
  rw [toList_default] at htext ⊢
  obtain ⟨t, ht, hcut⟩ := tokensAt_keyword pre.length v.toList (tail as)
    (isWordText_of_all (w := "DEFAULT".toList) (by decide) (by decide)) hlead rfl
  obtain ⟨us, hus, hvalue⟩ := tokensAt_default
    (pre.length + lead.length + "DEFAULT".toList.length) hv isBlank_of_mem_space (head?_tail as)
  have hplace : (pre ++ lead ++ "DEFAULT".toList ++ [' ']).length =
      pre.length + lead.length + "DEFAULT".toList.length + [' '].length := by
    simp only [List.length_append]
  have hlength : (pre ++ (lead ++ ("DEFAULT".toList ++ ' ' :: v.toList))).length =
      pre.length + lead.length + "DEFAULT".toList.length + [' '].length + v.toList.length := by
    simp only [List.length_append, List.length_cons, List.length_nil]
    omega
  have hspan : ofChars (trim (span text us)) = v := by
    have hwhole : text = pre ++ lead ++ "DEFAULT".toList ++ [' '] ++ v.toList ++ tail as := by
      rw [htext]
      simp only [List.append_assoc, List.cons_append, List.nil_append]
    rw [← hplace] at hvalue
    rw [hvalue.span_eq hwhole, hv.phrase.toIsItem.trim]
    exact String.ofList_toList
  have hne : us ≠ [] := by
    rintro rfl
    obtain ⟨u, hu, -⟩ := hvalue.head
    cases hu
  rw [hcut, hus, readAll_cons (readAttribute_default ht hne hvalue.values
    (isStop_head?_tail as _) hspan), List.drop_left, hlength]

theorem readAll_comment (v : String) (hlead : ∀ c ∈ lead, isBlank c = true) :
    readAll text (tokensAt pre.length (lead ++ (Attribute.comment v).text.toList ++ tail as)) c
        extras =
      readAll text (tokensAt (pre ++ (lead ++ (Attribute.comment v).text.toList)).length (tail as))
        { c with comment := some (reread .mysql v) } extras := by
  have hquote : (tail as).head? ≠ some '\'' := by
    intro h
    exact absurd (head?_tail as _ h) (by decide)
  have hupper : upper (ofChars "COMMENT".toList) = "COMMENT" := by decide
  obtain ⟨t, ht, hcut⟩ := tokensAt_keyword pre.length (Dialect.mysql.textLiteral v).toList (tail as)
    (isWordText_of_all (w := "COMMENT".toList) (by decide) (by decide)) hlead hupper
  have hliteral := tokensAt_append (pre.length + lead.length + "COMMENT".toList.length)
    isBlank_of_mem_space (isToken_literal .mysql (v := v) (.inl rfl) hquote)
  have hlength : (pre ++ (lead ++ ("COMMENT".toList ++
      ' ' :: (Dialect.mysql.textLiteral v).toList))).length = pre.length + lead.length +
        "COMMENT".toList.length + [' '].length + (Dialect.mysql.textLiteral v).toList.length := by
    simp only [List.length_append, List.length_cons, List.length_nil]
    omega
  have hvalues : stringValues (Dialect.mysql.textLiteral v).toList = [reread .mysql v] :=
    stringValues_literal .mysql (.inl rfl)
  rw [toList_comment, hcut, hliteral, readAll_cons (readAttribute_comment ht hvalues),
    List.drop_succ_cons, List.drop_zero, hlength]

theorem readAll_attribute (ha : a.IsWritten d) (hlead : ∀ c ∈ lead, isBlank c = true)
    (htext : text = pre ++ (lead ++ a.text.toList) ++ tail as) :
    readAll text (tokensAt pre.length (lead ++ a.text.toList ++ tail as)) c extras =
      readAll text (tokensAt (pre ++ (lead ++ a.text.toList)).length (tail as)) (a.read.give c)
        (extras ++ a.extras) := by
  have words (ws : List Chars) (htext : a.text.toList = [' '].intercalate ws) (hne : ws ≠ [])
      (hws : ∀ w ∈ ws, w ≠ [] ∧ w.all isWord = true) :
      ∃ us, tokensAt pre.length (lead ++ a.text.toList ++ tail as) =
          us ++ tokensAt (pre ++ (lead ++ a.text.toList)).length (tail as) ∧
        us.map Token.word = ws.map fun w => upper (ofChars w) := by
    rw [htext, List.length_append]
    exact tokensAt_words _ hne (fun w hw => isWordText_of_all (hws w hw).1 (hws w hw).2) hlead
      (isRunChar_of_space (head?_tail as))
  have hnone : extras ++ [] = extras := List.append_nil _
  cases a with
  | unsigned =>
    obtain ⟨us, hcut, hus⟩ := words ["unsigned".toList] rfl (by simp) (by decide)
    obtain ⟨t, rfl, ht⟩ := List.map_eq_singleton_iff.1 hus
    rw [hcut, List.singleton_append, readAll_cons (readAttribute_unsigned ht)]
    exact congrArg _ hnone.symm
  | notNull =>
    obtain ⟨us, hcut, hus⟩ := words ["NOT".toList, "NULL".toList] rfl (by simp) (by decide)
    obtain ⟨t, us, rfl, ht, hus⟩ := List.map_eq_cons_iff.1 hus
    obtain ⟨u, rfl, hu⟩ := List.map_eq_singleton_iff.1 hus
    rw [hcut, List.cons_append, List.singleton_append, readAll_cons (readAttribute_not ht hu)]
    exact congrArg _ hnone.symm
  | rowKey =>
    obtain ⟨us, hcut, hus⟩ := words ["PRIMARY".toList, "KEY".toList, "AUTOINCREMENT".toList] rfl
      (by simp) (by decide)
    obtain ⟨t, us, rfl, ht, hus⟩ := List.map_eq_cons_iff.1 hus
    obtain ⟨key, us, rfl, -, hus⟩ := List.map_eq_cons_iff.1 hus
    obtain ⟨u, rfl, hu⟩ := List.map_eq_singleton_iff.1 hus
    rw [hcut, List.cons_append, List.cons_append, List.singleton_append,
      readAll_cons (readAttribute_primary ht), List.drop_succ_cons, List.drop_zero,
      readAll_cons (readAttribute_automatic (.inr hu))]
    rfl
  | automatic =>
    obtain ⟨us, hcut, hus⟩ := words ["AUTO_INCREMENT".toList] rfl (by simp) (by decide)
    obtain ⟨t, rfl, ht⟩ := List.map_eq_singleton_iff.1 hus
    rw [hcut, List.singleton_append, readAll_cons (readAttribute_automatic (.inl ht))]
    exact congrArg _ hnone.symm
  | default v => exact (readAll_default ha hlead htext).trans (congrArg _ hnone.symm)
  | comment v => exact (readAll_comment v hlead).trans (congrArg _ hnone.symm)

/-- Attributes with a space before each are read one after another. -/
theorem readAll_tail (has : ∀ a ∈ as, a.IsWritten d) (htext : text = pre ++ tail as) :
    readAll text (tokensAt pre.length (tail as)) c extras =
      .ok ((as.map Attribute.read).foldl give c, extras ++ as.flatMap Attribute.extras) := by
  induction as generalizing pre c extras with
  | nil => simp [tail, tokensAt, tokensFrom, readAll, readAttributes]
  | cons a as ih =>
    have htail : tail (a :: as) = [' '] ++ a.text.toList ++ tail as := by simp [tail]
    have hwhole : text = pre ++ ([' '] ++ a.text.toList) ++ tail as := by
      rw [htext, htail]
      simp only [List.append_assoc]
    rw [htail, readAll_attribute (has a List.mem_cons_self)
      (List.forall_mem_singleton.2 (by decide)) hwhole,
      ih (fun a ha => has a (List.mem_cons_of_mem _ ha)) hwhole,
      List.map_cons, List.foldl_cons, List.flatMap_cons, List.append_assoc]

/-- The attributes behind a type are read one after another. -/
theorem readAll_trim (has : ∀ a ∈ as, a.IsWritten d) :
    readAll (trim (tail as)) (tokens (trim (tail as))) c [] =
      .ok ((as.map Attribute.read).foldl give c, as.flatMap Attribute.extras) := by
  cases as with
  | nil => rfl
  | cons a as =>
    obtain ⟨ha, has⟩ := List.forall_mem_cons.1 has
    have hphrase := phrase_tail (phrase_text ha) has
    have htrim : trim (tail (a :: as)) = a.text.toList ++ tail as := by
      have h : trim ([' '] ++ (a.text.toList ++ tail as) ++ []) = a.text.toList ++ tail as :=
        hphrase.toIsItem.trim_of_blanks (List.forall_mem_singleton.2 (by decide))
          (List.forall_mem_nil _)
      rwa [List.append_nil] at h
    have hwhole : a.text.toList ++ tail as = [] ++ ([] ++ a.text.toList) ++ tail as := rfl
    rw [htrim]
    exact (readAll_attribute ha (List.forall_mem_nil _) hwhole).trans (readAll_tail has rfl)

end SqlFerry.Ddl
