import SqlFerry.Proofs.Pattern.Words
import SqlFerry.Proofs.Sql.Requote
import SqlFerry.Proofs.Value.Numerals

/-!
# Casts in a text that is quoted anew

What is read as the type of a cast: a word, perhaps the words that may follow it, numbers in
parentheses and array marks, in this order. On a dialect without casts the whole cast goes; what
stands behind the part that is read stays.
-/

namespace SqlFerry.Sql

open Text Pattern

variable {t : Dialect} {before : Option Char} {w x later numbers marks taken rest : Chars} {n : Nat}

/-! ## The parts of a type -/

def beginsType (c : Char) : Bool :=
  isAsciiLetter c || c == '_'

def continuesType (c : Char) : Bool :=
  isWord c || c == '.'

def laterTypeWords : Pattern :=
  choice [text "varying", text "precision",
    text "with" ++ opt (text "out") ++ blanks1 ++ text "time" ++ blanks1 ++ text "zone"]

def typeNumbers : Pattern :=
  blanks ++ char '(' ++ blanks ++ plus digit ++ opt (blanks ++ char ',' ++ blanks ++ plus digit) ++
    blanks ++ char ')'

theorem castPattern_eq : castPattern = text "::" ++ blanks ++ one beginsType ++
    star (one continuesType) ++ opt (blanks1 ++ laterTypeWords) ++ opt typeNumbers ++
      star (text "[]") :=
  rfl

def isTypeWord (w : Chars) : Bool :=
  w.head?.any beginsType && w.all continuesType

theorem reads_text (s : String) : Reads (text s) before s.toList rest [] := by
  rw [text]
  generalize s.toList = cs
  induction cs generalizing before with
  | nil => exact .empty
  | cons c cs ih =>
    exact .congr (ends_ofList_cons _ _) (.seq (x := [c]) (.one (beq_self_eq_true c)) ih)

theorem refuses_text {s : String} {a : Char} (hs : s.toList.head? = some a)
    (h : rest.head? ≠ some a) : Refuses (text s) before rest := by
  obtain ⟨cs, hcs⟩ := List.head?_eq_some_iff.1 hs
  intro n captures
  rw [text, hcs, List.map_cons, Fails, ends_ofList_cons]
  refine Refuses.seq_left (.one fun c hc => ?_) n captures
  exact beq_false_of_ne fun hca : c = a => h (hca ▸ hc)

theorem reads_space_cons {c : Char} (hc : isBlank c = false) :
    Reads blanks1 before [' '] (c :: rest) [] :=
  reads_space1 (by simpa using hc)

/-- A time zone is read with it or without it. -/
theorem reads_zone (h : Reads (text "with" ++ opt (text "out")) before x
      (' ' :: ("time".toList ++ ' ' :: ("zone".toList ++ rest))) []) :
    Reads (text "with" ++ opt (text "out") ++ blanks1 ++ text "time" ++ blanks1 ++ text "zone")
      before (x ++ " time zone".toList) rest [] := by
  have htime := (h.seq (y := [' ']) (reads_space_cons (by decide))).seq (reads_text "time")
  have hzone := (htime.seq (y := [' ']) (reads_space_cons (by decide))).seq (reads_text "zone")
  simpa using hzone

theorem reads_laterTypeWords {later : String}
    (hlater : later ∈ ["varying", "precision", "with time zone", "without time zone"]) :
    Reads laterTypeWords before later.toList rest [] := by
  have hwith : "with time zone".toList = "with".toList ++ " time zone".toList := by decide
  have hwithout : "without time zone".toList =
      "with".toList ++ "out".toList ++ " time zone".toList := by
    decide
  simp only [List.mem_cons, List.not_mem_nil, or_false] at hlater
  rcases hlater with rfl | rfl | rfl | rfl
  · exact .left (reads_text "varying")
  · exact .right (refuses_text (a := 'v') rfl (by simp)) (.left (reads_text "precision"))
  · rw [hwith]
    refine .right (refuses_text (a := 'v') rfl (by simp))
      (.right (refuses_text (a := 'p') rfl (by simp)) (reads_zone ?_))
    exact (reads_text "with").seq_skip (refuses_text (a := 'o') rfl (by simp))
  · rw [hwithout]
    refine .right (refuses_text (a := 'v') rfl (by simp))
      (.right (refuses_text (a := 'p') rfl (by simp)) (reads_zone ?_))
    exact (reads_text "with").seq (.opt (reads_text "out"))

/-- The words that may follow the first are read behind a space. -/
theorem reads_later {later : String}
    (hlater : later ∈ ["varying", "precision", "with time zone", "without time zone"]) :
    Reads (opt (blanks1 ++ laterTypeWords)) before (' ' :: later.toList) rest [] := by
  have hsolid : ∀ later ∈ ["varying", "precision", "with time zone", "without time zone"],
      later.toList.head?.any (!isBlank ·) = true := by
    decide
  obtain ⟨c, hc, hblank⟩ := (Option.any_eq_true _ _).1 (hsolid later hlater)
  have hspace : Reads blanks1 before [' '] (later.toList ++ rest) [] := by
    refine reads_space1 ?_
    rw [List.head?_append, hc]
    simpa using hblank
  exact .opt (hspace.seq (reads_laterTypeWords hlater))

/-! ## Numbers -/

theorem isBlank_of_isDigit {c : Char} (h : c.isDigit = true) : isBlank c = false :=
  not_isBlank_of_isWord (Value.isWord_of_isDigit h)

/-- A number without a sign is read up to where no digit follows. -/
theorem reads_digits (m : Nat) (h : ∀ c ∈ rest.head?, isDecimal c = false) :
    Reads (plus digit) before (Nat.toDigits 10 m) rest [] :=
  reads_plus_one Nat.toDigits_ne_nil
    (fun _ hc => Value.isDecimal_of_isDigit (Value.isDigit_of_mem_toDigits hc)) h

theorem exists_toDigits_eq (m : Nat) : ∃ c cs, Nat.toDigits 10 m = c :: cs ∧ c.isDigit = true ∧
    ∀ c ∈ cs, c.isDigit = true := by
  obtain ⟨c, cs, hcs⟩ := List.exists_cons_of_ne_nil (Nat.toDigits_ne_nil (b := 10) (n := m))
  have hdigits : ∀ x ∈ c :: cs, x.isDigit = true :=
    fun x hx => Value.isDigit_of_mem_toDigits (hcs ▸ hx)
  obtain ⟨hc, hrest⟩ := List.forall_mem_cons.1 hdigits
  exact ⟨c, cs, hcs, hc, hrest⟩

/-- Blanks that are not there. -/
theorem seq_noBlanks {p : Pattern} (h : Reads p before x rest [])
    (hrest : ∀ c ∈ rest.head?, isBlank c = false) : Reads (p ++ blanks) before x rest [] :=
  h.seq_star_nil (.one hrest)

theorem refuses_blanks_char {c d : Char} (hblank : isBlank c = false) (hne : c ≠ d)
    (hd : isBlank d = false) : Refuses (blanks ++ char d) before (c :: rest) := by
  have htrim : trimLeft (c :: rest) = c :: rest := trimLeft_eq_self (by simpa using hblank)
  refine refuses_blanks_one (by rw [htrim]; simpa using hne) fun x hx => beq_false_of_ne ?_
  rintro rfl
  rw [hx] at hd
  cases hd

def numbersText : List Int → Chars
  | [] => []
  | ns => '(' :: [','].intercalate (ns.map fun n => (toString n).toList) ++ [')']

theorem numbersText_one (n : Int) : numbersText [n] = '(' :: (toString n).toList ++ [')'] := by
  rw [numbersText, List.map_singleton, List.intercalate_singleton]
  simp

theorem numbersText_two (n m : Int) :
    numbersText [n, m] = '(' :: (toString n).toList ++ ',' :: (toString m).toList ++ [')'] := by
  simp [numbersText, List.intercalate]

/-- A number is read behind its mark. -/
theorem reads_marked {mark next : Char} (hmark : isBlank mark = false) (m : Nat)
    (hnext : isDecimal next = false) :
    Reads (blanks ++ char mark ++ blanks ++ plus digit) before (mark :: Nat.toDigits 10 m)
      (next :: rest) [] := by
  have hchar {y : Chars} : Reads (blanks ++ char mark) before [mark] y [] :=
    .seq (x := []) (.star_nil (.one (by simpa using hmark)))
      (.one (f := (· == mark)) (beq_self_eq_true mark))
  have hdigit : ∀ d ∈ (Nat.toDigits 10 m ++ next :: rest).head?, isBlank d = false := by
    obtain ⟨d, ds, hds, hd, -⟩ := exists_toDigits_eq m
    rw [hds]
    simpa using isBlank_of_isDigit hd
  exact (seq_noBlanks hchar hdigit).seq (reads_digits m (by simpa using hnext))

/-- One or two numbers without signs are read. -/
theorem reads_typeNumbers {ns : List Int} (hne : ns ≠ []) (hlength : ns.length ≤ 2)
    (h : ∀ n ∈ ns, 0 ≤ n) : Reads typeNumbers before (numbersText ns) rest [] := by
  have hclose {p : Pattern} {y : Chars} (hp : Reads p before y (')' :: rest) []) :
      Reads (p ++ blanks ++ char ')') before (y ++ [')']) rest [] :=
    (seq_noBlanks hp (by simp [isBlank])).seq (.one rfl)
  rcases ns with _ | ⟨n, _ | ⟨m, _ | ⟨_, _⟩⟩⟩
  · exact absurd rfl hne
  · rw [numbersText_one, Value.toList_toString_of_nonneg (h n (by simp))]
    refine hclose ((reads_marked (by decide) _ (by decide)).seq_skip ?_)
    exact .seq_left (.seq_left (refuses_blanks_char (by decide) (by decide) (by decide)))
  · rw [numbersText_two, Value.toList_toString_of_nonneg (h n (by simp)),
      Value.toList_toString_of_nonneg (h m (by simp))]
    have hsecond {before : Option Char} : Reads (blanks ++ char ',' ++ blanks ++ plus digit) before
        (',' :: Nat.toDigits 10 m.natAbs) (')' :: rest) [] :=
      reads_marked (by decide) _ (by decide)
    exact hclose (.seq (reads_marked (by decide : isBlank '(' = false) _
      (by decide : isDecimal ',' = false)) (.opt hsecond))
  · simp only [List.length_cons] at hlength
    omega

def EndsWords (cs : Chars) : Prop :=
  ∀ c ∈ cs.head?, c = '(' ∨ c = '['

inductive IsLater : Chars → Prop where
  | none : IsLater []
  | some {words : String}
      (h : words ∈ ["varying", "precision", "with time zone", "without time zone"]) :
      IsLater (' ' :: words.toList)

theorem reads_castName (hw : isTypeWord w = true)
    (hrest : ∀ c ∈ rest.head?, continuesType c = false) :
    Reads (text "::" ++ blanks ++ one beginsType ++ star (one continuesType)) before
      ("::".toList ++ w) rest [] := by
  cases w with
  | nil => cases hw
  | cons c cs =>
    simp only [isTypeWord, List.head?_cons, Option.any_some, List.all_cons, Bool.and_eq_true] at hw
    obtain ⟨hc, -, hcs⟩ := hw
    have hsolid : isBlank c = false := by
      rcases Bool.or_eq_true _ _ ▸ hc with hletter | hunder
      · exact isBlank_of_isAsciiLetter hletter
      · exact beq_iff_eq.1 hunder ▸ by decide
    have hname : Reads (text "::" ++ blanks ++ one beginsType) before ("::".toList ++ [c])
        (cs ++ rest) [] :=
      (seq_noBlanks (reads_text "::") (by simpa using hsolid)).seq (.one hc)
    have h := hname.seq (.star_one (List.all_eq_true.1 hcs) hrest)
    rwa [List.append_assoc, List.singleton_append] at h

theorem IsLater.reads (h : IsLater later) (hrest : EndsWords rest) :
    Reads (opt (blanks1 ++ laterTypeWords)) before later rest [] := by
  cases h with
  | some h => exact reads_later h
  | none =>
    refine .skip (.seq_left (refuses_blanks1 fun c hc => ?_))
    rcases hrest c hc with rfl | rfl <;> decide

theorem IsLater.endsName (h : IsLater later) (hrest : EndsWords rest) :
    ∀ c ∈ (later ++ rest).head?, continuesType c = false := by
  cases h with
  | some h =>
    rintro c ⟨⟩
    decide
  | none =>
    intro c hc
    rcases hrest c hc with rfl | rfl <;> decide

/-- All words of a type are read. -/
theorem reads_words (hw : isTypeWord w = true) (hlater : IsLater later) (hrest : EndsWords rest) :
    Reads (text "::" ++ blanks ++ one beginsType ++ star (one continuesType) ++
      opt (blanks1 ++ laterTypeWords)) before ("::".toList ++ w ++ later) rest [] :=
  (reads_castName hw (hlater.endsName hrest)).seq (hlater.reads hrest)

def marksText (isArray : Bool) : Chars :=
  if isArray then ['[', ']'] else []

theorem reads_marks {isArray : Bool} (h : rest.head? ≠ some '[') :
    Reads (star (text "[]")) before (marksText isArray) rest [] := by
  have hend {before : Option Char} : Reads (star (text "[]")) before [] rest [] :=
    .star_nil (refuses_text (a := '[') rfl h)
  cases isArray with
  | false => exact hend
  | true => exact .star_cons (y := []) (reads_text "[]") (by simp) hend

theorem endsWords_numbers {ns : List Int} (h : ns ≠ []) : EndsWords (numbersText ns ++ rest) := by
  cases ns with
  | nil => exact absurd rfl h
  | cons n ns =>
    rintro c ⟨⟩
    exact .inl rfl

theorem endsWords_marks {isArray : Bool} : EndsWords (marksText isArray) := by
  cases isArray with
  | false => exact fun _ hc => by cases hc
  | true => exact fun _ hc => by cases hc; exact .inr rfl

theorem refuses_numbers_marks {isArray : Bool} :
    Refuses typeNumbers before (marksText isArray) := by
  have hopen : Refuses (blanks ++ char '(') before (marksText isArray) := by
    cases isArray with
    | false => exact .after (x := []) (.star_nil (.one (by simp))) (.one (by simp))
    | true => exact refuses_blanks_char (by decide) (by decide) (by decide)
  exact .seq_left (.seq_left (.seq_left (.seq_left (.seq_left hopen))))

/-- A type whose numbers have no signs is read with its numbers and marks. -/
theorem reads_cast (hw : isTypeWord w = true) (hlater : IsLater later) {ns : List Int}
    (hlength : ns.length ≤ 2) (h : ∀ n ∈ ns, 0 ≤ n) {isArray : Bool}
    (hrest : rest = [] ∨ ns ≠ [] ∧ rest.head? ≠ some '[') :
    Reads castPattern before
      ("::".toList ++ (w ++ later ++ numbersText ns ++ marksText isArray)) rest [] := by
  have hmarks {before : Option Char} :
      Reads (star (text "[]")) before (marksText isArray) rest [] := by
    refine reads_marks ?_
    rcases hrest with rfl | hrest
    · simp
    · exact hrest.2
  rw [castPattern_eq, ← List.append_assoc, ← List.append_assoc, ← List.append_assoc]
  by_cases hns : ns = []
  · obtain rfl : rest = [] := by simpa [hns] using hrest
    subst hns
    have hwords : Reads (text "::" ++ blanks ++ one beginsType ++ star (one continuesType) ++
        opt (blanks1 ++ laterTypeWords)) before ("::".toList ++ w ++ later)
        (marksText isArray ++ []) [] :=
      reads_words hw hlater (by rw [List.append_nil]; exact endsWords_marks)
    rw [numbersText, List.append_nil]
    exact (hwords.seq_skip (by rw [List.append_nil]; exact refuses_numbers_marks)).seq hmarks
  · exact ((reads_words hw hlater (endsWords_numbers hns)).seq
      (.opt (reads_typeNumbers hns hlength h))).seq hmarks

theorem reads_lexeme (h : Reads castPattern before (':' :: taken) rest []) :
    Reads (lexemePattern .postgresql) before (':' :: taken) rest
      [(Lexeme.cast.number, ':' :: taken)] := by
  have hmark (letters : String) (hl : ':' ∉ letters.toList) (c : Char) (cs : Chars)
      (hcs : ':' :: taken ++ rest = c :: cs) (hc : c ∈ letters.toList) : cs.head? ≠ some '\'' := by
    obtain ⟨rfl, -⟩ := List.cons.inj hcs
    exact absurd hc hl
  exact .right (.capture _ (refuses_marked "Ee" (fun _ _ h => refuses_escaped h)
      (hmark "Ee" (by decide))))
    (.right (.capture _ (refuses_doubled (by simp)))
    (.right (.capture _ (.alt (refuses_doubled (by simp)) (refuses_doubled (by simp))))
    (.right (.capture _ (refuses_hexString (hmark "Xx" (by decide)))) (.capture _ h))))

/-- The part of a cast that is read goes; the text goes on behind it. -/
theorem requote_cast (ht : t ≠ .postgresql) (v : String)
    (h : Reads castPattern (some '\'') (':' :: taken) rest []) :
    ∃ before n, (requote (Dialect.postgresql.textLiteral v ++ String.ofList (':' :: taken ++ rest))
      .postgresql t).toList =
        (t.textLiteral v).toList ++ requoteFrom .postgresql t false ⟨before, rest, n⟩ := by
  have hlast : (Dialect.postgresql.textLiteral v).toList.getLast?.or none = some '\'' := by
    rw [Dialect.toList_textLiteral, List.getLast?_append]
    rfl
  have hliteral : (requote (Dialect.postgresql.textLiteral v ++
      String.ofList (':' :: taken ++ rest)) .postgresql t).toList = (t.textLiteral v).toList ++
        requoteFrom .postgresql t false ⟨some '\'', ':' :: taken ++ rest,
          0 + (Dialect.postgresql.textLiteral v).toList.length⟩ := by
    rw [requote, requoteKeeping_eq, Cursor.atStart, String.toList_ofList, String.toList_append,
      String.toList_ofList, requoteFrom_textLiteral (by simp) (by simp), hlast,
      beq_eq_false_iff_ne.2 ht]
  rw [hliteral, requoteFrom_token (by simp) (reads_lexeme h)]
  exact ⟨_, _, rfl⟩

/-- Nothing of a cast is left exactly if all of it is read. -/
theorem requote_cast_eq_iff (ht : t ≠ .postgresql) (v : String)
    (h : Reads castPattern (some '\'') (':' :: taken) rest []) (hrest : isInert rest = true) :
    requote (Dialect.postgresql.textLiteral v ++ String.ofList (':' :: taken ++ rest)) .postgresql t
      = t.textLiteral v ↔ rest = [] := by
  obtain ⟨before, n, hout⟩ := requote_cast ht v h
  rw [← String.toList_inj, hout]
  cases rest with
  | nil => simp [requoteFrom_nil]
  | cons c rest => simp [requoteFrom_cons hrest]

end SqlFerry.Sql
