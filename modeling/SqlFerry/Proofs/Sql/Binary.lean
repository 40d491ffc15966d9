import SqlFerry.Proofs.Sql.Casts
import SqlFerry.Proofs.Sql.Insert

/-!
# Binary literals quoted anew

A binary literal of MySQL or SQLite is one token and becomes the binary literal of the other
dialect. PostgreSQL writes it as a string under a cast: quoted anew, the cast goes and the string
stays one.
-/

namespace SqlFerry.Sql

open Text Pattern

variable {s t : Dialect} {keep : Bool} {digits rest : Chars} {bs : List UInt8}

/-! ## Digits -/

theorem byteHex_spec (b : UInt8) : ∃ x y, Value.byteHex b = [x, y] ∧ isHexDigit x = true ∧
    isHexDigit y = true ∧ (nibble x * 16 + nibble y).toUInt8 = b := by
  have h : ∀ n < 256, (Value.byteHex (Nat.toUInt8 n)).length = 2 ∧
      (Value.byteHex n.toUInt8).all isHexDigit = true ∧
        pairs (Value.byteHex n.toUInt8) = [n.toUInt8] := by
    decide +kernel
  have hb := h b.toNat b.toNat_lt
  rw [show b.toNat.toUInt8 = b by simp] at hb
  obtain ⟨hlength, hdigits, hpairs⟩ := hb
  obtain ⟨x, y, hxy⟩ := List.length_eq_two.1 hlength
  rw [hxy] at hdigits hpairs
  simp only [List.all_cons, List.all_nil, Bool.and_true, Bool.and_eq_true] at hdigits
  exact ⟨x, y, hxy, hdigits.1, hdigits.2, List.head_eq_of_cons_eq hpairs⟩

theorem isHexDigit_of_mem_hexText {c : Char} (h : c ∈ (Value.hexText bs).toList) :
    isHexDigit c = true := by
  rw [Value.hexText, String.toList_ofList] at h
  obtain ⟨b, _, hc⟩ := List.mem_flatMap.1 h
  obtain ⟨x, y, hxy, hx, hy, _⟩ := byteHex_spec b
  rw [hxy] at hc
  rcases List.mem_pair.1 hc with rfl | rfl
  · exact hx
  · exact hy

theorem length_flatMap_byteHex (bs : List UInt8) :
    (bs.flatMap Value.byteHex).length = 2 * bs.length := by
  induction bs with
  | nil => rfl
  | cons b bs ih =>
    obtain ⟨x, y, hxy, _⟩ := byteHex_spec b
    rw [List.flatMap_cons, hxy, List.length_append, ih, List.length_cons]
    simp only [List.length_cons, List.length_nil]
    omega

theorem pairs_flatMap_byteHex (bs : List UInt8) : pairs (bs.flatMap Value.byteHex) = bs := by
  induction bs with
  | nil => rfl
  | cons b bs ih =>
    obtain ⟨x, y, hxy, _, _, hb⟩ := byteHex_spec b
    rw [List.flatMap_cons, hxy, List.cons_append, List.cons_append, List.nil_append, pairs, hb, ih]

theorem bytesOfHex_hexText (bs : List UInt8) : bytesOfHex (Value.hexText bs).toList = bs := by
  rw [Value.hexText, String.toList_ofList, bytesOfHex, length_flatMap_byteHex, if_neg (by simp),
    pairs_flatMap_byteHex]

/-! ## Tokens -/

theorem reads_hexString (h : ∀ c ∈ digits, isHexDigit c = true) :
    Reads hexString none ('X' :: '\'' :: digits ++ ['\'']) rest [] := by
  have opening : Reads (edge ++ oneOf "Xx" ++ char '\'') none ['X', '\'']
      (digits ++ (['\''] ++ rest)) [] :=
    .seq (x := ['X']) (.seq (x := []) (.edge rfl) (.one (by decide))) (.one rfl)
  have body : Reads (star (.one isHexDigit)) (some '\'') digits (['\''] ++ rest) [] :=
    .star_one h (by simp [isHexDigit, isAsciiDigit])
  exact (opening.seq body).seq (.one rfl)

theorem reads_hex (h : ∀ c ∈ digits, isHexDigit c = true) :
    Reads (lexemePattern s) none ('X' :: '\'' :: digits ++ ['\'']) rest
      [(Lexeme.hex.number, 'X' :: '\'' :: digits ++ ['\''])] := by
  have hhex : Reads hexString none ('X' :: '\'' :: digits ++ ['\'']) rest [] := reads_hexString h
  cases s with
  | mysql =>
    refine .right (.capture _ (refuses_escaped (by simp))) (.right
      (.capture _ (refuses_escaped (by simp))) (.right (.capture _ (refuses_doubled (by simp)))
      (.left (.capture _ (.right (refuses_hexNumber ?_) hhex)))))
    simp
  | postgresql | sqlite =>
    refine .right (.capture _ (refuses_marked "Ee" (fun _ _ h => refuses_escaped h) ?_)) (.right
      (.capture _ (refuses_doubled (by simp))) (.right (.capture _ (.alt (refuses_doubled (by simp))
      (refuses_doubled (by simp)))) (.left (.capture _ hhex))))
    rintro c cs ⟨⟩ hc
    exact absurd hc (by decide)

def byteaCast : Chars :=
  [':', ':', 'b', 'y', 't', 'e', 'a']

theorem reads_byteaCast : Reads castPattern (some '\'') byteaCast [] [] := by
  have h : Reads castPattern (some '\'')
      ("::".toList ++ ("bytea".toList ++ [] ++ numbersText [] ++ marksText false)) [] [] :=
    reads_cast (by decide) .none (by decide) (by simp) (.inl rfl)
  exact h

theorem requote_bytes (h : s ≠ .postgresql) (bs : List UInt8) :
    requote (s.literal (.bytes bs)) s t = t.literal (.bytes bs) := by
  have hliteral : (s.literal (.bytes bs)).toList =
      'X' :: '\'' :: (Value.hexText bs).toList ++ ['\''] := by
    simp [Dialect.literal, h]
  have hdigits : ∀ c ∈ (Value.hexText bs).toList, isHexDigit c = true :=
    fun c hc => isHexDigit_of_mem_hexText hc
  have htoken : requoteToken s t (t == .postgresql) .hex
      ('X' :: '\'' :: (Value.hexText bs).toList ++ ['\'']) = (t.literal (.bytes bs)).toList := by
    have hdrop : ('X' :: '\'' :: (Value.hexText bs).toList ++ ['\'']).drop 1 =
        '\'' :: (Value.hexText bs).toList ++ ['\''] := rfl
    have hstart : startsWith ['0', 'x'] ('X' :: '\'' :: (Value.hexText bs).toList ++ ['\'']) =
        false := rfl
    simp only [requoteToken, hstart, Bool.false_eq_true, if_false, hdrop, inner_enclosed,
      bytesOfHex_hexText]
  have hr : requoteFrom s t (t == .postgresql)
      ⟨none, 'X' :: '\'' :: (Value.hexText bs).toList ++ ['\''] ++ [], 0⟩ = _ :=
    requoteFrom_token (by simp) (reads_hex hdigits)
  rw [List.append_nil, htoken, requoteFrom_nil, List.append_nil] at hr
  rw [requote, requoteKeeping_eq, Cursor.atStart, hliteral, hr, String.ofList_toList]

theorem double_of_not_mem {q : Char} {cs : Chars} (h : q ∉ cs) : double q cs = cs := by
  induction cs with
  | nil => rfl
  | cons c cs ih =>
    rw [List.mem_cons, not_or] at h
    rw [double, List.flatMap_cons, if_neg (Ne.symm h.1), ← double, ih h.2, List.singleton_append]

theorem toList_literal_bytes_postgresql (bs : List UInt8) :
    (Dialect.postgresql.literal (.bytes bs)).toList =
      (Dialect.postgresql.textLiteral ("\\x" ++ Value.hexText bs)).toList ++ byteaCast := by
  have hquote : '\'' ∉ ("\\x" ++ Value.hexText bs).toList := by
    intro hc
    rw [String.toList_append, List.mem_append] at hc
    rcases hc with hc | hc
    · exact absurd hc (by decide)
    · exact absurd (isHexDigit_of_mem_hexText hc) (by decide)
  rw [Dialect.toList_textLiteral, Dialect.escape, if_neg (by decide), double_of_not_mem hquote]
  simp [Dialect.literal, byteaCast]

/-- The bytes that PostgreSQL wrote become a string with the text of its notation. -/
theorem requote_bytes_postgresql (h : t ≠ .postgresql) (bs : List UInt8) :
    requote (Dialect.postgresql.literal (.bytes bs)) .postgresql t =
      t.textLiteral ("\\x" ++ Value.hexText bs) := by
  have hliteral : Dialect.postgresql.literal (.bytes bs) =
      Dialect.postgresql.textLiteral ("\\x" ++ Value.hexText bs) ++
        String.ofList (byteaCast ++ []) := by
    rw [← String.toList_inj, toList_literal_bytes_postgresql, String.toList_append,
      String.toList_ofList, List.append_nil]
  rw [hliteral]
  exact (requote_cast_eq_iff h _ reads_byteaCast rfl).2 rfl

/-- A string is no binary literal. -/
theorem textLiteral_ne_literal_bytes (h : t ≠ .postgresql) (x : String) (bs : List UInt8) :
    t.textLiteral x ≠ t.literal (.bytes bs) := by
  intro heq
  have hlist := congrArg String.toList heq
  rw [Dialect.toList_textLiteral] at hlist
  simp [Dialect.literal, h] at hlist

/-- Between two dialects a binary literal becomes that of the same bytes unless PostgreSQL wrote
it. -/
theorem requote_bytes_iff (h : s ≠ t) (bs : List UInt8) :
    requote (s.literal (.bytes bs)) s t = t.literal (.bytes bs) ↔ s ≠ .postgresql := by
  refine ⟨?_, fun hs => requote_bytes hs bs⟩
  rintro heq rfl
  rw [requote_bytes_postgresql h.symm] at heq
  exact textLiteral_ne_literal_bytes h.symm _ bs heq

theorem requote_bytes_iff_mysql :
    Dialect.mysql ≠ .sqlite ∧ (requote (Dialect.mysql.literal (.bytes [0, 255])) .mysql .sqlite =
      Dialect.sqlite.literal (.bytes [0, 255]) ↔ Dialect.mysql ≠ .postgresql) :=
  ⟨by decide, requote_bytes_iff (by decide) [0, 255]⟩

/-- Not every binary literal becomes that of the same bytes in another dialect. -/
theorem not_requote_bytes : ¬∀ (s t : Dialect) (bs : List UInt8), s ≠ t →
    requote (s.literal (.bytes bs)) s t = t.literal (.bytes bs) := by
  intro h
  have heq := h .postgresql .mysql [0x41] (by decide)
  rw [requote_bytes_postgresql (by decide)] at heq
  exact textLiteral_ne_literal_bytes (by decide) _ _ heq

end SqlFerry.Sql
