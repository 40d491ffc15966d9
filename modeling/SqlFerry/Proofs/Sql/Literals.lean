import SqlFerry.Proofs.Splitter.Closing
import SqlFerry.Proofs.Sql.Binary

/-!
# Literals in statements

Every literal is spelled by pieces, whatever the value is, and so is a statement that puts rows into
a table.
-/

namespace SqlFerry

open Text Splitter

variable {d : Dialect}

theorem Dialect.toList_textLiteral_of_unquoted {v : String} (hquote : '\'' ∉ v.toList)
    (hplain : d = .mysql → Sql.IsPlainText v) :
    (d.textLiteral v).toList = '\'' :: v.toList ++ ['\''] := by
  have hescape : d.escape v.toList = v.toList := by
    by_cases hd : d = .mysql
    · exact (hplain hd).escape d
    · rw [Dialect.escape, if_neg hd]
  have hdouble : Sql.double '\'' v.toList = v.toList.flatMap fun c => [c] := by
    refine List.flatMap_congr fun c hc => if_neg ?_
    rintro rfl
    exact hquote hc
  rw [Dialect.toList_textLiteral, hescape, hdouble, List.flatMap_singleton']

namespace Splitter.Spelled

/-- A string of PostgreSQL with its type. -/
theorem cast {v type : String} (hquote : '\'' ∉ v.toList) (htype : IsFlat .postgresql type.toList) :
    Spelled .postgresql ("'" ++ v ++ ("'::" ++ type)).toList := by
  have hliteral : (Dialect.postgresql.textLiteral v).toList = '\'' :: v.toList ++ ['\''] :=
    Dialect.toList_textLiteral_of_unquoted hquote (by rintro ⟨⟩)
  have hcast : IsFlat .postgresql ("::".toList ++ type.toList) :=
    (show IsFlat .postgresql "::".toList by decide).append htype
  have h := (literal .postgresql v).after hcast
  rw [hliteral] at h
  simpa using h

theorem floatLiteral (d : Dialect) (x : Float) : Spelled d (d.floatLiteral x).toList := by
  unfold Dialect.floatLiteral
  split
  · split
    · next hd =>
      obtain rfl : d = .postgresql := by simpa using hd
      have h := cast (Value.quote_notMem_floatText x)
        (show IsFlat .postgresql "float8".toList by decide)
      simpa [String.append_assoc] using h
    · exact .flat (by cases d <;> decide)
  · next hfinite =>
    simp only [Bool.or_eq_true, not_or, Bool.not_eq_true] at hfinite
    exact .number (Value.isNumberText_floatText hfinite.1 hfinite.2)

theorem decimalLiteral (d : Dialect) (x : Value.Decimal) :
    Spelled d (d.decimalLiteral x).toList := by
  have hnull : Spelled d "NULL".toList := .flat (by cases d <;> decide)
  have hnumeric : IsFlat .postgresql "numeric".toList := by decide
  cases x with
  | finite negative coefficient power => exact .number (Value.Decimal.isNumberText_toText ..)
  | infinite negative =>
    rw [Dialect.decimalLiteral]
    split
    · next hd =>
      obtain rfl : d = .postgresql := by simpa using hd
      have hplus : "'Infinity'" ++ "::numeric" = "'" ++ "Infinity" ++ ("'::" ++ "numeric") := by
        decide
      have hminus : "'-Infinity'" ++ "::numeric" =
          "'" ++ "-Infinity" ++ ("'::" ++ "numeric") := by
        decide
      split
      · rw [hminus]
        exact cast (by decide) hnumeric
      · rw [hplus]
        exact cast (by decide) hnumeric
    · exact hnull
  | undefined negative signaling payload =>
    rw [Dialect.decimalLiteral]
    split
    · next hd =>
      obtain rfl : d = .postgresql := by simpa using hd
      have htext : "'NaN'::numeric" = "'" ++ "NaN" ++ ("'::" ++ "numeric") := by decide
      rw [htext]
      exact cast (by decide) hnumeric
    · exact hnull

theorem bytesLiteral (d : Dialect) (bs : List UInt8) :
    Spelled d (d.literal (.bytes bs)).toList := by
  have hdigit {c : Char} (hc : Sql.isHexDigit c = false) : c ∉ (Value.hexText bs).toList := by
    intro hmem
    rw [Sql.isHexDigit_of_mem_hexText hmem] at hc
    cases hc
  rw [Dialect.literal]
  split
  · next hd =>
    obtain rfl : d = .postgresql := by simpa using hd
    have h := cast (v := "\\x" ++ Value.hexText bs)
      (by simpa using hdigit (c := '\'') (by decide))
      (show IsFlat .postgresql "bytea".toList by decide)
    simpa [String.append_assoc] using h
  · next hd =>
    have hd : d ≠ .postgresql := by simpa using hd
    have hplain : Sql.IsPlainText (Value.hexText bs) := ⟨hdigit (by decide), hdigit (by decide)⟩
    have hliteral := Dialect.toList_textLiteral_of_unquoted (d := d) (v := Value.hexText bs)
      (hdigit (by decide)) fun _ => hplain
    have hmark : Spelling d (['X'].map .plain) ['X'] := .flat (by cases d <;> decide)
    have hhex : Spelling d [.literal (Value.hexText bs)] _ := .one trivial rfl rfl
    -- The letter before the quotes changes how they are read on PostgreSQL only.
    have h := hmark.append hhex fun p hp q hq => by
      cases hp
      cases hq
      exact ⟨by rintro ⟨⟩, fun hpostgresql => absurd hpostgresql hd, by rintro ⟨⟩⟩
    rw [Piece.text, Dialect.literal, hliteral] at h
    rw [String.toList_append, String.toList_append]
    exact ⟨_, h⟩

/-- A length of time on PostgreSQL. -/
theorem intervalLiteral (n : Int) : Spelled .postgresql
    ("'" ++ Value.floatText (Value.intervalSeconds n) ++ " seconds'::interval").toList := by
  have hquote : '\'' ∉ (Value.floatText (Value.intervalSeconds n) ++ " seconds").toList := by
    rw [String.toList_append, List.mem_append, not_or]
    exact ⟨Value.quote_notMem_floatText _, by decide⟩
  have h := cast hquote (show IsFlat .postgresql "interval".toList by decide)
  simpa [String.append_assoc] using h

/-- An array of PostgreSQL. -/
theorem array {items : List String} (hitems : ∀ x ∈ items, Spelled .postgresql x.toList) :
    Spelled .postgresql ("ARRAY[" ++ ", ".intercalate items ++ "]").toList := by
  rw [String.toList_append, String.toList_append]
  exact ((joined hitems (by decide)).before (by decide)).after (by decide)

end Splitter.Spelled

mutual

theorem spelled_literal (d : Dialect) : (v : Value) → Spelled d (d.literal v).toList
  | .null => .flat (by cases d <;> decide)
  | .bool b => .flat (by cases d <;> cases b <;> decide)
  | .int n => by
    rw [Dialect.literal]
    exact .number (Value.isNumberText_toString n)
  | .float x => by
    rw [Dialect.literal]
    exact .floatLiteral d x
  | .decimal x => by
    rw [Dialect.literal]
    exact .decimalLiteral d x
  | .bytes bs => .bytesLiteral d bs
  | .date x => .literal d _
  | .time t => .literal d _
  | .moment x t => .literal d _
  | .interval n => by
    rw [Dialect.literal]
    split
    · next hd =>
      obtain rfl : d = .postgresql := by simpa using hd
      exact .intervalLiteral n
    · exact .literal d _
  | .uuid u => .literal d _
  | .text s => .literal d _
  | .list xs => by
    have hitems := spelled_literals d xs
    rw [Dialect.literal]
    split
    · next hd =>
      obtain rfl : d = .postgresql := by simpa using hd
      split
      · exact .literal .postgresql "\x7b\x7d"
      · exact .array hitems
    · exact .literal d _
  | .record fs => .literal d _

theorem spelled_literals (d : Dialect) :
    (vs : List Value) → ∀ x ∈ d.literals vs, Spelled d x.toList
  | [] => by simp [Dialect.literals]
  | v :: vs => by
    intro x hx
    rw [Dialect.literals] at hx
    rcases List.mem_cons.1 hx with rfl | hx
    · exact spelled_literal d v
    · exact spelled_literals d vs x hx

end

/-! ## Rows -/

theorem formed_insert (d : Dialect) (table : String) (columns : List String)
    {rows : List (List Value)} (hrows : rows ≠ []) :
    Formed d (d.insert table columns rows).toList := by
  have hvalues : Closes d (",\n  ".intercalate
      (rows.map fun row => Dialect.tuple (row.map d.literal))).toList := by
    refine .joined (by simpa using hrows) (fun x hx => ?_) (by cases d <;> decide)
    obtain ⟨row, -, rfl⟩ := List.mem_map.1 hx
    rw [Dialect.tuple, String.toList_append, String.toList_append]
    refine .after (.before (by cases d <;> decide)
      (.joined (fun y hy => ?_) (by cases d <;> decide))) (by cases d <;> decide) (by decide)
    obtain ⟨v, -, rfl⟩ := List.mem_map.1 hy
    exact spelled_literal d v
  have hopen : IsLink d " (".toList := by
    cases d <;> decide
  have hbetween : IsLink d ") VALUES\n  ".toList := by
    cases d <;> decide
  have hhead := (Spelled.name d table).link hopen (.quoteAll d columns)
  have hopening : "INSERT INTO ".toList = spaced ["INSERT", "INTO"] := rfl
  refine (Closes.link hhead hbetween hvalues).formed
    ["INSERT", "INTO"] (by decide) ?_
  unfold Dialect.insert Dialect.insertOf
  simp only [String.toList_append, hopening, List.append_assoc]

/-- No value ends the statement that inserts it or opens anything in it: with its semicolon every
`INSERT` that is written is read as one statement, with its very text. It is written for all rows
but those with a number that is too long. -/
theorem insert_contained (d : Dialect) (table : String) (columns : List String)
    {rows : List (List Value)} (hrows : rows ≠ []) (maxSize : SizeLimit) :
    (∀ text, d.renderInsert table columns rows = .ok text →
      maxSize.isExceededBy text.length = false →
      ∃ st, (parse { dialect := some d, maxSize } (text.toList ++ [';'])).2 = .ok [st] ∧
        st.text = text ∧ st.inRoutine = false) ∧
      ((∃ text, d.renderInsert table columns rows = .ok text) ↔
        ∀ row ∈ rows, ∀ v ∈ row, v.isWritable) := by
  refine ⟨fun text htext hsize => ?_, fun ⟨text, htext⟩ => (Dialect.renderInsert_eq_ok.1 htext).1,
    fun hwritable => ⟨_, Dialect.renderInsert_eq_ok.2 ⟨hwritable, rfl⟩⟩⟩
  obtain ⟨-, rfl⟩ := Dialect.renderInsert_eq_ok.1 htext
  have hlaid : Laid d [(d.insert table columns rows).toList]
      ((d.insert table columns rows).toList ++ [';']) :=
    .statement (formed_insert d table columns hrows)
  obtain ⟨found, hparse, hfound⟩ := parse_repeats hlaid maxSize fun cs hcs => by
    rwa [List.mem_singleton.1 hcs, String.length_toList]
  obtain ⟨st, rest, hst, hrest, rfl⟩ := List.forall₂_cons_left_iff.1 hfound
  obtain rfl := List.forall₂_nil_left_iff.1 hrest
  exact ⟨st, hparse, by rw [hst.text, String.ofList_toList], hst.outside⟩

/-- Values that try to end the string, the statement and the line that they stand in. -/
def hostileRows : List (List Value) :=
  [[.text "\\'); DROP TABLE \"t\"; --\n/* $$ BEGIN", .list [.text "E'\\'; x", .null, .int (-7)],
    .bytes [0x27, 0x3B]]]

theorem hostileRows_contained :
    hostileRows ≠ [] ∧ ∃ text,
      Dialect.postgresql.renderInsert "a\"; b" ["--", "'"] hostileRows = .ok text ∧
      (SizeLimit.ofInt 200).isExceededBy text.length = false ∧
      ∃ st, (parse { dialect := some .postgresql, maxSize := .ofInt 200 }
          (text.toList ++ [';'])).2 = .ok [st] ∧
        st.text = text ∧ st.inRoutine = false := by
  have hrows : hostileRows ≠ [] := List.cons_ne_nil _ _
  obtain ⟨hread, hwritten⟩ :=
    insert_contained .postgresql "a\"; b" ["--", "'"] hrows (.ofInt 200)
  obtain ⟨text, htext⟩ := hwritten.2 (by decide +kernel)
  obtain ⟨-, rfl⟩ := Dialect.renderInsert_eq_ok.1 htext
  have hsize : (SizeLimit.ofInt 200).isExceededBy
      (Dialect.postgresql.insert "a\"; b" ["--", "'"] hostileRows).length = false := by
    decide +kernel
  exact ⟨hrows, _, htext, hsize, hread _ htext hsize⟩

end SqlFerry
