import SqlFerry.Proofs.Pattern.Replace
import SqlFerry.Proofs.Sql.Quoting

/-!
# Tokens in a text that is quoted anew

Where the tokens of a dialect begin and end: a written string or name is one token, and characters
that begin no token stay. From a place on, the text becomes what its tokens become one by one.
-/

namespace SqlFerry.Sql

open Text Pattern

variable {s t : Dialect} {keep : Bool} {before : Option Char} {c q : Char}
  {cs rest token : Chars} {n : Nat}

/-! ## Where tokens begin -/

theorem refuses_doubled (h : rest.head? ≠ some q) : Refuses (doubled q) before rest :=
  .seq_left (.seq_left (.one fun c hc => by simpa using fun hcq : c = q => h (hcq ▸ hc)))

theorem refuses_escaped (h : rest.head? ≠ some q) : Refuses (escaped q) before rest :=
  .seq_left (.seq_left (.one fun c hc => by simpa using fun hcq : c = q => h (hcq ▸ hc)))

/-- A letter that marks a string does so only right before a quote. -/
theorem refuses_marked (letters : String) {p : Pattern} (hp : ∀ before rest,
    rest.head? ≠ some '\'' → Refuses p before rest)
    (h : ∀ c cs, rest = c :: cs → c ∈ letters.toList → cs.head? ≠ some '\'') :
    Refuses (edge ++ oneOf letters ++ p) before rest := by
  refine .assoc (.edge_seq ?_)
  cases rest with
  | nil => exact .seq_left (.one (by simp))
  | cons c cs => exact .seq_one fun hc => hp _ _ (h c cs rfl (by simpa using hc))

theorem refuses_hexString
    (h : ∀ c cs, rest = c :: cs → c ∈ "Xx".toList → cs.head? ≠ some '\'') :
    Refuses hexString before rest := by
  refine .seq_left (.seq_left (refuses_marked "Xx" (fun before rest hq => .one fun c hc => ?_) h))
  have hne : c ≠ '\'' := fun hcq => hq (hcq ▸ hc)
  simpa using hne

theorem refuses_hexNumber (h : ∀ cs, rest = '0' :: cs → cs.head? ≠ some 'x') :
    Refuses (edge ++ text "0x" ++ plus (one isHexDigit) ++ edge) before rest := by
  refine .seq_left (.seq_left (.edge_seq ?_))
  rw [show text "0x" = char '0' ++ char 'x' from rfl]
  cases rest with
  | nil => exact .seq_left (.one (by simp))
  | cons c cs =>
    refine Refuses.seq_one (f := (· == '0')) fun hc => .one fun x hx => ?_
    have hne : x ≠ 'x' := by
      rintro rfl
      rw [beq_iff_eq] at hc
      exact h cs (hc ▸ rfl) hx
    simpa using hne

theorem refuses_charset {p : Pattern} (h : rest.head? ≠ some '_') :
    Refuses (edge ++ char '_' ++ p) before rest :=
  .seq_left (.edge_seq (.one fun c hc => by simpa using fun hcq : c = '_' => h (hcq ▸ hc)))

theorem refuses_castPattern (h : rest.head? ≠ some ':') : Refuses castPattern before rest := by
  refine .seq_left (.seq_left (.seq_left (.seq_left (.seq_left (.seq_left ?_)))))
  rw [show text "::" = char ':' ++ char ':' from rfl]
  exact .seq_left (.one fun c hc => by simpa using fun hcq : c = ':' => h (hcq ▸ hc))

def isInert : Chars → Bool
  | [] => true
  | c :: cs => !(['\'', '"', '\x60', ':', '_', '['].contains c) &&
      !(c == '0' && cs.head? == some 'x') &&
      !(['e', 'E', 'x', 'X'].contains c && cs.head? == some '\'')

theorem refuses_of_isInert (h : isInert rest = true) : Refuses (lexemePattern s) before rest := by
  have hhead (q : Char) (hq : q ∈ ['\'', '"', '\x60', ':', '_', '[']) : rest.head? ≠ some q := by
    cases rest with
    | nil => simp
    | cons c cs =>
      simp only [isInert, Bool.and_eq_true] at h
      rintro ⟨⟩
      simp [hq] at h
  have hmarked (letters : String) (hl : ∀ c ∈ letters.toList, c ∈ ['e', 'E', 'x', 'X']) (c : Char)
      (cs : Chars) (hr : rest = c :: cs) (hc : c ∈ letters.toList) : cs.head? ≠ some '\'' := by
    subst hr
    intro hq
    simp [isInert, hq, hl c hc] at h
  have hnumber (cs : Chars) (hr : rest = '0' :: cs) : cs.head? ≠ some 'x' := by
    subst hr
    intro hq
    simp [isInert, hq] at h
  have hstring : rest.head? ≠ some '\'' := hhead _ (by simp)
  have hdouble : rest.head? ≠ some '"' := hhead _ (by simp)
  have hbacktick : rest.head? ≠ some '\x60' := hhead _ (by simp)
  have hhex : Refuses hexString before rest := refuses_hexString (hmarked "Xx" (by simp))
  have hescape : Refuses (edge ++ oneOf "Ee" ++ escaped '\'') before rest :=
    refuses_marked "Ee" (fun _ _ h => refuses_escaped h) (hmarked "Ee" (by simp))
  have hcast : Refuses castPattern before rest := refuses_castPattern (hhead _ (by simp))
  have hname : Refuses (alt (doubled '"') (doubled '\x60')) before rest :=
    .alt (refuses_doubled hdouble) (refuses_doubled hbacktick)
  cases s with
  | mysql =>
    refine .alt (.capture _ (refuses_escaped hstring)) (.alt (.capture _ (refuses_escaped hdouble))
      (.alt (.capture _ (refuses_doubled hbacktick)) (.alt (.capture _ (.alt ?_ hhex))
      (.capture _ ?_))))
    · exact refuses_hexNumber hnumber
    · exact .seq_left (.seq_left (refuses_charset (hhead _ (by simp))))
  | postgresql =>
    exact .alt (.capture _ hescape) (.alt (.capture _ (refuses_doubled hstring))
      (.alt (.capture _ hname) (.alt (.capture _ hhex) (.capture _ hcast))))
  | sqlite =>
    refine .alt (.capture _ hescape) (.alt (.capture _ (refuses_doubled hstring))
      (.alt (.capture _ hname) (.alt (.capture _ hhex) (.alt (.capture _ hcast)
      (.capture _ (.seq_left (.seq_left ?_)))))))
    exact .one fun c hc => by simpa using fun hcq : c = '[' => hhead '[' (by simp) (hcq ▸ hc)

/-! ## Tokens -/

theorem reads_string (h : rest.head? ≠ some '\'') :
    Reads (lexemePattern s) before ('\'' :: double '\'' (s.escape cs) ++ ['\'']) rest
      [(Lexeme.string.number, '\'' :: double '\'' (s.escape cs) ++ ['\''])] := by
  have hescape (cs : Chars) : Refuses (edge ++ oneOf "Ee" ++ escaped '\'') before ('\'' :: cs) :=
    refuses_marked "Ee" (fun _ _ h => refuses_escaped h) fun c cs hc hmem => by
      cases hc
      exact absurd hmem (by decide)
  cases s with
  | mysql => exact .left (.capture _ (reads_escaped h))
  | postgresql | sqlite =>
    exact .right (.capture _ (hescape _)) (.left (.capture _ (reads_doubled h)))

theorem reads_name (h : rest.head? ≠ some s.nameQuote) :
    Reads (lexemePattern s) before (s.nameQuote :: double s.nameQuote cs ++ [s.nameQuote]) rest
      [(Lexeme.name.number, s.nameQuote :: double s.nameQuote cs ++ [s.nameQuote])] := by
  have hescape (cs : Chars) : Refuses (edge ++ oneOf "Ee" ++ escaped '\'') before ('"' :: cs) :=
    refuses_marked "Ee" (fun _ _ h => refuses_escaped h) fun c cs hc hmem => by
      cases hc
      exact absurd hmem (by decide)
  cases s with
  | mysql =>
    exact .right (.capture _ (refuses_escaped (by simp [Dialect.nameQuote])))
      (.right (.capture _ (refuses_escaped (by simp [Dialect.nameQuote])))
      (.left (.capture _ (reads_doubled h))))
  | postgresql | sqlite =>
    exact .right (.capture _ (hescape _))
      (.right (.capture _ (refuses_doubled (by simp [Dialect.nameQuote])))
      (.left (.capture _ (.left (reads_doubled h)))))

/-! ## From a place on -/

def requoteFrom (s t : Dialect) (keep : Bool) (c : Cursor) : Chars :=
  (lexemePattern s).replaceFrom (requoteMatch s t keep) c

theorem requoteKeeping_eq (sql : Chars) :
    requoteKeeping keep sql s t = requoteFrom s t keep (.atStart sql) :=
  rfl

theorem requoteMatch_eq {m : Match} {l : Lexeme} (ht : m.text = token)
    (hm : ∀ i, m.group? i = [(l.number, token)].lookup i) :
    requoteMatch s t keep m = requoteToken s t keep l token := by
  have hl : (Lexeme.all.find? fun l' => m.has l'.number) = some l := by
    simp only [Match.has, hm, Lexeme.all]
    cases l <;> rfl
  rw [requoteMatch, hl, ht]

theorem requoteFrom_nil : requoteFrom s t keep ⟨before, [], n⟩ = [] :=
  replaceFrom_nil ((refuses_of_isInert rfl).matchAt? n)

theorem requoteFrom_cons (h : isInert (c :: rest) = true) :
    requoteFrom s t keep ⟨before, c :: rest, n⟩ =
      c :: requoteFrom s t keep ⟨some c, rest, n + 1⟩ :=
  replaceFrom_cons ((refuses_of_isInert h).matchAt? n)

theorem requoteFrom_token {l : Lexeme} (hne : token ≠ [])
    (h : Reads (lexemePattern s) before token rest [(l.number, token)]) :
    requoteFrom s t keep ⟨before, token ++ rest, n⟩ = requoteToken s t keep l token ++
      requoteFrom s t keep ⟨token.getLast?.or before, rest, n + token.length⟩ := by
  obtain ⟨m, hm, ht, hg⟩ := h.matchAt? n
  have hlast : token.getLast?.or before = token.getLast? := by
    rw [List.getLast?_eq_some_getLast hne, Option.some_or]
  rw [requoteFrom, replaceFrom_append hm ht hne, requoteMatch_eq ht hg, hlast]
  rfl

/-- A name that another quote does not follow becomes the name in the other dialect. -/
theorem requoteFrom_quote (h : rest.head? ≠ some s.nameQuote) (x : String) :
    requoteFrom s t keep ⟨before, (s.quote x).toList ++ rest, n⟩ = (t.quote x).toList ++
      requoteFrom s t keep
        ⟨(s.quote x).toList.getLast?.or before, rest, n + (s.quote x).toList.length⟩ := by
  have htoken : requoteToken s t keep .name (s.quote x).toList = (t.quote x).toList := by
    rw [Dialect.toList_quote s]
    simp only [requoteToken, List.cons_append, List.headD_cons]
    rw [← List.cons_append, inner_enclosed, undouble, String.ofList_toList]
  have hr : Reads (lexemePattern s) before (s.quote x).toList rest
      [(Lexeme.name.number, (s.quote x).toList)] := by
    rw [Dialect.toList_quote]
    exact reads_name h
  rw [requoteFrom_token (by simp [Dialect.toList_quote]) hr, htoken]

/-- A string that another quote does not follow becomes the string in the other dialect. -/
theorem requoteFrom_textLiteral {x : String} (hq : rest.head? ≠ some '\'')
    (h : s = .mysql → '\x01' ∉ x.toList) :
    requoteFrom s t keep ⟨before, (s.textLiteral x).toList ++ rest, n⟩ =
      (t.textLiteral x).toList ++ requoteFrom s t keep
        ⟨(s.textLiteral x).toList.getLast?.or before, rest,
          n + (s.textLiteral x).toList.length⟩ := by
  have htoken : requoteToken s t keep .string (s.textLiteral x).toList =
      (t.textLiteral x).toList := by
    rw [Dialect.toList_textLiteral s]
    simp only [requoteToken, inner_enclosed, decodeString_escape s h, String.ofList_toList]
  have hr : Reads (lexemePattern s) before (s.textLiteral x).toList rest
      [(Lexeme.string.number, (s.textLiteral x).toList)] := by
    rw [Dialect.toList_textLiteral]
    exact reads_string hq
  rw [requoteFrom_token (by simp [Dialect.toList_textLiteral]) hr, htoken]

end SqlFerry.Sql
