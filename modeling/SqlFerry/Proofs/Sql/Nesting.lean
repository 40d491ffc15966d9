import SqlFerry.Proofs.Sql.Insert
import SqlFerry.Proofs.Sql.Names
import SqlFerry.Sql.Nesting

/-!
# Balanced texts

Texts that leave parentheses and quotes as they found them. A group around a balanced text is closed
where it ends, and a list of balanced texts is cut at the commas between them.
-/

namespace SqlFerry.Sql

open Text

namespace Nesting

variable {n : Nesting} {k : Int} {a b cs rest part : Chars} {c q : Char} {i : Nat}

def deeper (n : Nesting) (k : Int) : Nesting :=
  { n with depth := n.depth + k }

@[simp]
theorem deeper_depth : (n.deeper k).depth = n.depth + k := rfl

@[simp]
theorem deeper_isOpen : (n.deeper k).isOpen = n.isOpen := rfl

theorem next_deeper : (n.deeper k).next c = (n.next c).deeper k := by
  obtain ⟨depth, quote, escaped⟩ := n
  unfold next deeper
  cases quote with
  | some q => dsimp only; split <;> [rfl; (split <;> [rfl; (split <;> rfl)])]
  | none =>
    dsimp only
    split
    · rfl
    split
    · rfl
    split
    · simp [Int.add_right_comm]
    split
    · simp [Int.sub_eq_add_neg, Int.add_right_comm]
    · rfl

def Above (n : Nesting) : Chars → Prop
  | [] => True
  | c :: cs => 0 ≤ (n.next c).depth ∧ Above (n.next c) cs

/-- Whether no comma outside quotes stands at depth zero while `cs` is read. -/
def Undivided (n : Nesting) : Chars → Prop
  | [] => True
  | c :: cs => (c = ',' → n.isOpen = true → n.depth ≠ 0) ∧ Undivided (n.next c) cs

instance decidableAbove (n : Nesting) : (cs : Chars) → Decidable (n.Above cs)
  | [] => .isTrue trivial
  | c :: cs => @instDecidableAnd _ _ _ (decidableAbove (n.next c) cs)

instance decidableUndivided (n : Nesting) : (cs : Chars) → Decidable (n.Undivided cs)
  | [] => .isTrue trivial
  | c :: cs => @instDecidableAnd _ _ _ (decidableUndivided (n.next c) cs)

theorem above_append : n.Above (a ++ b) ↔ n.Above a ∧ (a.foldl next n).Above b := by
  induction a generalizing n with
  | nil => simp [Above]
  | cons c a ih => simp [Above, ih, and_assoc]

theorem undivided_append :
    n.Undivided (a ++ b) ↔ n.Undivided a ∧ (a.foldl next n).Undivided b := by
  induction a generalizing n with
  | nil => simp [Undivided]
  | cons c a ih => simp [Undivided, ih, and_assoc]

theorem foldl_next_deeper : cs.foldl next (n.deeper k) = (cs.foldl next n).deeper k := by
  induction cs generalizing n with
  | nil => rfl
  | cons c cs ih => rw [List.foldl_cons, List.foldl_cons, next_deeper, ih]

theorem Above.deeper (h : n.Above cs) (hk : 0 ≤ k) : (n.deeper k).Above cs := by
  induction cs generalizing n with
  | nil => trivial
  | cons c cs ih =>
    refine ⟨?_, ?_⟩
    · rw [next_deeper, deeper_depth]
      have := h.1
      omega
    · rw [next_deeper]
      exact ih h.2

/-- One parenthesis deeper no comma is at depth zero. -/
theorem Above.undivided (h : n.Above cs) (hn : 0 ≤ n.depth) (hk : 0 < k) :
    (n.deeper k).Undivided cs := by
  induction cs generalizing n with
  | nil => trivial
  | cons c cs ih =>
    refine ⟨fun _ _ => ?_, ?_⟩
    · rw [deeper_depth]
      omega
    · rw [next_deeper]
      exact ih h.2 h.1

theorem closeFrom_append (h : n.Above cs) (hk : 0 < k) :
    closeFrom (n.deeper k) i (cs ++ rest) =
      closeFrom ((cs.foldl next n).deeper k) (i + cs.length) rest := by
  induction cs generalizing n i with
  | nil => rfl
  | cons c cs ih =>
    have hdepth : (((n.next c).deeper k).depth == 0) = false := by
      have := h.1
      rw [beq_eq_false_iff_ne, deeper_depth]
      omega
    rw [List.cons_append, closeFrom, next_deeper]
    simp only [hdepth, Bool.and_false, Bool.false_eq_true, if_false]
    rw [ih h.2, List.length_cons, List.foldl_cons, Nat.add_assoc, Nat.add_comm 1]

theorem splitFrom_append (h : n.Undivided cs) :
    splitFrom (· == ',') n part (cs ++ rest) =
      splitFrom (· == ',') (cs.foldl next n) (cs.reverse ++ part) rest := by
  induction cs generalizing n part with
  | nil => rfl
  | cons c cs ih =>
    have hcut : ¬(n.isOpen && n.depth == 0 && c == ',' && !isMark c) = true := by
      simp only [Bool.and_eq_true, beq_iff_eq]
      rintro ⟨⟨⟨hopen, hdepth⟩, hc⟩, -⟩
      exact h.1 hc hopen hdepth
    rw [List.cons_append, splitFrom]
    simp only [hcut]
    rw [ih h.2, List.foldl_cons, List.reverse_cons, List.append_assoc]
    rfl

end Nesting

open Nesting

variable {a b cs body rest pre post sep : Chars} {c q : Char} {l : List Chars}

/-- A text that begins and ends outside quotes, closes what it opens and nothing else. -/
structure Balanced (cs : Chars) : Prop where
  returns : cs.foldl next {} = {}
  above : ({} : Nesting).Above cs

/-- A balanced text without a comma outside its own parentheses and quotes. -/
structure Single (cs : Chars) : Prop extends Balanced cs where
  undivided : ({} : Nesting).Undivided cs

instance (cs : Chars) : Decidable (Single cs) :=
  decidable_of_iff (cs.foldl next {} = {} ∧ ({} : Nesting).Above cs ∧ ({} : Nesting).Undivided cs)
    ⟨fun h => ⟨⟨h.1, h.2.1⟩, h.2.2⟩, fun h => ⟨h.returns, h.above, h.undivided⟩⟩

theorem Balanced.append (ha : Balanced a) (hb : Balanced b) : Balanced (a ++ b) where
  returns := by rw [List.foldl_append, ha.returns, hb.returns]
  above := above_append.2 ⟨ha.above, by rw [ha.returns]; exact hb.above⟩

theorem Balanced.one (h : isMark c = false) : Balanced [c] := by
  have hnext : ({} : Nesting).next c = {} := by
    simp only [isMark, List.contains_cons, List.contains_nil, Bool.or_false, Bool.or_eq_false_iff,
      beq_eq_false_iff_ne] at h
    obtain ⟨h₁, h₂, h₃, h₄, h₅⟩ := h
    simp [next, h₁, h₂, h₃, h₄, h₅]
  exact ⟨hnext, Int.le_of_eq (congrArg depth hnext.symm), trivial⟩

namespace Single

theorem nil : Single [] := ⟨⟨rfl, trivial⟩, trivial⟩

theorem append (ha : Single a) (hb : Single b) : Single (a ++ b) where
  toBalanced := ha.toBalanced.append hb.toBalanced
  undivided := undivided_append.2 ⟨ha.undivided, by rw [ha.returns]; exact hb.undivided⟩

theorem one (hmark : isMark c = false) (hc : c ≠ ',') : Single [c] :=
  ⟨.one hmark, fun hcomma => absurd hcomma hc, trivial⟩

theorem plain (h : ∀ c ∈ cs, isMark c = false ∧ c ≠ ',') : Single cs := by
  induction cs with
  | nil => exact nil
  | cons c cs ih =>
    obtain ⟨hmark, hc⟩ := h c List.mem_cons_self
    exact (one hmark hc).append (ih fun c hc => h c (List.mem_cons_of_mem _ hc))

/-- A text in quotes. -/
theorem quoted (hq : q = '\'' ∨ q = '"' ∨ q = '\x60') {β : Type} {us : List β} {f : β → Chars}
    (hf : ∀ u ∈ us, InQuotes q (q == '\'') (f u)) : Single (q :: us.flatMap f ++ [q]) := by
  have hcomma : q ≠ ',' := by rcases hq with rfl | rfl | rfl <;> decide
  have hopening : ({} : Nesting).next q = { quote := some q } := by
    rcases hq with rfl | rfl | rfl <;> rfl
  have hbackslash : (q == '\\') = false := by rcases hq with rfl | rfl | rfl <;> rfl
  have hclosing : ({ quote := some q } : Nesting).next q = {} := by
    simp [next, hbackslash]
  have hinside : ¬({ quote := some q } : Nesting).isOpen = true := Bool.false_ne_true
  have unit {u : Chars} (hu : InQuotes q (q == '\'') u) :
      u.foldl next { quote := some q } = { quote := some q } ∧
        ({ quote := some q } : Nesting).Above u ∧ ({ quote := some q } : Nesting).Undivided u := by
    cases hu with
    | one c hc he =>
      have hnext : ({ quote := some q } : Nesting).next c = { quote := some q } := by
        have hesc : (c == '\\' && q == '\'') = false := by
          simpa [and_comm, imp_not_comm] using he
        simp [next, hesc, hc]
      exact ⟨hnext, ⟨Int.le_of_eq (congrArg depth hnext.symm), trivial⟩,
        fun _ ho => absurd ho hinside, trivial⟩
    | doubled =>
      simp only [List.foldl_cons, List.foldl_nil, Above, Undivided, hclosing, hopening, and_true,
        true_and]
      exact ⟨⟨Int.le_refl _, Int.le_refl _⟩, fun h => absurd h hcomma, fun h => absurd h hcomma⟩
    | escaped c he =>
      have hfirst : ({ quote := some q } : Nesting).next '\\' =
          { quote := some q, escaped := true } := by
        simp only [next, beq_self_eq_true, he, Bool.and_self, Bool.false_eq_true, if_false, if_true]
      have hsecond : ({ quote := some q, escaped := true } : Nesting).next c =
          { quote := some q } := rfl
      simp only [List.foldl_cons, List.foldl_nil, Above, Undivided, hfirst, hsecond, and_true,
        true_and]
      exact ⟨⟨Int.le_refl _, Int.le_refl _⟩, fun _ ho => absurd ho hinside,
        fun _ ho => absurd ho Bool.false_ne_true⟩
  have body : (us.flatMap f).foldl next { quote := some q } = { quote := some q } ∧
      ({ quote := some q } : Nesting).Above (us.flatMap f) ∧
        ({ quote := some q } : Nesting).Undivided (us.flatMap f) := by
    induction us with
    | nil => exact ⟨rfl, trivial, trivial⟩
    | cons u us ih =>
      obtain ⟨hreturns, habove, hundivided⟩ := unit (hf u List.mem_cons_self)
      obtain ⟨hr, ha, hu⟩ := ih fun u hu => hf u (List.mem_cons_of_mem _ hu)
      rw [List.flatMap_cons, List.foldl_append, above_append, undivided_append, hreturns]
      exact ⟨hr, ⟨habove, ha⟩, hundivided, hu⟩
  obtain ⟨hr, ha, hu⟩ := body
  rw [List.cons_append]
  refine ⟨⟨?_, ?_⟩, ?_⟩
  · rw [List.foldl_cons, hopening, List.foldl_append, hr]
    exact hclosing
  · refine ⟨hopening ▸ Int.le_refl _, ?_⟩
    rw [hopening, above_append, hr]
    exact ⟨ha, hclosing ▸ Int.le_refl _, trivial⟩
  · refine ⟨fun h => absurd h hcomma, ?_⟩
    rw [hopening, undivided_append, hr]
    exact ⟨hu, fun h => absurd h hcomma, trivial⟩

/-- A group in parentheses. -/
theorem group (h : Balanced body) : Single ('(' :: body ++ [')']) := by
  have hopening : ({} : Nesting).next '(' = ({} : Nesting).deeper 1 := rfl
  have hclosing : (({} : Nesting).deeper 1).next ')' = {} := rfl
  have hbody : body.foldl next (({} : Nesting).deeper 1) = ({} : Nesting).deeper 1 := by
    rw [foldl_next_deeper, h.returns]
  rw [List.cons_append]
  refine ⟨⟨?_, ?_⟩, ?_⟩
  · rw [List.foldl_cons, hopening, List.foldl_append, hbody]
    exact hclosing
  · refine ⟨by decide, ?_⟩
    rw [hopening, above_append, hbody]
    exact ⟨h.above.deeper (by decide), by decide, trivial⟩
  · refine ⟨fun hc => absurd hc (by decide), ?_⟩
    rw [hopening, undivided_append, hbody]
    exact ⟨h.above.undivided (Int.le_refl _) (by decide), fun hc => absurd hc (by decide), trivial⟩

theorem quote (d : Dialect) (n : String) : Single (d.quote n).toList := by
  have hname : d.nameQuote = '"' ∨ d.nameQuote = '\x60' := nameQuote_cases d
  rw [Dialect.toList_quote]
  refine quoted (.inr hname) fun c _ => ?_
  have hescapes : (d.nameQuote == '\'') = false := by
    rcases hname with h | h <;> rw [h] <;> rfl
  rw [hescapes]
  exact inQuotes_double _ c

end Single

/-! ## Groups -/

theorem closing?_group (h : Balanced body) (rest : Chars) :
    closing? ('(' :: body ++ ')' :: rest) = some (body.length + 1) := by
  have hstart : closing? ('(' :: body ++ ')' :: rest) =
      closeFrom (({} : Nesting).deeper 1) 1 (body ++ ')' :: rest) := rfl
  rw [hstart, closeFrom_append h.above (by decide), h.returns, Nat.add_comm]
  rfl

theorem group_append (h : Balanced body) (rest : Chars) :
    group ('(' :: body ++ ')' :: rest) = ('(' :: body ++ [')'], rest) := by
  have htake : '(' :: body ++ ')' :: rest = ('(' :: body ++ [')']) ++ rest := by simp
  have hlength : ('(' :: body ++ [')']).length = body.length + 1 + 1 := by simp
  rw [Sql.group, closing?_group h]
  simp only
  rw [htake, List.take_left' hlength, List.drop_left' hlength]

/-! ## Lists -/

structure IsItem (cs : Chars) : Prop where
  single : Single cs
  ne_nil : cs ≠ []
  first : ∀ c ∈ cs.head?, isBlank c = false
  last : ∀ c ∈ cs.getLast?, isBlank c = false

instance (cs : Chars) : Decidable (IsItem cs) :=
  decidable_of_iff (Single cs ∧ cs ≠ [] ∧ cs.head?.all (!isBlank ·) = true ∧
      cs.getLast?.all (!isBlank ·) = true) <| by
    simp only [Option.all_eq_true, Bool.not_eq_true']
    exact ⟨fun h => ⟨h.1, h.2.1, h.2.2.1, h.2.2.2⟩, fun h => ⟨h.single, h.ne_nil, h.first, h.last⟩⟩

theorem IsItem.trim (h : IsItem cs) : trim cs = cs :=
  trim_eq_self h.first h.last

theorem IsItem.trim_of_blanks (h : IsItem cs) (hpre : ∀ c ∈ pre, isBlank c = true)
    (hpost : ∀ c ∈ post, isBlank c = true) : Text.trim (pre ++ cs ++ post) = cs :=
  Text.trim_of_blanks hpre hpost h.first h.last

/-- Two items with something single between them. -/
theorem IsItem.around {mid : Chars} (ha : IsItem a) (hmid : Single mid) (hb : IsItem b) :
    IsItem (a ++ mid ++ b) where
  single := (ha.single.append hmid).append hb.single
  ne_nil := by simp [ha.ne_nil]
  first := by
    obtain ⟨c, a, rfl⟩ := List.exists_cons_of_ne_nil ha.ne_nil
    exact ha.first
  last := by
    obtain ⟨b, c, rfl⟩ := (List.eq_nil_or_concat b).resolve_left hb.ne_nil
    simpa using hb.last

theorem isItem_group (h : Balanced body) : IsItem ('(' :: body ++ [')']) where
  single := .group h
  ne_nil := by simp
  first := by
    rintro c ⟨⟩
    decide
  last := by
    rw [List.getLast?_append]
    rintro c ⟨⟩
    decide

theorem single_of_blanks (h : ∀ c ∈ cs, isBlank c = true) : Single cs := by
  refine .plain fun c hc => ⟨?_, ?_⟩
  · rw [Bool.eq_false_iff]
    intro hmark
    simp only [isMark, List.contains_iff_mem, List.mem_cons, List.not_mem_nil, or_false] at hmark
    have hblank := h c hc
    rcases hmark with rfl | rfl | rfl | rfl | rfl <;> exact absurd hblank (by decide)
  · rintro rfl
    exact absurd (h _ hc) (by decide)

/-- A single text at the end is one piece, with what stands before it. -/
theorem splitFrom_single (h : Single cs) (part : Chars) :
    splitFrom (· == ',') {} part cs = [part.reverse ++ cs] := by
  rw [← List.append_nil cs, splitFrom_append h.undivided, h.returns, splitFrom, List.append_nil,
    List.reverse_append, List.reverse_reverse]

/-- A single text before a comma is one piece, and the next one begins behind the comma. -/
theorem splitFrom_single_comma (h : Single cs) (part rest : Chars) :
    splitFrom (· == ',') {} part (cs ++ ',' :: rest) =
      (part.reverse ++ cs) :: splitFrom (· == ',') {} [] rest := by
  rw [splitFrom_append h.undivided, h.returns, splitFrom]
  simp [isOpen, isMark]

/-- Single texts with commas between them are the pieces. -/
theorem splitFrom_intercalate (hl : ∀ x ∈ l, Single x) (hne : l ≠ []) :
    splitFrom (· == ',') {} [] ([','].intercalate l) = l := by
  induction l with
  | nil => exact absurd rfl hne
  | cons x l ih =>
    obtain ⟨hx, hl⟩ := List.forall_mem_cons.1 hl
    cases l with
    | nil => rw [List.intercalate_singleton, splitFrom_single hx, List.reverse_nil, List.nil_append]
    | cons y l =>
      rw [List.intercalate_cons_cons, List.append_assoc, List.singleton_append,
        splitFrom_single_comma hx, ih hl (by simp)]
      rfl

theorem split_intercalate {gap part : Chars} (hl : ∀ x ∈ l, IsItem x) (hne : l ≠ [])
    (hgap : ∀ c ∈ gap, isBlank c = true) (hpart : ∀ c ∈ part, isBlank c = true)
    (hpost : ∀ c ∈ post, isBlank c = true) :
    (splitFrom (· == ',') {} part ((',' :: gap).intercalate l ++ post)).map Text.trim = l := by
  induction l generalizing part with
  | nil => exact absurd rfl hne
  | cons x l ih =>
    have hx := hl x List.mem_cons_self
    have hreverse : ∀ c ∈ part.reverse, isBlank c = true := by simpa using hpart
    cases l with
    | nil =>
      rw [List.intercalate_singleton, splitFrom_single (hx.single.append (single_of_blanks hpost)),
        List.map_singleton, ← List.append_assoc, hx.trim_of_blanks hreverse hpost]
    | cons y l =>
      have hfirst : Text.trim (part.reverse ++ x) = x := by
        have h := hx.trim_of_blanks hreverse (List.forall_mem_nil _)
        rwa [List.append_nil] at h
      have hnext : (splitFrom (· == ',') {} (gap.reverse ++ [])
          ((',' :: gap).intercalate (y :: l) ++ post)).map Text.trim = y :: l :=
        ih (fun x hx => hl x (List.mem_cons_of_mem _ hx)) (by simp) (by simpa using hgap)
      rw [List.intercalate_cons_cons, List.append_assoc, List.append_assoc, List.cons_append,
        splitFrom_single_comma hx.single, splitFrom_append (single_of_blanks hgap).undivided,
        (single_of_blanks hgap).returns, List.map_cons, hfirst, hnext]

/-- A list of items with blanks around them is cut into its items. -/
theorem items_intercalate {gap : Chars} (hl : ∀ x ∈ l, IsItem x)
    (hpre : ∀ c ∈ pre, isBlank c = true) (hgap : ∀ c ∈ gap, isBlank c = true)
    (hpost : ∀ c ∈ post, isBlank c = true) :
    items (pre ++ (',' :: gap).intercalate l ++ post) = l := by
  rw [items, splitTopLevel, List.append_assoc,
    splitFrom_append (single_of_blanks hpre).undivided, (single_of_blanks hpre).returns]
  by_cases hne : l = []
  · subst hne
    have hend : splitFrom (· == ',') {} (pre.reverse ++ []) (post ++ []) =
        splitFrom (· == ',') (post.foldl next {}) (post.reverse ++ (pre.reverse ++ [])) [] :=
      splitFrom_append (single_of_blanks hpost).undivided
    have hblank : Text.trim (post.reverse ++ (pre.reverse ++ [])).reverse = [] := by
      refine trim_eq_nil fun c hc => ?_
      simp only [List.append_nil, List.reverse_append, List.reverse_reverse, List.mem_append] at hc
      exact hc.elim (hpre c) (hpost c)
    rw [List.intercalate_nil, List.nil_append, ← List.append_nil post, hend, splitFrom,
      List.map_singleton, hblank]
    rfl
  · rw [split_intercalate hl hne hgap (by simpa using hpre) hpost, List.filter_eq_self]
    intro x hx
    simpa using (hl x hx).ne_nil

theorem isItem_quote (d : Dialect) (n : String) : IsItem (d.quote n).toList where
  single := .quote d n
  ne_nil := by
    rw [Dialect.toList_quote]
    simp
  first := by
    rw [head?_quote]
    exact fun c hc => Option.mem_some_iff.1 hc ▸ not_isBlank_nameQuote d
  last := by
    rw [getLast?_quote]
    exact fun c hc => Option.mem_some_iff.1 hc ▸ not_isBlank_nameQuote d

theorem balanced_intercalate {gap : Chars} (hl : ∀ x ∈ l, Balanced x)
    (hgap : ∀ c ∈ gap, isBlank c = true) : Balanced ((',' :: gap).intercalate l) := by
  have hsep : Balanced (',' :: gap) :=
    (Balanced.one (by decide)).append (single_of_blanks hgap).toBalanced
  induction l with
  | nil => exact ⟨rfl, trivial⟩
  | cons x l ih =>
    have hx := hl x List.mem_cons_self
    cases l with
    | nil => rwa [List.intercalate_singleton]
    | cons y l =>
      rw [List.intercalate_cons_cons]
      exact (hx.append hsep).append (ih fun x hx => hl x (List.mem_cons_of_mem _ hx))

theorem balanced_quoteAll (d : Dialect) (ns : List String) : Balanced (d.quoteAll ns).toList := by
  rw [Dialect.toList_quoteAll]
  refine balanced_intercalate (fun x hx => ?_) (by simp; decide)
  obtain ⟨n, -, rfl⟩ := List.mem_map.1 hx
  exact (isItem_quote d n).single.toBalanced

/-- A list of written names in parentheses is read as these names. -/
theorem names_quoteAll (d : Dialect) (ns : List String) :
    names ('(' :: (d.quoteAll ns).toList ++ [')']) = ns := by
  have hlast : ('(' :: (d.quoteAll ns).toList ++ [')']).getLast? = some ')' := by
    rw [List.getLast?_append, List.getLast?_singleton, Option.some_or]
  have htrim : trim ('(' :: (d.quoteAll ns).toList ++ [')']) =
      '(' :: (d.quoteAll ns).toList ++ [')'] := by
    refine trim_eq_self (by simp; decide) ?_
    rw [hlast]
    simp
    decide
  have hitems : items (d.quoteAll ns).toList = ns.map fun n => (d.quote n).toList := by
    have h : items ([] ++ [',', ' '].intercalate (ns.map fun n => (d.quote n).toList) ++ []) =
        ns.map fun n => (d.quote n).toList :=
      items_intercalate (by simpa using fun n _ => isItem_quote d n) (List.forall_mem_nil _)
        (by simp; decide) (List.forall_mem_nil _)
    rwa [List.nil_append, List.append_nil, ← Dialect.toList_quoteAll] at h
  rw [names, htrim]
  simp only [hlast]
  rw [List.cons_append, List.head?_cons, ← List.cons_append, beq_self_eq_true, beq_self_eq_true,
    Bool.and_self, if_pos rfl, inner_enclosed, hitems, List.map_map]
  simp [Function.comp_def, unquote_quote]

/-! ## Lists of literals -/

theorem isItem_literal (d : Dialect) {v : String} (hv : d = .mysql ∨ '\\' ∉ v.toList) :
    IsItem (d.textLiteral v).toList where
  single := by
    obtain ⟨f, htext, hf⟩ := exists_units d hv
    rw [htext]
    exact .quoted (.inl rfl) hf
  ne_nil := by
    rw [Dialect.toList_textLiteral]
    simp
  first := by
    rw [Dialect.toList_textLiteral]
    rintro c ⟨⟩
    decide
  last := by
    rw [Dialect.toList_textLiteral, List.getLast?_append]
    rintro c ⟨⟩
    decide

def reread (d : Dialect) (v : String) : String :=
  String.ofList (replace ['\\', '\''] ['\''] (d.escape v.toList))

theorem stringValue_textLiteral (d : Dialect) (v : String) :
    stringValue (d.textLiteral v).toList = reread d v := by
  have hlast : ('\'' :: double '\'' (d.escape v.toList) ++ ['\'']).getLast? = some '\'' := by
    rw [List.getLast?_append, List.getLast?_singleton, Option.some_or]
  have hlength : 2 ≤ ('\'' :: double '\'' (d.escape v.toList) ++ ['\'']).length := by simp
  rw [Dialect.toList_textLiteral, stringValue, hlast, List.cons_append, List.head?_cons,
    ← List.cons_append]
  simp only [hlength, decide_true, beq_self_eq_true, Bool.true_or, Bool.and_self, if_true]
  rw [inner_enclosed, undouble, reread]

theorem IsPlainText.reread_eq {v : String} (hv : IsPlainText v) (d : Dialect) :
    reread d v = v := by
  rw [reread, hv.escape, replace_of_notMem hv.backslash, String.ofList_toList]

theorem map_reread (d : Dialect) {vs : List String} (hvs : ∀ v ∈ vs, IsPlainText v) :
    vs.map (reread d) = vs := by
  conv_rhs => rw [← List.map_id vs]
  exact List.map_congr_left fun v hv => (hvs v hv).reread_eq d

/-- A list of literals is read as the texts of its literals. -/
theorem stringValues_literals (d : Dialect) {vs : List String}
    (h : ∀ v ∈ vs, d = .mysql ∨ '\\' ∉ v.toList) :
    stringValues ([',', ' '].intercalate (vs.map fun v => (d.textLiteral v).toList)) =
      vs.map (reread d) := by
  have hitems : items ([] ++ [',', ' '].intercalate (vs.map fun v => (d.textLiteral v).toList)
      ++ []) = vs.map fun v => (d.textLiteral v).toList := by
    refine items_intercalate ?_ (List.forall_mem_nil _) (List.forall_mem_singleton.2 (by decide))
      (List.forall_mem_nil _)
    exact List.forall_mem_map.2 fun v hv => isItem_literal d (h v hv)
  rw [List.nil_append, List.append_nil] at hitems
  rw [stringValues, hitems, List.map_map]
  exact List.map_congr_left fun v _ => stringValue_textLiteral d v

theorem stringValues_literal (d : Dialect) {v : String} (h : d = .mysql ∨ '\\' ∉ v.toList) :
    stringValues (d.textLiteral v).toList = [reread d v] := by
  have hlist : stringValues ([',', ' '].intercalate ([v].map fun v => (d.textLiteral v).toList)) =
      [v].map (reread d) := stringValues_literals d (by simpa using h)
  rwa [List.map_singleton, List.intercalate_singleton] at hlist

end SqlFerry.Sql
