import SqlFerry.Proofs.Sql.Nesting
import SqlFerry.Proofs.Sql.Spacing

/-!
# Names joined by dots, items joined by commas

Written names that are joined by dots are read as the last of them, whatever characters they are
made of. Items that are joined by commas are what the list is cut into, and the parenthesis after
them is the one that closes the list. Blanks around the dots and the items make no difference.
-/

namespace SqlFerry.Sql

open Text

structure Margin where
  before : Chars := []
  after : Chars := []
  isBlank : (before ++ after).all isBlank = true := by decide

namespace Margin

def around (m : Margin) (cs : Chars) : Chars :=
  m.before ++ cs ++ m.after

theorem isBlank_before (m : Margin) : ∀ c ∈ m.before, Text.isBlank c = true :=
  fun c hc => List.all_eq_true.1 m.isBlank c (List.mem_append_left _ hc)

theorem isBlank_after (m : Margin) : ∀ c ∈ m.after, Text.isBlank c = true :=
  fun c hc => List.all_eq_true.1 m.isBlank c (List.mem_append_right _ hc)

end Margin

/-! ## Names joined by dots -/

def dotted (d : Dialect) (link : Margin × String) : Chars :=
  link.1.around ['.'] ++ (d.quote link.2).toList

/-- A name as a dialect writes it, with others behind it, each after a dot. -/
def qualified (d : Dialect) (first : String) (others : List (Margin × String)) : Chars :=
  (d.quote first).toList ++ others.flatMap (dotted d)

/-- A dot outside of quotes begins a new part, and the name behind it ends outside of quotes. -/
theorem foldl_add_dotted (d : Dialect) (link : Margin × String) {p : Parts}
    (hp : p.until? = none) : ∃ done, (dotted d link).foldl Parts.add p =
      { part := (link.1.after ++ (d.quote link.2).toList).reverse, done } := by
  obtain ⟨quote, part, done⟩ := p
  obtain rfl : quote = none := hp
  have hopen {part : Chars} {done : List Chars} :
      ∀ q ∈ (⟨none, part, done⟩ : Parts).until?, isBlank q = false := nofun
  have hdot (part : Chars) (done : List Chars) :
      Parts.add ⟨none, part, done⟩ '.' = ⟨none, [], part.reverse :: done⟩ := rfl
  rw [dotted, Margin.around, List.foldl_append, List.foldl_append, List.foldl_append,
    Parts.foldl_add_blanks hopen link.1.isBlank_before, List.foldl_cons, List.foldl_nil, hdot,
    Parts.foldl_add_blanks hopen link.1.isBlank_after, Dialect.toList_quote,
    foldl_add_quoted (nameQuote_cases d) rfl]
  exact ⟨(link.1.before.reverse ++ part).reverse :: done, by simp⟩

theorem until?_foldl_add_dotted (d : Dialect) (others : List (Margin × String)) {p : Parts}
    (hp : p.until? = none) : ((others.flatMap (dotted d)).foldl Parts.add p).until? = none := by
  induction others generalizing p with
  | nil => exact hp
  | cons link others ih =>
    obtain ⟨done, hlink⟩ := foldl_add_dotted d link hp
    rw [List.flatMap_cons, List.foldl_append, hlink]
    exact ih rfl

theorem until?_foldl_add_quote (d : Dialect) (n : String) :
    ((d.quote n).toList.foldl Parts.add {}).until? = none := by
  rw [Dialect.toList_quote, foldl_add_quoted (nameQuote_cases d) rfl]

/-- The last part of a qualified name is its last name, with the blanks that stand before it. -/
theorem trim_lastPart_qualified (d : Dialect) (first : String) (others : List (Margin × String)) :
    trim (lastPart (qualified d first others)) =
      (d.quote ((first :: others.map Prod.snd).getLast (List.cons_ne_nil _ _))).toList := by
  rcases List.eq_nil_or_concat' others with rfl | ⟨init, link, rfl⟩
  · rw [qualified, List.flatMap_nil, List.append_nil, lastPart_quote, trim_quote]
    rfl
  · have hopen : ((qualified d first init).foldl Parts.add {}).until? = none := by
      rw [qualified, List.foldl_append]
      exact until?_foldl_add_dotted d init (until?_foldl_add_quote d first)
    obtain ⟨done, hlink⟩ := foldl_add_dotted d link hopen
    have hsplit : qualified d first (init ++ [link]) = qualified d first init ++ dotted d link := by
      simp [qualified]
    have hlast : (first :: (init ++ [link]).map Prod.snd).getLast (List.cons_ne_nil _ _) =
        link.2 := by
      simp
    have hitem := isItem_quote d link.2
    have htrim := trim_of_blanks link.1.isBlank_after (List.forall_mem_nil _) hitem.first hitem.last
    rw [List.append_nil] at htrim
    rw [lastPart, hsplit, List.foldl_append, hlink, hlast, List.reverse_reverse, htrim]

theorem trim_qualified (d : Dialect) (first : String) (others : List (Margin × String)) :
    trim (qualified d first others) = qualified d first others := by
  refine trim_eq_self ?_ ?_
  · exact not_isBlank_head?_quote d first _
  · rcases List.eq_nil_or_concat' others with rfl | ⟨init, link, rfl⟩
    · rw [qualified, List.flatMap_nil, List.append_nil]
      exact (isItem_quote d first).last
    · have hsplit : qualified d first (init ++ [link]) =
          qualified d first init ++ link.1.around ['.'] ++ (d.quote link.2).toList := by
        simp [qualified, dotted]
      rw [hsplit, List.getLast?_append, getLast?_quote, Option.some_or, ← getLast?_quote d link.2]
      exact (isItem_quote d link.2).last

/-- However many names are joined by dots, and whatever quotes, dots, brackets and blanks are in
them, reading gives the last name. -/
theorem unquote_qualified (d : Dialect) (first : String) (others : List (Margin × String)) :
    unquote (qualified d first others) =
      (first :: others.map Prod.snd).getLast (List.cons_ne_nil _ _) := by
  refine unquote_of_lastPart d ?_
  rw [trim_qualified, trim_lastPart_qualified]

example : unquote (qualified .postgresql "a.b" [({ before := [' '] }, "[c\".")]) = "[c\"." := by
  decide +kernel

/-! ## Items joined by commas -/

def listed (parts : List (Margin × Chars)) : Chars :=
  [','].intercalate (parts.map fun p => p.1.around p.2)

theorem single_around (m : Margin) {cs : Chars} (h : Single cs) : Single (m.around cs) :=
  ((single_of_blanks m.isBlank_before).append h).append (single_of_blanks m.isBlank_after)

theorem balanced_listed {parts : List (Margin × Chars)} (h : ∀ p ∈ parts, Balanced p.2) :
    Balanced (listed parts) := by
  refine balanced_intercalate (fun x hx => ?_) (List.forall_mem_nil _)
  obtain ⟨p, hp, rfl⟩ := List.mem_map.1 hx
  exact ((single_of_blanks p.1.isBlank_before).toBalanced.append (h p hp)).append
    (single_of_blanks p.1.isBlank_after).toBalanced

theorem items_listed {parts : List (Margin × Chars)} (h : ∀ p ∈ parts, IsItem p.2) :
    items (listed parts) = parts.map Prod.snd := by
  cases parts with
  | nil => rfl
  | cons p parts =>
    have hsingle : ∀ x ∈ (p :: parts).map (fun p => p.1.around p.2), Single x := by
      intro x hx
      obtain ⟨q, hq, rfl⟩ := List.mem_map.1 hx
      exact single_around q.1 (h q hq).single
    have htrim : ∀ q ∈ p :: parts, (trim ∘ fun p => p.1.around p.2) q = q.2 := fun q hq =>
      (h q hq).trim_of_blanks q.1.isBlank_before q.1.isBlank_after
    rw [items, splitTopLevel, listed, splitFrom_intercalate hsingle (by simp), List.map_map,
      List.map_congr_left htrim, List.filter_eq_self]
    intro x hx
    obtain ⟨q, hq, rfl⟩ := List.mem_map.1 hx
    simpa using (h q hq).ne_nil

/-- Cutting a list gives back the items that were joined, and the parenthesis that stands behind
them closes the one that stands before them, whatever follows. -/
theorem listed_cut_and_closed (parts : List (Margin × Chars)) (tail : Chars)
    (h : ∀ p ∈ parts, IsItem p.2) :
    items (listed parts) = parts.map Prod.snd ∧
      closingAt? ('(' :: listed parts ++ ')' :: tail) 0 =
        some (some (((listed parts).length : Int) + 1)) := by
  refine ⟨items_listed h, ?_⟩
  have hclosing := closing?_group (balanced_listed fun p hp => (h p hp).single.toBalanced) tail
  unfold closingAt?
  rw [if_pos (Int.le_refl 0), Int.toNat_zero, List.drop_zero]
  dsimp only
  rw [hclosing]
  simp

theorem hidden_commas_cut_and_closed :
    let parts : List (Margin × Chars) :=
      [({}, "f(a, (b))".toList), ({ before := [' '], after := ['\n'] }, "'it\\'s (,'".toList),
        ({ after := [' '] }, "\"]\"\"),\" int".toList)]
    (∀ p ∈ parts, IsItem p.2) ∧
      listed parts = "f(a, (b)), 'it\\'s (,'\n,\"]\"\"),\" int ".toList ∧
      items (listed parts) = parts.map Prod.snd ∧
      closingAt? ('(' :: listed parts ++ ')' :: "),(".toList) 0 =
        some (some (((listed parts).length : Int) + 1)) := by
  intro parts
  have h : ∀ p ∈ parts, IsItem p.2 := by decide +kernel
  exact ⟨h, by decide +kernel, listed_cut_and_closed parts _ h⟩

end SqlFerry.Sql
