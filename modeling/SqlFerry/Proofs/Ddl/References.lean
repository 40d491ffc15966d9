import Mathlib.Data.List.Infix
import SqlFerry.Ddl.Table
import SqlFerry.Proofs.Ddl.IndexColumns

/-!
# References

What follows the word `REFERENCES` of a foreign key: the table, its columns and the actions. The
actions are searched for, so that no name before them may hold what looks like one: a name without
blanks cannot.
-/

namespace SqlFerry.Ddl

open Text Pattern Sql

variable {d : Dialect} {cs x y pre rest : Chars} {b c : Char} {before : Option Char}
  {event a table : String} {columns refs : List String} {delete update : Option String}

def actions : List String :=
  ["CASCADE", "RESTRICT", "SET NULL", "SET DEFAULT", "NO ACTION"]

/-! ## Searching for an action -/

def eventPattern (event : String) : Pattern :=
  phrase ["ON", event] ++ blanks1 ++ capture 1 action

theorem actionOn?_eq (event : String) (cs : Chars) : actionOn? event cs =
    ((eventPattern event).search? cs).map fun m => oneLine (upper (ofChars (m.group 1))) := rfl

def opensEvent (event : String) (cs : Chars) : Bool :=
  opensWith "ON".toList cs && (cs.drop 2).head?.any isBlank &&
    opensWith event.toList (trimLeft (cs.drop 2))

theorem refuses_event (hevent : event.toList.head?.any isAsciiLetter = true)
    (h : opensEvent event cs = false) : Refuses (eventPattern event) before cs := by
  have hletter (before : Option Char) (c : Char) (y : Chars) (hc : isBlank c = true) :
      Refuses (word event) before (c :: y) := refuses_word_blank hevent hc
  refine .seq_left (.seq_left ?_)
  by_cases hon : opensWith "ON".toList cs = true
  · obtain ⟨o, k, rest, rfl⟩ : ∃ o k rest, cs = [o, k] ++ rest := by
      cases cs with
      | nil => cases hon
      | cons o cs =>
        cases cs with
        | nil => simp [opensWith] at hon
        | cons k rest => exact ⟨o, k, rest, rfl⟩
    refine .assoc (.after (only_word rfl) ?_)
    rw [opensEvent, hon, Bool.true_and, Bool.and_eq_false_iff] at h
    by_cases hblank : rest.head?.any isBlank = true
    · refine refuses_blanks1_seq hletter fun _ => refuses_word ?_
      exact (h.resolve_left (by simpa using hblank))
    · refine .seq_left (refuses_blanks1 fun c hc => ?_)
      rw [Option.any_eq_true] at hblank
      rw [Bool.eq_false_iff]
      exact fun hc' => hblank ⟨c, hc, hc'⟩
  · exact .seq_left (.seq_left (refuses_word (Bool.not_eq_true _ ▸ hon)))

/-- Whether the event opens nowhere in a text that another follows. -/
def Unopened (event : String) (cs rest : Chars) : Prop :=
  ∀ x y, cs = x ++ y → y ≠ [] → opensEvent event (y ++ rest) = false

theorem Unopened.append (hx : Unopened event x (y ++ rest)) (hy : Unopened event y rest) :
    Unopened event (x ++ y) rest := by
  intro u v huv hv
  rcases List.append_eq_append_iff.1 huv with ⟨w, rfl, rfl⟩ | ⟨w, rfl, rfl⟩
  · exact hy w v rfl hv
  · cases w with
    | nil => exact hy [] y rfl hv
    | cons c w =>
      rw [List.append_assoc]
      exact hx u (c :: w) rfl (List.cons_ne_nil _ _)

theorem unopened_of_tails
    (h : cs.tails.all (fun y => y.isEmpty || !opensEvent event (y ++ rest)) = true) :
    Unopened event cs rest := by
  rintro x y rfl hy
  have hmem := List.all_eq_true.1 h y ((List.mem_tails y (x ++ y)).2 (List.suffix_append x y))
  simpa [hy] using hmem

theorem actionOn?_eq_none (hevent : event.toList.head?.any isAsciiLetter = true)
    (h : Unopened event cs []) : actionOn? event cs = none := by
  rw [actionOn?_eq, search?_eq_none, Option.map_none]
  intro x y hxy
  refine refuses_event hevent ?_
  by_cases hy : y = []
  · rw [hy]
    rfl
  · have hopens := h x y hxy hy
    rwa [List.append_nil] at hopens

/-! ## Reading an action -/

theorem reads_phrase {u v : String} (hu : opensWith u.toList u.toList = true)
    (hv : opensWith v.toList v.toList = true) (hfirst : v.toList.head?.any (!isBlank ·) = true) :
    Reads (phrase [u, v]) before (u.toList ++ [' '] ++ v.toList) rest [] := by
  have hnext : ∀ c ∈ (v.toList ++ rest).head?, isBlank c = false := by
    cases hchars : v.toList with
    | nil =>
      rw [hchars] at hfirst
      cases hfirst
    | cons c cs =>
      rw [hchars] at hfirst
      rintro c ⟨⟩
      simpa using hfirst
  have hblank : Reads blanks1 (u.toList.getLast?.or before) [' '] (v.toList ++ rest) [] :=
    reads_space1 hnext
  have hword : Reads (word u) before u.toList ([' '] ++ (v.toList ++ rest)) [] :=
    reads_word hu String.length_toList
  exact (hword.seq hblank).seq (reads_word hv String.length_toList)

theorem reads_action (ha : a ∈ actions) : Reads action before a.toList rest [] := by
  simp only [actions, List.mem_cons, List.not_mem_nil, or_false] at ha
  rcases ha with rfl | rfl | rfl | rfl | rfl
  · exact .left (reads_word rfl rfl)
  · exact .right (refuses_word rfl) (.left (reads_word rfl rfl))
  · exact .right (refuses_word rfl) (.right (refuses_word rfl) (.left (reads_phrase rfl rfl rfl)))
  · have hset : Only (word "SET" ++ blanks1) before ("SET".toList ++ [' '])
        ("DEFAULT".toList ++ rest) :=
      .seq (only_word rfl) (only_blanks1 (by rintro c ⟨⟩; decide))
    have hnull : Refuses (phrase ["SET", "NULL"]) before
        ("SET".toList ++ [' '] ++ ("DEFAULT".toList ++ rest)) :=
      .after hset (refuses_word rfl)
    exact .right (refuses_word rfl) (.right (refuses_word rfl)
      (.right hnull (.left (reads_phrase rfl rfl rfl))))
  · refine .right (refuses_word rfl) (.right (refuses_word rfl) (.right ?_ (.right ?_ ?_)))
    · exact .seq_left (.seq_left (refuses_word rfl))
    · exact .seq_left (.seq_left (refuses_word rfl))
    · exact reads_phrase rfl rfl rfl

def eventText (event a : String) : Chars :=
  "ON".toList ++ [' '] ++ event.toList ++ [' '] ++ a.toList

theorem reads_event (hevent : event ∈ ["DELETE", "UPDATE"]) (ha : a ∈ actions) :
    Reads (eventPattern event) before (eventText event a) rest [(1, a.toList)] := by
  have hfirst : ∀ c ∈ (a.toList ++ rest).head?, isBlank c = false := by
    simp only [actions, List.mem_cons, List.not_mem_nil, or_false] at ha
    rcases ha with rfl | rfl | rfl | rfl | rfl <;>
    · rintro c ⟨⟩
      decide
  have hblank (before : Option Char) : Reads blanks1 before [' '] (a.toList ++ rest) [] :=
    reads_space1 hfirst
  have hopening : Reads (phrase ["ON", event]) before ("ON".toList ++ [' '] ++ event.toList)
      ([' '] ++ (a.toList ++ rest)) [] := by
    simp only [List.mem_cons, List.not_mem_nil, or_false] at hevent
    rcases hevent with rfl | rfl <;> exact reads_phrase rfl rfl rfl
  exact (hopening.seq (hblank _)).seq (.capture 1 (reads_action ha))

/-- The action of an event is found behind a text in which the event opens nowhere. -/
theorem actionOn?_eventText (hevent : event ∈ ["DELETE", "UPDATE"]) (ha : a ∈ actions)
    (hpre : Unopened event pre (eventText event a ++ rest)) :
    actionOn? event (pre ++ (eventText event a ++ rest)) = some a := by
  have hletter : event.toList.head?.any isAsciiLetter = true := by
    simp only [List.mem_cons, List.not_mem_nil, or_false] at hevent
    rcases hevent with rfl | rfl <;> rfl
  have hsearch : (eventPattern event).searchIn none 0 (pre ++ (eventText event a ++ rest)) =
      (eventPattern event).searchIn (pre.getLast?.or none) (0 + pre.length)
        (eventText event a ++ rest) :=
    searchIn_append fun x y hxy hy => refuses_event hletter (hpre x y hxy hy)
  have hread : Reads (eventPattern event) (pre.getLast?.or none) (eventText event a) rest
      [(1, a.toList)] := reads_event hevent ha
  obtain ⟨m, hm, -, his⟩ := hread.exists_matchAt? (0 + pre.length)
  have hkeep : oneLine (upper a) = a := by
    simp only [actions, List.mem_cons, List.not_mem_nil, or_false] at ha
    rcases ha with rfl | rfl | rfl | rfl | rfl <;> decide
  have hfound : (eventPattern event).search? (pre ++ (eventText event a ++ rest)) = some m :=
    hsearch.trans (searchIn_of_matchAt? hm)
  rw [actionOn?_eq, hfound, Option.map_some, his.group]
  exact congrArg some ((congrArg (fun t => oneLine (upper t)) String.ofList_toList).trans hkeep)

/-! ## Texts without an event -/

/-- Whether no `N` stands before a blank or at the end, so that no `ON` does. -/
structure Quiet (cs : Chars) : Prop where
  chain : cs.IsChain fun b c => isBlank c = true → sameLetter 'N' b = false
  last : ∀ c ∈ cs.getLast?, sameLetter 'N' c = false

theorem Quiet.append (hx : Quiet x) (hy : Quiet y) : Quiet (x ++ y) where
  chain := List.isChain_append.2 ⟨hx.chain, hy.chain, fun b hb _ _ _ => hx.last b hb⟩
  last := by
    intro c hc
    rw [List.getLast?_append] at hc
    cases hlast : y.getLast? with
    | none =>
      rw [hlast, Option.none_or] at hc
      exact hx.last c hc
    | some k =>
      rw [hlast, Option.some_or] at hc
      exact hy.last c (hlast ▸ hc)

theorem Quiet.one (h : sameLetter 'N' c = false) : Quiet [c] :=
  ⟨.singleton c, by rintro c ⟨⟩; exact h⟩

/-- A text without blanks. -/
theorem Quiet.solid (h : ∀ c ∈ cs, isBlank c = false)
    (hlast : ∀ c ∈ cs.getLast?, sameLetter 'N' c = false) : Quiet cs := by
  refine ⟨(List.pairwise_of_forall_mem_list fun _ _ c hc hblank => ?_).isChain, hlast⟩
  rw [h c hc] at hblank
  cases hblank

theorem Quiet.unopened (h : Quiet cs) (hrest : ∀ c ∈ rest.head?, isBlank c = true) :
    Unopened event cs rest := by
  have blank (c : Char) (hc : isBlank c = true) : sameLetter 'N' c = false := by
    rw [Bool.eq_false_iff]
    intro hsame
    rw [isBlank_of_sameLetter (by decide) rfl hsame] at hc
    cases hc
  rintro x y rfl hy
  obtain ⟨-, hchain, -⟩ := List.isChain_append.1 h.chain
  have hlast : ∀ c ∈ y.getLast?, sameLetter 'N' c = false := by
    have hlast := h.last
    rwa [List.getLast?_append_of_ne_nil _ hy] at hlast
  rw [opensEvent, Bool.and_eq_false_iff, Bool.and_eq_false_iff]
  refine .inl ?_
  cases y with
  | nil => exact absurd rfl hy
  | cons o y =>
    cases y with
    | nil =>
      cases rest with
      | nil => exact .inl (by simp [opensWith])
      | cons c rest => exact .inl (by simp [opensWith, blank c (hrest c rfl)])
    | cons k y =>
      cases y with
      | nil => exact .inl (by simp [opensWith, hlast k rfl])
      | cons c y =>
        by_cases hc : isBlank c = true
        · have hk := (List.isChain_cons_cons.1 (List.isChain_cons_cons.1 hchain).2).1 hc
          exact .inl (by simp [opensWith, hk])
        · exact .inr (by simpa using hc)

/-! ## The actions of a foreign key -/

def actionText (event : String) : Option String → Chars
  | some a => ' ' :: eventText event a
  | none => []

def actionTexts (delete update : Option String) : Chars :=
  actionText "DELETE" delete ++ actionText "UPDATE" update

theorem head?_actionTexts (delete update : Option String) :
    ∀ c ∈ (actionTexts delete update).head?, c = ' ' := by
  cases delete with
  | some a =>
    rintro c ⟨⟩
    rfl
  | none =>
    cases update with
    | some a =>
      rintro c ⟨⟩
      rfl
    | none => simp [actionTexts, actionText]

def IsAction (a : Option String) : Prop :=
  a ∈ none :: actions.map some

/-- Neither event opens in the text of the other. -/
theorem unopened_actionText {e f : String} (hevents : (e, f) ∈ [("DELETE", "UPDATE"),
    ("UPDATE", "DELETE")]) {o : Option String} (ho : IsAction o) :
    Unopened e (actionText f o) [] := by
  have hall : ∀ p ∈ [("DELETE", "UPDATE"), ("UPDATE", "DELETE")], ∀ o ∈ none :: actions.map some,
      ((actionText p.2 o).tails.all fun y => y.isEmpty || !opensEvent p.1 (y ++ [])) = true := by
    decide +kernel
  exact unopened_of_tails (hall (e, f) hevents o ho)

theorem unopened_before_update (hd : IsAction delete) (ha : a ∈ actions) :
    Unopened "UPDATE" (actionText "DELETE" delete ++ [' ']) (eventText "UPDATE" a) := by
  have hall : ∀ o ∈ none :: actions.map some, ∀ a ∈ actions,
      ((actionText "DELETE" o ++ [' ']).tails.all fun y =>
        y.isEmpty || !opensEvent "UPDATE" (y ++ eventText "UPDATE" a)) = true := by
    decide +kernel
  exact unopened_of_tails (hall _ hd a ha)

theorem IsAction.mem (h : IsAction delete) : ∀ a ∈ delete, a ∈ actions := by
  rintro a rfl
  simpa [IsAction] using h

theorem unopened_space (event : String) (rest : Chars) : Unopened event [' '] rest := by
  intro x y hxy hy
  obtain ⟨c, y, rfl⟩ := List.exists_cons_of_ne_nil hy
  have hnil : x = [] := by
    cases x with
    | nil => rfl
    | cons _ _ => simp at hxy
  subst hnil
  cases hxy
  rfl

/-- Both actions are read back from behind a quiet text. -/
theorem actionOn?_delete (hpre : Quiet pre) (hd : IsAction delete) (hu : IsAction update) :
    actionOn? "DELETE" (pre ++ actionTexts delete update) = delete := by
  cases delete with
  | none =>
    have hquiet : Unopened "DELETE" pre (actionText "UPDATE" update ++ []) := by
      refine hpre.unopened fun c hc => ?_
      rw [List.append_nil] at hc
      rw [head?_actionTexts none update c hc]
      decide
    exact actionOn?_eq_none rfl (hquiet.append (unopened_actionText (by decide) hu))
  | some a =>
    have hquiet : Unopened "DELETE" (pre ++ [' '])
        (eventText "DELETE" a ++ actionText "UPDATE" update) :=
      .append (hpre.unopened (by rintro c ⟨⟩; decide)) (unopened_space _ _)
    have hfound := actionOn?_eventText (by decide) (hd.mem a rfl) hquiet
    rw [List.append_assoc] at hfound
    exact hfound

theorem actionOn?_update (hpre : Quiet pre) (hd : IsAction delete) (hu : IsAction update) :
    actionOn? "UPDATE" (pre ++ actionTexts delete update) = update := by
  have hblank (x : Chars) : ∀ c ∈ (actionText "DELETE" delete ++ ' ' :: x).head?,
      isBlank c = true := by
    cases delete <;>
    · rintro c ⟨⟩
      decide
  cases update with
  | none =>
    have hquiet : Unopened "UPDATE" pre (actionText "DELETE" delete ++ []) := by
      refine hpre.unopened fun c hc => ?_
      rw [head?_actionTexts delete none c hc]
      decide
    have hnone := actionOn?_eq_none rfl
      (hquiet.append (unopened_actionText (by decide) hd))
    rwa [← List.append_nil (actionText "DELETE" delete)] at hnone
  | some a =>
    have hquiet : Unopened "UPDATE" (pre ++ (actionText "DELETE" delete ++ [' ']))
        (eventText "UPDATE" a ++ []) := by
      rw [List.append_nil]
      refine .append (hpre.unopened ?_) (unopened_before_update hd (hu.mem a rfl))
      rw [List.append_assoc]
      exact hblank _
    have hfound := actionOn?_eventText (by decide) (hu.mem a rfl) hquiet
    simp only [List.append_assoc, List.append_nil, List.singleton_append] at hfound
    exact hfound

/-! ## Names -/

structure IsPlainName (n : String) : Prop where
  ne_empty : n ≠ ""
  solid : ∀ c ∈ n.toList, isBlank c = false
  parenthesis : '(' ∉ n.toList ∧ ')' ∉ n.toList

theorem eq_or_mem_of_mem_quote {name : String} (h : c ∈ (d.quote name).toList) :
    c = d.nameQuote ∨ c ∈ name.toList := by
  simp only [Dialect.toList_quote, double, List.cons_append, List.mem_cons, List.mem_append,
    List.mem_flatMap, List.not_mem_nil, or_false] at h
  rcases h with h | ⟨x, hx, h⟩ | h
  · exact .inl h
  · split at h
    · exact .inl (by simpa using h)
    · exact .inr (by simp at h; exact h ▸ hx)
  · exact .inl h

theorem IsPlainName.quiet {name : String} (h : IsPlainName name) (d : Dialect) :
    Quiet (d.quote name).toList := by
  refine .solid (fun c hc => ?_) ?_
  · rcases eq_or_mem_of_mem_quote hc with rfl | hc
    · exact not_isBlank_nameQuote d
    · exact h.solid c hc
  · rw [getLast?_quote]
    rintro c ⟨⟩
    cases d <;> rfl

def namesText (d : Dialect) (ns : List String) : Chars :=
  '(' :: (d.quoteAll ns).toList ++ [')']

theorem quiet_quoteAll (d : Dialect) {ns : List String} (h : ∀ n ∈ ns, IsPlainName n) :
    Quiet (d.quoteAll ns).toList := by
  rw [Dialect.toList_quoteAll]
  induction ns with
  | nil => exact ⟨.nil, by simp⟩
  | cons n ns ih =>
    obtain ⟨hn, hns⟩ := List.forall_mem_cons.1 h
    cases ns with
    | nil =>
      rw [List.map_singleton, List.intercalate_singleton]
      exact hn.quiet d
    | cons x ns =>
      have hcomma : Quiet [',', ' '] := (Quiet.one (c := ',') rfl).append (.one (c := ' ') rfl)
      rw [List.map_cons, List.map_cons, List.intercalate_cons_cons]
      exact ((hn.quiet d).append hcomma).append (ih hns)

theorem quiet_namesText (d : Dialect) {ns : List String} (h : ∀ n ∈ ns, IsPlainName n) :
    Quiet (namesText d ns) :=
  ((Quiet.one (c := '(') rfl).append (quiet_quoteAll d h)).append (.one (c := ')') rfl)

theorem close_notMem_quoteAll {ns : List String} (h : ∀ n ∈ ns, IsPlainName n) :
    ')' ∉ (d.quoteAll ns).toList := by
  have hname (n : String) (hn : IsPlainName n) : ')' ∉ (d.quote n).toList := by
    intro hmem
    rcases eq_or_mem_of_mem_quote hmem with hquote | hmem
    · cases d <;> cases hquote
    · exact hn.parenthesis.2 hmem
  rw [Dialect.toList_quoteAll]
  induction ns with
  | nil => simp
  | cons n ns ih =>
    obtain ⟨hn, hns⟩ := List.forall_mem_cons.1 h
    cases ns with
    | nil => simpa using hname n hn
    | cons x ns =>
      rw [List.map_cons, List.map_cons, List.intercalate_cons_cons]
      simpa [hname n hn] using ih hns

/-! ## Reading a reference -/

def listPattern : Pattern :=
  char '(' ++ star (noneOf ")") ++ char ')'

def referencePattern : Pattern :=
  blanks ++ capture 1 qname ++ blanks ++ opt (capture 2 listPattern)

theorem reads_listPattern {ns : List String} (h : ∀ n ∈ ns, IsPlainName n) :
    Reads listPattern before (namesText d ns) rest [] := by
  have hbody : Reads (star (noneOf ")")) (some '(') (d.quoteAll ns).toList ([')'] ++ rest) [] := by
    refine .star_one (fun c hc => ?_) (by rintro c ⟨⟩; rfl)
    have hne : c ≠ ')' := fun he => close_notMem_quoteAll h (he ▸ hc)
    simpa using hne
  have hopen : Reads (char '(') before ['('] ((d.quoteAll ns).toList ++ ([')'] ++ rest)) [] :=
    .one rfl
  exact (hopen.seq hbody).seq (.one rfl)

def targetText (d : Dialect) (table : String) : List String → Chars
  | [] => ' ' :: (d.quote table).toList
  | refs => ' ' :: (d.quote table).toList ++ ' ' :: namesText d refs

theorem reads_target (d : Dialect) (table : String) (hquote : rest.head? ≠ some d.nameQuote)
    (hdot : (trimLeft rest).head? ≠ some '.') :
    Reads (blanks ++ capture 1 qname) none ([' '] ++ (d.quote table).toList) rest
      [(1, (d.quote table).toList)] := by
  have hblank : Reads blanks none [' '] ((d.quote table).toList ++ rest) [] :=
    reads_space (not_isBlank_head?_quote d table rest)
  exact hblank.seq (.capture 1 (reads_qname (reads_ident d table hquote) hdot))

/-- What is kept of the target of a reference. -/
theorem exists_match?_target {gap tail : Chars}
    (hrefs : ∀ n ∈ refs, IsPlainName n) (hgap : ∀ c ∈ gap, c = ' ')
    (htail : ∀ c ∈ tail.head?, c = 'O') :
    ∃ m, referencePattern.match? (targetText d table refs ++ (gap ++ tail)) = some m ∧
      m.group 1 = (d.quote table).toList ∧
      m.group? 2 = if refs = [] then none else some (namesText d refs) := by
  have hsolid : ∀ c ∈ tail.head?, isBlank c = false := by
    intro c hc
    rw [htail c hc]
    decide
  have hblank : ∀ c ∈ gap, isBlank c = true := by
    intro c hc
    rw [hgap c hc]
    decide
  cases refs with
  | nil =>
    have hquote : (gap ++ tail).head? ≠ some d.nameQuote := by
      cases gap with
      | nil =>
        intro h
        have hopen := htail _ h
        cases d <;> cases hopen
      | cons c gap =>
        rw [hgap c List.mem_cons_self]
        exact head?_ne_nameQuote d (by decide) _
    have hdot : (trimLeft (gap ++ tail)).head? ≠ some '.' := by
      rw [trimLeft_append hblank, trimLeft_eq_self hsolid]
      intro h
      cases htail _ h
    have hname := (reads_target d table hquote hdot).seq (reads_blanks hblank hsolid)
    have hnone (before : Option Char) : Reads (opt (capture 2 listPattern)) before [] tail [] := by
      refine .skip (.capture 2 (.seq_left (.seq_left (.one fun c hc => ?_))))
      rw [htail c hc]
      rfl
    have hwhole := hname.seq (y := []) (hnone _)
    obtain ⟨m, hm, -, his⟩ := hwhole.exists_match?
    refine ⟨m, ?_, by rw [his.group]; rfl, his.group? 2⟩
    simp only [List.append_nil, List.append_assoc] at hm
    exact hm
  | cons r refs =>
    have hname : Reads (blanks ++ capture 1 qname) none ([' '] ++ (d.quote table).toList)
        ([' '] ++ (namesText d (r :: refs) ++ (gap ++ tail))) [(1, (d.quote table).toList)] :=
      reads_target d table (head?_ne_nameQuote d (by decide) _) (by rintro ⟨⟩)
    have hlist (before : Option Char) : Reads (opt (capture 2 listPattern)) before
        (namesText d (r :: refs)) (gap ++ tail) [(2, namesText d (r :: refs))] :=
      .opt (.capture 2 (reads_listPattern hrefs))
    have hwhole := (hname.seq (reads_space (by rintro c ⟨⟩; decide))).seq (hlist _)
    obtain ⟨m, hm, -, his⟩ := hwhole.exists_match?
    refine ⟨m, ?_, by rw [his.group]; rfl, his.group? 2⟩
    simp only [List.append_assoc] at hm
    simpa [targetText, referencePattern] using hm

theorem quiet_targetText (htable : IsPlainName table)
    (hrefs : ∀ n ∈ refs, IsPlainName n) : Quiet (targetText d table refs) := by
  have hspace : Quiet [' '] := .one rfl
  cases refs with
  | nil => exact hspace.append (htable.quiet d)
  | cons r refs =>
    have hwhole := ((hspace.append (htable.quiet d)).append hspace).append (quiet_namesText d hrefs)
    rwa [List.append_assoc ([' '] ++ (d.quote table).toList)] at hwhole

theorem exists_actionTexts (delete update : Option String) : ∃ gap tail,
    actionTexts delete update = gap ++ tail ∧ (∀ c ∈ gap, c = ' ') ∧ ∀ c ∈ tail.head?, c = 'O' := by
  have hspace : ∀ c ∈ [' '], c = ' ' := List.forall_mem_singleton.2 rfl
  have hopen {x : Chars} : ∀ c ∈ ('O' :: x).head?, c = 'O' := by
    rintro c ⟨⟩
    rfl
  cases delete with
  | some a => exact ⟨[' '], _, rfl, hspace, hopen⟩
  | none =>
    cases update with
    | some a => exact ⟨[' '], _, rfl, hspace, hopen⟩
    | none => exact ⟨[], [], rfl, by simp, by simp⟩

/-- A reference is read back from behind the word that opens it. -/
theorem references_text (name : Option String) (columns : List String)
    (htable : IsPlainName table) (hrefs : ∀ n ∈ refs, IsPlainName n) (hd : IsAction delete)
    (hu : IsAction update) :
    references name columns (targetText d table refs ++ actionTexts delete update) =
      .ok { name, kind := .foreignKey, columns, referencedTable := some table,
            referencedColumns := refs, onDelete := delete, onUpdate := update } := by
  have hquiet : Quiet (targetText d table refs) := quiet_targetText htable hrefs
  have hdelete := actionOn?_delete hquiet hd hu
  have hupdate := actionOn?_update hquiet hd hu
  obtain ⟨gap, tail, htexts, hgap, htail⟩ := exists_actionTexts delete update
  have htarget : ∃ m, referencePattern.match? (targetText d table refs ++ (gap ++ tail)) = some m ∧
      m.group 1 = (d.quote table).toList ∧
      m.group? 2 = if refs = [] then none else some (namesText d refs) :=
    exists_match?_target hrefs hgap htail
  obtain ⟨m, hm, hname, hlist⟩ := htarget
  rw [← htexts] at hm
  have hcolumns : ((m.group? 2).map names).getD [] = refs := by
    rw [hlist]
    cases refs with
    | nil => rfl
    | cons r refs => exact names_quoteAll d (r :: refs)
  have hgiven : given (some table) = true := by simpa [given] using htable.ne_empty
  have hpattern : blanks ++ capture 1 qname ++ blanks ++ opt (capture 2 (char '(' ++
      star (noneOf ")") ++ char ')')) = referencePattern := rfl
  unfold references
  dsimp only
  rw [hpattern, hm, Option.map_some, Option.bind_some, hcolumns, hdelete, hupdate, hname,
    Option.getD_some, unquote_quote, Constraint.checked, Constraint.lack?]
  dsimp only
  rw [hgiven]
  rfl

/-! ## Foreign keys -/

theorem phrase_namesText (d : Dialect) (ns : List String) : Phrase d (namesText d ns) := by
  have h : Phrase d ('(' ::
      ([] ++ [',', ' '].intercalate (ns.map fun n => (d.quote n).toList) ++ []) ++ [')']) :=
    .group (List.forall_mem_map.2 fun n _ => .name d n) (List.forall_mem_nil _)
      (List.forall_mem_singleton.2 (.inl rfl)) (List.forall_mem_nil _)
  rwa [List.nil_append, List.append_nil, ← Dialect.toList_quoteAll] at h

theorem phrase_targetText (hx : Phrase d x) (table : String) (refs : List String) :
    Phrase d (x ++ targetText d table refs) := by
  have hname := hx.space (.name d table)
  cases refs with
  | nil => exact hname
  | cons r refs =>
    have hwhole := hname.space (phrase_namesText d (r :: refs))
    rwa [List.append_assoc] at hwhole

theorem phrase_action (ha : a ∈ actions) : Phrase d a.toList := by
  have word (w : String) (hne : w.toList ≠ []) (h : w.toList.all isWord = true) :
      Phrase d w.toList := .keyword w hne h
  simp only [actions, List.mem_cons, List.not_mem_nil, or_false] at ha
  rcases ha with rfl | rfl | rfl | rfl | rfl
  · exact word "CASCADE" (by decide) (by decide)
  · exact word "RESTRICT" (by decide) (by decide)
  · exact (word "SET" (by decide) (by decide)).space (word "NULL" (by decide) (by decide))
  · exact (word "SET" (by decide) (by decide)).space (word "DEFAULT" (by decide) (by decide))
  · exact (word "NO" (by decide) (by decide)).space (word "ACTION" (by decide) (by decide))

theorem phrase_actionText {event : String} (hx : Phrase d x) (hne : event.toList ≠ [])
    (hevent : event.toList.all isWord = true) {o : Option String} (ho : IsAction o) :
    Phrase d (x ++ actionText event o) := by
  cases o with
  | none => rwa [actionText, List.append_nil]
  | some a =>
    have hon : Phrase d "ON".toList := .keyword "ON" (by decide) (by decide)
    have hwhole := hx.space ((hon.space (.keyword event hne hevent)).space
      (phrase_action (ho.mem a rfl)))
    rw [actionText, eventText]
    simpa using hwhole

theorem phrase_actionTexts (hx : Phrase d x) (hd : IsAction delete) (hu : IsAction update) :
    Phrase d (x ++ actionTexts delete update) := by
  rw [actionTexts, ← List.append_assoc]
  exact phrase_actionText (phrase_actionText hx (by decide) (by decide) hd) (by decide) (by decide)
    hu

def keyText (d : Dialect) (columns : List String) (table : String) (refs : List String)
    (delete update : Option String) : Chars :=
  namesText d columns ++ (" REFERENCES".toList ++ (targetText d table refs ++
    actionTexts delete update))

theorem phrase_keyText (hd : IsAction delete) (hu : IsAction update) :
    Phrase d (keyText d columns table refs delete update) := by
  have hword : Phrase d "REFERENCES".toList := .keyword "REFERENCES" (by decide) (by decide)
  have hwhole := phrase_actionTexts (phrase_targetText ((phrase_namesText d columns).space hword)
    table refs) hd hu
  rw [List.append_assoc, List.append_assoc] at hwhole
  exact hwhole

/-- No name begins with a parenthesis. -/
theorem refuses_ident_open : Refuses ident before ('(' :: x) := by
  have hone {f : Char → Bool} (hf : f '(' = false) : Refuses (.one f) before ('(' :: x) :=
    .one (by rintro c ⟨⟩; exact hf)
  refine .alt (.alt (.seq_left (.seq_left (hone rfl))) (.alt (.seq_left (.seq_left (hone rfl)))
    (.seq_left (.seq_left (hone rfl))))) (.seq_left (hone rfl))

def behindColumns (d : Dialect) (table : String) (refs : List String)
    (delete update : Option String) : Chars :=
  ' ' :: ("REFERENCES".toList ++ (targetText d table refs ++ actionTexts delete update))

theorem keyText_eq : keyText d columns table refs delete update =
    '(' :: (d.quoteAll columns).toList ++ ')' :: behindColumns d table refs delete update := by
  have hopening : " REFERENCES".toList = ' ' :: "REFERENCES".toList := by decide
  simp only [keyText, namesText, behindColumns, hopening, List.cons_append, List.append_assoc,
    List.nil_append]

/-- No name stands before the columns. -/
theorem nameBefore?_keyText : ((opt (capture 1 ident) ++ blanks ++ char '(').match?
    (keyText d columns table refs delete update)).bind (·.group? 1) = none := by
  have hread : Reads (opt (capture 1 ident) ++ blanks ++ char '(') none ([] ++ [] ++ ['('])
      ((d.quoteAll columns).toList ++ ')' :: behindColumns d table refs delete update) [] :=
    ((Reads.skip (.capture 1 refuses_ident_open)).seq
      (reads_blanks (List.forall_mem_nil _) (by rintro c ⟨⟩; decide))).seq (.one rfl)
  obtain ⟨m, hm, -, his⟩ := hread.exists_match?
  have hopen : keyText d columns table refs delete update = [] ++ [] ++ ['('] ++
      ((d.quoteAll columns).toList ++ ')' :: behindColumns d table refs delete update) := by
    rw [keyText_eq]
    rfl
  rw [hopen, hm, Option.bind_some]
  exact his.group? 1

theorem exists_match?_behindColumns : ∃ m : Match, (blanks ++ word "REFERENCES" ++ edge).match?
    (behindColumns d table refs delete update) = some m ∧
      m.rest = targetText d table refs ++ actionTexts delete update := by
  have hnext : ∃ y, targetText d table refs ++ actionTexts delete update = ' ' :: y := by
    cases refs <;> exact ⟨_, rfl⟩
  obtain ⟨y, hy⟩ := hnext
  have hread : Reads (blanks ++ word "REFERENCES" ++ edge) none
      ([' '] ++ "REFERENCES".toList ++ []) (' ' :: y) [] :=
    ((reads_space (by rintro c ⟨⟩; decide)).seq (reads_word rfl rfl)).seq (.edge rfl)
  obtain ⟨m, hm, -, his⟩ := hread.exists_match?
  refine ⟨m, ?_, hy ▸ his.rest⟩
  rw [behindColumns, hy]
  exact hm

theorem foreignKey_text (name : Option String) (htable : IsPlainName table)
    (hrefs : ∀ n ∈ refs, IsPlainName n) (hd : IsAction delete) (hu : IsAction update) :
    foreignKey name (' ' :: keyText d columns table refs delete update) =
      .ok { name, kind := .foreignKey, columns, referencedTable := some table,
            referencedColumns := refs, onDelete := delete, onUpdate := update } := by
  have hphrase : Phrase d (keyText d columns table refs delete update) := phrase_keyText hd hu
  have htrim : trim (' ' :: keyText d columns table refs delete update) =
      keyText d columns table refs delete update := by
    have h : trim ([' '] ++ keyText d columns table refs delete update ++ []) = _ :=
      hphrase.toIsItem.trim_of_blanks (List.forall_mem_singleton.2 (by decide))
        (List.forall_mem_nil _)
    rwa [List.append_nil] at h
  have hgroup := group_append (balanced_quoteAll d columns)
    (behindColumns d table refs delete update)
  have hclosing := closing?_group (balanced_quoteAll d columns)
    (behindColumns d table refs delete update)
  obtain ⟨m, hm, hrest⟩ := @exists_match?_behindColumns d table refs delete update
  have hfind : find? ['('] (keyText d columns table refs delete update) = some 0 := by
    rw [keyText_eq]
    rfl
  have hname : (if given name then name else (Option.map unquote none).or name) = name := by
    split <;> rfl
  unfold foreignKey
  rw [htrim]
  dsimp only
  rw [nameBefore?_keyText, hname, hfind]
  dsimp only
  rw [List.drop_zero, keyText_eq, hclosing]
  dsimp only
  rw [hgroup]
  dsimp only
  rw [hm]
  dsimp only
  rw [hrest, names_quoteAll, references_text name columns htable hrefs hd hu]

end SqlFerry.Ddl
