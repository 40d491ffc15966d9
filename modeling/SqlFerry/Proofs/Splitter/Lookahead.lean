import SqlFerry.Proofs.Splitter.Drafts

/-!
# What a token looks ahead for

Where comments and blanks are taken out behind a token or a piece of a quoted text, the same stands
there still: no token looks ahead for a blank, and where anything was taken out a blank stands or
the text ends.
-/

namespace SqlFerry.Splitter

open Text

variable {o : Options} {c : Char} {cs rest held future : Chars} {escapes : Bool}

/-- Whether `future` begins with no text without blanks that `held` does not begin with. -/
def Agrees (held future : Chars) : Prop :=
  ∀ cs, (∀ c ∈ cs, isBlank c = false) → cs <+: future → cs <+: held

namespace Agrees

theorem nil (held : Chars) : Agrees held [] :=
  fun _ _ h => List.prefix_nil.1 h ▸ List.nil_prefix

theorem blank (hc : isBlank c = true) (held future : Chars) : Agrees held (c :: future) := by
  intro cs hcs h
  cases cs with
  | nil => exact List.nil_prefix
  | cons x cs =>
    obtain ⟨rfl, -⟩ := List.cons_prefix_cons.1 h
    rw [hcs x List.mem_cons_self] at hc
    cases hc

/-- Where nothing may follow, anything may stand. -/
theorem of_nil (h : Agrees [] future) (held : Chars) : Agrees held future :=
  fun cs hcs hopens => List.prefix_nil.1 (h cs hcs hopens) ▸ List.nil_prefix

theorem append (h : Agrees held future) (text : Chars) :
    Agrees (text ++ held) (text ++ future) := by
  intro cs hcs hopens
  rcases List.prefix_or_prefix_of_prefix hopens (List.prefix_append text future) with
    hshort | ⟨more, rfl⟩
  · exact hshort.trans (List.prefix_append _ _)
  · rw [List.prefix_append_right_inj] at hopens ⊢
    exact h more (fun c hc => hcs c (List.mem_append_right _ hc)) hopens

theorem head (h : Agrees held future) (hc : isBlank c = false) (hfuture : future.head? = some c) :
    held.head? = some c := by
  obtain ⟨after, rfl⟩ := List.head?_eq_some_iff.1 hfuture
  obtain ⟨before, hbefore⟩ :=
    h [c] (List.forall_mem_singleton.2 hc) (List.cons_prefix_cons.2 ⟨rfl, List.nil_prefix⟩)
  rw [← hbefore]
  rfl

/-- A run of characters that are no blanks ends where it did. -/
theorem takeWhile {p : Char → Bool} (h : Agrees rest future)
    (hp : ∀ c, p c = true → isBlank c = false) (hcs : (cs ++ rest).takeWhile p = cs) :
    (cs ++ future).takeWhile p = cs := by
  have hall : ∀ c ∈ cs, p c = true := by
    intro c hc
    rw [← hcs] at hc
    exact List.mem_takeWhile_imp hc
  rw [List.takeWhile_append_of_pos hall] at hcs ⊢
  have hrest : rest.takeWhile p = [] := by simpa using hcs
  suffices hfuture : future.takeWhile p = [] by rw [hfuture, List.append_nil]
  cases hfuture : future with
  | nil => rfl
  | cons x after =>
    refine List.takeWhile_cons_of_neg fun hx => ?_
    obtain ⟨before, rfl⟩ := List.head?_eq_some_iff.1 (h.head (hp x hx) (by rw [hfuture]; rfl))
    rw [List.takeWhile_cons_of_pos hx] at hrest
    cases hrest

end Agrees

/-- A tag is found again with whatever behind it. -/
theorem dollarTag?_of_opens {tag : Chars} (h : dollarTag? rest = some tag)
    (hopens : tag <+: '$' :: held) : dollarTag? held = some tag := by
  obtain ⟨after, hrest, htag⟩ := eq_of_dollarTag? h
  obtain ⟨more, hmore⟩ := hopens
  have hstop : (rest.takeWhile isTagChar ++ ['$']).dropWhile isTagChar ≠ [] := by
    rw [List.dropWhile_append_of_pos fun x hx => List.mem_takeWhile_imp hx]
    exact List.cons_ne_nil _ _
  have hheld : held = rest.takeWhile isTagChar ++ ['$'] ++ more := by
    rw [htag] at hmore
    simpa using hmore.symm
  rw [hheld, dollarTag?_append more hstop, ← h]
  conv_rhs => rw [hrest, List.append_cons, dollarTag?_append after hstop]

theorem dollarTag?_agrees (h : Agrees rest future) (hnone : dollarTag? rest = none) :
    dollarTag? future = none := by
  by_contra hne
  obtain ⟨tag, htag⟩ := Option.ne_none_iff_exists'.1 hne
  obtain ⟨after, hfuture, heq⟩ := eq_of_dollarTag? htag
  have hsolid := not_isBlank_of_tag htag
  rw [heq] at hsolid
  obtain ⟨-, hsolid⟩ := List.forall_mem_cons.1 hsolid
  have hopens : future.takeWhile isTagChar ++ ['$'] <+: future :=
    ⟨after, by rw [← List.append_cons, ← hfuture]⟩
  have hrest : tag <+: '$' :: rest := by
    rw [heq]
    exact List.cons_prefix_cons.2 ⟨rfl, h _ hsolid hopens⟩
  cases hnone.symm.trans (dollarTag?_of_opens htag hrest)

/-- A token stands where its text stands, with a future behind it that agrees. -/
theorem tokenAt_agrees {t : Token} (h : Agrees rest future)
    (ht : tokenAt o escapes c (cs ++ rest) = t) (htext : t.text c = c :: cs)
    (hisText : t.isText = true) : tokenAt o escapes c (cs ++ future) = t := by
  -- where a symbol stands, a mark of two characters stands only if it stood there
  have hpair {x : Char} (ht : Token.symbol = t) (hx : isBlank x = false)
      (hfuture : (cs ++ future).head? = some x) : (cs ++ rest).head? = some x := by
    subst ht
    obtain ⟨-, rfl⟩ := List.cons.inj htext
    exact h.head hx hfuture
  have keep {p : Prop} [Decidable p] {a b b' : Token} (hb : b = t → b' = t)
      (h : (if p then a else b) = t) : (if p then a else b') = t := by
    split at h
    · next hp => rwa [if_pos hp]
    · next hp => rw [if_neg hp]; exact hb h
  unfold tokenAt at ht ⊢
  by_cases hword : isWordStart c = true
  · rw [if_pos hword] at ht ⊢
    subst ht
    have hcs := (List.cons.inj htext).2
    rw [hcs, h.takeWhile (fun _ => not_isBlank_of_isWordPart) hcs]
  rw [if_neg hword] at ht ⊢
  -- blanks and quotes look ahead for nothing
  revert ht
  refine keep (keep (keep (keep (keep fun ht => ?_))))
  by_cases hdash : (c == '-' && (cs ++ rest).head? == some '-') = true
  · rw [if_pos hdash] at ht
    subst ht
    cases hisText
  rw [if_neg hdash] at ht
  rw [if_neg fun hnew => hdash ?dash]
  case dash =>
    simp only [Bool.and_eq_true, beq_iff_eq] at hnew ⊢
    obtain ⟨rfl, hnew⟩ := hnew
    exact ⟨rfl, hpair ht (by decide) hnew⟩
  by_cases hslash : (c == '/' && (cs ++ rest).head? == some '*') = true
  · rw [if_pos hslash] at ht
    by_cases hbang : (o.executableComments && (cs ++ rest).tail.head? == some '!') = true
    · rw [if_pos hbang] at ht
      subst ht
      obtain ⟨rfl, rfl⟩ := List.cons.inj htext
      rw [Bool.and_eq_true] at hbang
      simp [hbang.1]
    · rw [if_neg hbang] at ht
      subst ht
      cases hisText
  rw [if_neg hslash] at ht
  rw [if_neg fun hnew => hslash ?slash]
  case slash =>
    simp only [Bool.and_eq_true, beq_iff_eq] at hnew ⊢
    obtain ⟨rfl, hnew⟩ := hnew
    exact ⟨rfl, hpair ht (by decide) hnew⟩
  revert ht
  refine keep fun ht => ?_
  by_cases hdollar : (c == '$' && o.dollarQuotes) = true
  · rw [if_pos hdollar] at ht ⊢
    obtain rfl := beq_iff_eq.1 (Bool.and_eq_true_iff.1 hdollar).1
    cases htag : dollarTag? (cs ++ rest) with
    | some tag =>
      rw [htag] at ht
      subst ht
      rw [dollarTag?_of_opens htag ⟨future, by rw [show tag = '$' :: cs from htext]; rfl⟩]
    | none =>
      rw [htag] at ht
      subst ht
      obtain ⟨-, rfl⟩ := List.cons.inj htext
      rw [List.nil_append, dollarTag?_agrees h htag]
  · rwa [if_neg hdollar] at ht ⊢

theorem pieceAt_quoted_agrees {mark : Mark} {escapes last : Bool} (h : Agrees rest future)
    (hp : pieceAt (.quoted mark escapes) c (cs ++ rest) = (c :: cs, last)) (hrest : rest ≠ []) :
    pieceAt (.quoted mark escapes) c (cs ++ future) = (c :: cs, last) := by
  dsimp only [pieceAt] at hp ⊢
  by_cases hescape : (escapes && c == '\\') = true
  · rw [if_pos hescape] at hp ⊢
    obtain ⟨hcs, rfl⟩ := Prod.mk.inj hp
    replace hcs : (cs ++ rest).take 1 = cs := (List.cons.inj hcs).2
    have hlength : cs.length = 1 := by
      have := congrArg List.length hcs
      have := List.length_pos_iff.2 hrest
      simp only [List.length_take, List.length_append] at *
      omega
    rw [List.take_left' hlength]
  rw [if_neg hescape] at hp ⊢
  by_cases hclosing : (c == mark.closing) = true
  · rw [if_pos hclosing] at hp ⊢
    by_cases hdouble : ((cs ++ rest).head? == some c) = true
    · rw [if_pos hdouble] at hp
      obtain ⟨hcs, rfl⟩ := Prod.mk.inj hp
      obtain ⟨-, rfl⟩ := List.cons.inj hcs
      simp
    · rw [if_neg hdouble] at hp
      obtain ⟨hcs, rfl⟩ := Prod.mk.inj hp
      obtain ⟨-, rfl⟩ := List.cons.inj hcs
      have hsolid : isBlank c = false := by
        rw [beq_iff_eq.1 hclosing]
        cases mark <;> decide
      rw [List.nil_append] at hdouble ⊢
      rw [if_neg fun hnew => hdouble (beq_iff_eq.2 (h.head hsolid (beq_iff_eq.1 hnew)))]
  · rw [if_neg hclosing] at hp ⊢
    exact hp

theorem pieceAt_blockComment_agrees {kept last : Bool} (h : Agrees rest future)
    (hp : pieceAt (.blockComment kept) c (cs ++ rest) = (c :: cs, last)) :
    pieceAt (.blockComment kept) c (cs ++ future) = (c :: cs, last) := by
  dsimp only [pieceAt] at hp ⊢
  by_cases hclosing : (c == '*' && (cs ++ rest).head? == some '/') = true
  · rw [if_pos hclosing] at hp
    obtain ⟨hcs, rfl⟩ := Prod.mk.inj hp
    obtain ⟨rfl, rfl⟩ := List.cons.inj hcs
    simp
  · rw [if_neg hclosing] at hp
    obtain ⟨hcs, rfl⟩ := Prod.mk.inj hp
    obtain ⟨-, rfl⟩ := List.cons.inj hcs
    rw [if_neg fun hnew => hclosing ?_]
    simp only [Bool.and_eq_true, beq_iff_eq] at hnew ⊢
    exact ⟨hnew.1, h.head (by decide) hnew.2⟩

theorem pieceAt_dollarQuoted_agrees {tag : Chars} {last : Bool} (h : Agrees rest future)
    (hp : pieceAt (.dollarQuoted tag) c (cs ++ rest) = (c :: cs, last))
    (htag : ∀ c ∈ tag, isBlank c = false) :
    pieceAt (.dollarQuoted tag) c (cs ++ future) = (c :: cs, last) := by
  dsimp only [pieceAt] at hp ⊢
  by_cases hclosing : startsWith tag (c :: (cs ++ rest)) = true
  · rw [if_pos hclosing] at hp
    obtain ⟨rfl, rfl⟩ := Prod.mk.inj hp
    have hopens : c :: cs <+: c :: (cs ++ future) := ⟨future, rfl⟩
    rw [if_pos (startsWith_iff.2 hopens)]
  · rw [if_neg hclosing] at hp
    obtain ⟨hcs, rfl⟩ := Prod.mk.inj hp
    obtain ⟨-, rfl⟩ := List.cons.inj hcs
    rw [if_neg fun hnew => hclosing ?_]
    rw [startsWith_iff] at hnew ⊢
    cases tag with
    | nil => exact List.nil_prefix
    | cons x tag =>
      obtain ⟨rfl, htail⟩ := List.cons_prefix_cons.1 hnew
      exact List.cons_prefix_cons.2
        ⟨rfl, h tag (fun c hc => htag c (List.mem_cons_of_mem _ hc)) htail⟩

/-- The same holds of a piece, before the end of the script. -/
theorem pieceAt_agrees {mode : Mode} {last : Bool} (h : Agrees rest future)
    (hp : pieceAt mode c (cs ++ rest) = (c :: cs, last)) (hmode : mode.isText = true)
    (htag : ∀ tag, mode = .dollarQuoted tag → ∀ c ∈ tag, isBlank c = false) (hrest : rest ≠ []) :
    pieceAt mode c (cs ++ future) = (c :: cs, last) := by
  cases mode with
  | normal | lineComment => cases hmode
  | quoted mark escapes => exact pieceAt_quoted_agrees h hp hrest
  | blockComment kept => exact pieceAt_blockComment_agrees h hp
  | dollarQuoted tag => exact pieceAt_dollarQuoted_agrees h hp (htag tag rfl)

end SqlFerry.Splitter
