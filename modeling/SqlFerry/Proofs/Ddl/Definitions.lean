import SqlFerry.Ddl.Printer
import SqlFerry.Proofs.Splitter.Closing
import SqlFerry.Proofs.Text.Case
import SqlFerry.Proofs.Work

/-!
# Definitions as statements

The definition of a table, an index or a foreign key is spelled by pieces, whatever the names and
the literals in it, if no text is taken over into it as it stands but words.
-/

namespace SqlFerry

open Text Splitter

variable {d : Dialect} {a b cs : Chars}

/-! ## Columns -/

/-- A column of which nothing is taken over into its definition as it stands but the words of its
type. -/
structure Column.IsPlain (c : Column) : Prop where
  type : IsWords c.typeName
  default : c.default = none
  onUpdate : given c.onUpdate = false

instance (c : Column) : Decidable c.IsPlain :=
  decidable_of_iff (IsWords c.typeName ∧ c.default = none ∧ given c.onUpdate = false)
    ⟨fun h => ⟨h.1, h.2.1, h.2.2⟩, fun h => ⟨h.type, h.default, h.onUpdate⟩⟩

namespace Ddl

theorem spelled_arguments (ha : IsFlat d a) (hb : Spelled d b) (hcs : IsFlat d cs) :
    Spelled d (a ++ ['('] ++ b ++ ([')'] ++ cs)) := by
  have hclose : IsFlat d [')'] := by
    cases d <;> decide
  exact ((Spelled.flat ha).link (by cases d <;> decide) hb).after (hclose.append hcs)

theorem spelled_typeWithArguments {c : Column} {text : String} (hc : IsWords c.typeName)
    (h : typeWithArguments c = .ok text) : Spelled d text.toList := by
  have hbase : IsFlat d c.typeName.toList := .of_words hc.chars
  have hpart {cs : Chars} (hcs : ∀ x ∈ cs, x ∈ c.typeName.toList) : IsFlat d cs :=
    fun x hx => hbase x (hcs x hx)
  have hnumber (n : Int) : Spelled d (toString n).toList := .number (Value.isNumberText_toString n)
  have hplain : Spelled d c.typeName.toList := .flat hbase
  have hnothing : IsFlat d [] := by
    rintro c ⟨⟩
  have hone (n : Int) : Spelled d (c.typeName ++ "(" ++ toString n ++ ")").toList := by
    have h := spelled_arguments hbase (hnumber n) hnothing
    simpa using h
  unfold typeWithArguments at h
  dsimp only at h
  split at h
  · cases h
    exact hone _
  split at h
  · split at h
    · next scale _ =>
      cases h
      have hpair := (hnumber (c.precision.getD 0)).link
        (show IsLink d [','] by cases d <;> decide) (hnumber scale)
      have h := spelled_arguments hbase hpair hnothing
      simpa [toString] using h
    · cases h
      exact hone _
  split at h
  · cases h
  split at h
  · next precision _ _ =>
    cases h
    have hhead : IsFlat d (c.typeName.toList.takeWhile (· != ' ')) :=
      hpart fun x hx => (List.takeWhile_prefix _).subset hx
    have htail : IsFlat d ((c.typeName.toList.dropWhile (· != ' ')).drop 1) :=
      hpart fun x hx => (List.dropWhile_suffix _).subset (List.mem_of_mem_drop hx)
    generalize (c.typeName.toList.dropWhile (· != ' ')).drop 1 = tail at htail
    have hrest : IsFlat d (if (String.ofList tail).isEmpty then ""
        else " " ++ String.ofList tail).toList := by
      split
      · rintro c ⟨⟩
      · simp only [String.toList_append, String.toList_ofList]
        exact (show IsFlat d " ".toList by cases d <;> decide).append htail
    have h := spelled_arguments hhead (hnumber precision) hrest
    simpa [toString] using h
  · cases h
    exact hplain

theorem spelled_columnType {c : Column} {text : String} (hc : c.IsPlain)
    (h : columnType d c = .ok text) : Spelled d text.toList := by
  have hbase : IsFlat d c.typeName.toList := .of_words hc.type.chars
  unfold columnType at h
  split at h
  · cases h
    have hserial : ∀ s, ((TypeName.serialOf? s).getD "serial") ∈
        ["smallserial", "serial", "bigserial"] := by
      intro s
      cases s <;> decide
    have hflat : ∀ s ∈ ["smallserial", "serial", "bigserial"], IsFlat d s.toList := by
      cases d <;> decide
    exact .flat (hflat _ (hserial _))
  split at h
  · cases h
    exact .flat (by cases d <;> decide)
  split at h
  · cases h
    have hvalues : Spelled d (", ".intercalate (c.enumValues.map d.textLiteral)).toList := by
      refine .joined (fun x hx => ?_) (by cases d <;> decide)
      obtain ⟨v, -, rfl⟩ := List.mem_map.1 hx
      exact .literal d v
    have h := spelled_arguments hbase hvalues (show IsFlat d [] by rintro c ⟨⟩)
    simpa using h
  · obtain ⟨written, hwritten, h⟩ := exists_of_bind_eq_ok h
    cases h
    rw [String.toList_append, String.toList_append, List.append_assoc]
    refine (spelled_typeWithArguments hc.type hwritten).after (.append ?_ ?_)
    · split
      · cases d <;> decide
      · rintro c ⟨⟩
    · split
      · next harray =>
        obtain rfl : d = .postgresql := by simpa using (Bool.and_eq_true_iff.1 harray).2
        decide
      · rintro c ⟨⟩

theorem spelled_column {c : Column} {t : Option Table} {text : String} (hc : c.IsPlain)
    (h : column d c t = .ok text) : Spelled d text.toList := by
  obtain ⟨type, htype, h⟩ := exists_of_bind_eq_ok h
  cases h
  have hword {w : String} (hw : w ∈ ["PRIMARY KEY AUTOINCREMENT", "NOT NULL", "AUTO_INCREMENT"]) :
      Spelled d w.toList := by
    have hflat : ∀ w ∈ ["PRIMARY KEY AUTOINCREMENT", "NOT NULL", "AUTO_INCREMENT"],
        IsFlat d w.toList := by
      cases d <;> decide
    exact .flat (hflat w hw)
  refine .joined (fun x hx => ?_) (by cases d <;> decide)
  simp only [hc.default, hc.onUpdate, List.append_nil, List.mem_append, List.mem_cons,
    List.not_mem_nil, or_false, Bool.false_eq_true, if_false] at hx
  rcases hx with ((rfl | rfl) | hkey) | hown
  · exact .name d c.name
  · exact spelled_columnType hc htype
  · split at hkey
    · rw [List.mem_singleton.1 hkey]
      exact hword (by decide)
    · split at hkey
      · cases hkey
      · rw [List.mem_singleton.1 hkey]
        exact hword (by decide)
  · split at hown
    · rcases List.mem_append.1 hown with hauto | hcomment
      · split at hauto
        · rw [List.mem_singleton.1 hauto]
          exact hword (by decide)
        · cases hauto
      · split at hcomment
        · rw [List.mem_singleton.1 hcomment, String.toList_append]
          exact (Spelled.literal d _).before (by cases d <;> decide)
        · cases hcomment
    · cases hown

end Ddl

/-! ## Tables -/

/-- A constraint of which nothing is taken over as it stands but the words of its actions. -/
structure Constraint.IsPlain (c : Constraint) : Prop where
  kind : c.kind ≠ .check
  onDelete : ∀ s ∈ c.onDelete, IsWords s
  onUpdate : ∀ s ∈ c.onUpdate, IsWords s

instance (c : Constraint) : Decidable c.IsPlain :=
  decidable_of_iff (c.kind ≠ .check ∧ (∀ s ∈ c.onDelete, IsWords s) ∧ ∀ s ∈ c.onUpdate, IsWords s)
    ⟨fun h => ⟨h.1, h.2.1, h.2.2⟩, fun h => ⟨h.kind, h.onDelete, h.onUpdate⟩⟩

structure Index.IsPlain (i : Index) : Prop where
  expression : given i.expression = false
  condition : given i.condition = false
  method : ∀ s ∈ i.method, s.toList.all isTagChar = true

instance (i : Index) : Decidable i.IsPlain :=
  decidable_of_iff (given i.expression = false ∧ given i.condition = false ∧
      ∀ s ∈ i.method, s.toList.all isTagChar = true)
    ⟨fun h => ⟨h.1, h.2.1, h.2.2⟩, fun h => ⟨h.expression, h.condition, h.method⟩⟩

structure Table.IsPlain (t : Table) : Prop where
  columns : ∀ c ∈ t.columns, c.IsPlain
  indexes : ∀ i ∈ t.indexes, i.IsPlain
  constraints : ∀ c ∈ t.constraints, c.IsPlain
  options : ∀ k ∈ ["engine", "charset", "collate"], ∀ v ∈ t.options.lookup k, IsWords v

instance (t : Table) : Decidable t.IsPlain :=
  decidable_of_iff ((∀ c ∈ t.columns, c.IsPlain) ∧ (∀ i ∈ t.indexes, i.IsPlain) ∧
      (∀ c ∈ t.constraints, c.IsPlain) ∧
      ∀ k ∈ ["engine", "charset", "collate"], ∀ v ∈ t.options.lookup k, IsWords v)
    ⟨fun h => ⟨h.1, h.2.1, h.2.2.1, h.2.2.2⟩,
      fun h => ⟨h.columns, h.indexes, h.constraints, h.options⟩⟩

namespace Ddl

theorem formed_dropTable (d : Dialect) (table : String) :
    Formed d (dropTable d table).toList := by
  have hcascade : IsTail d (if d == .postgresql then " CASCADE" else "").toList :=
    .ite (fun _ => .inr ⟨" ".toList, "CASCADE".toList, by cases d <;> decide,
      ⟨.flat (by cases d <;> decide), by decide⟩, rfl⟩) fun _ => .empty d
  have hopening : "DROP TABLE IF EXISTS ".toList =
      spaced ["DROP", "TABLE"] ++ "IF EXISTS ".toList := rfl
  have hexists : IsLink d "IF EXISTS ".toList := by
    cases d <;> decide
  refine (((Closes.name d table).tail hcascade).before hexists).formed ["DROP", "TABLE"]
    (by decide) ?_
  unfold dropTable
  simp only [String.toList_append, hopening, List.append_assoc]

/-- A text behind the name of a constraint, if it has one. -/
theorem closes_named (c : Constraint) {lead : String} (hlead : IsLink d lead.toList)
    (hb : Closes d b) :
    Closes d ((if given c.name then "CONSTRAINT " ++ d.quote (c.name.getD "") ++ " "
      else "").toList ++ (lead.toList ++ b)) := by
  have hconstraint : IsLink d "CONSTRAINT ".toList := by
    cases d <;> decide
  have hspace : IsFlat d " ".toList := by
    cases d <;> decide
  split
  · have h := (Closes.link (.name d (c.name.getD "")) (hlead.behind hspace) hb).before hconstraint
    simpa only [String.toList_append, List.append_assoc] using h
  · show Closes d (lead.toList ++ b)
    exact hb.before hlead

theorem closes_constraint {c : Constraint} (hc : c.IsPlain) :
    Closes d (constraint d c).toList := by
  have hlist (names : List String) : Closes d ((d.quoteAll names).toList ++ ")".toList) :=
    .after (.quoteAll d names) (by cases d <;> decide) (by decide)
  have haction {event : String} {action : Option String} (hevent : IsLink d event.toList)
      (hwords : ∀ s ∈ action, IsWords s) :
      IsTail d (if given action then event ++ action.getD "" else "").toList := by
    refine .ite (fun hgiven => ?_) fun _ => .empty d
    cases action with
    | none => cases hgiven
    | some s => exact (Closes.words (hwords s rfl) (by simpa [given] using hgiven)).isTail hevent
  unfold constraint
  dsimp only
  split
  · next hkind => exact absurd hkind hc.kind
  · have hunique : IsLink d "UNIQUE (".toList := by
      cases d <;> decide
    have h := closes_named c hunique (hlist c.columns)
    simpa only [String.toList_append, List.append_assoc] using h
  · have hcolumns : IsTail d (if c.referencedColumns.isEmpty then "" else
        " (" ++ d.quoteAll c.referencedColumns ++ ")").toList := by
      refine .ite (fun _ => .empty d) fun _ => ?_
      rw [String.append_assoc]
      refine Closes.isTail (by cases d <;> decide) ?_
      rw [String.toList_append]
      exact hlist _
    have hdelete : IsLink d " ON DELETE ".toList := by
      cases d <;> decide
    have hupdate : IsLink d " ON UPDATE ".toList := by
      cases d <;> decide
    have hforeign : IsLink d "FOREIGN KEY (".toList := by
      cases d <;> decide
    have hreferences : IsLink d ") REFERENCES ".toList := by
      cases d <;> decide
    have hreference := (((Closes.name d (c.referencedTable.getD "")).tail hcolumns).tail
      (haction hdelete hc.onDelete)).tail (haction hupdate hc.onUpdate)
    have h := closes_named c hforeign (.link (.quoteAll d c.columns) hreferences hreference)
    simpa only [String.toList_append, List.append_assoc] using h

theorem isTail_mysqlOptions {t : Table} (ht : t.IsPlain) :
    IsTail .mysql (mysqlOptions t.options).toList := by
  have hlist {v x y : String} (hx : x ∈ if v.isEmpty then [] else [y])
      (hy : v.isEmpty = false → Closes .mysql y.toList) : Closes .mysql x.toList := by
    split at hx
    · cases hx
    · next hempty =>
      rw [List.mem_singleton.1 hx]
      exact hy (by simpa using hempty)
  have hoption {k v label : String} (hk : k ∈ ["engine", "charset", "collate"])
      (hv : t.options.lookup k = some v) (hlabel : IsLink .mysql (label ++ "=").toList)
      (hempty : v.isEmpty = false) : Closes .mysql (label ++ "=" ++ v).toList := by
    rw [String.toList_append]
    exact (Closes.words (ht.options k hk v hv) hempty).before hlabel
  have hcomment (v : String) :
      Closes .mysql ("COMMENT=" ++ Dialect.mysql.textLiteral v).toList := by
    rw [String.toList_append]
    exact (Closes.literal .mysql v).before (by decide)
  unfold mysqlOptions
  dsimp only
  refine .ite (fun _ => .empty _) fun hne => Closes.isTail (by decide) ?_
  refine .joined (fun hnil => hne (List.isEmpty_iff.2 hnil)) (fun x hx => ?_) (by decide)
  simp only [List.mem_append] at hx
  rcases hx with ((hx | hx) | hx) | hx
  · split at hx
    · next v hv => exact hlist hx (hoption (by decide) hv (by decide))
    · cases hx
  · split at hx
    · next v hv => exact hlist hx (hoption (by decide) hv (by decide))
    · cases hx
  · split at hx
    · next v hv => exact hlist hx (hoption (by decide) hv (by decide))
    · cases hx
  · split at hx
    · exact hlist hx fun _ => hcomment _
    · cases hx

theorem formed_createTable {t : Table} {inlineForeignKeys : Bool} {text : String} (ht : t.IsPlain)
    (h : createTable d t inlineForeignKeys = .ok text) : Formed d text.toList := by
  obtain ⟨columns, hcolumns, h⟩ := exists_of_bind_eq_ok h
  cases h
  have hoptions : IsTail d (if d == .mysql then mysqlOptions t.options else "").toList := by
    refine .ite (fun hd => ?_) fun _ => .empty d
    obtain rfl : d = .mysql := by simpa using hd
    exact isTail_mysqlOptions ht
  have hlines : ∀ x ∈ columns ++
      (if t.primaryKey.isEmpty || keyIsInline d t then []
        else ["PRIMARY KEY (" ++ d.quoteAll t.primaryKey ++ ")"]) ++
      (t.constraints.filter fun c => c.kind != .foreignKey || inlineForeignKeys).map (constraint d),
      Spelled d x.toList := by
    intro x hx
    simp only [List.mem_append] at hx
    rcases hx with (hx | hx) | hx
    · exact forall_of_mapM_eq_ok hcolumns (P := fun x => Spelled d x.toList)
        (fun c hc x => spelled_column (ht.columns c hc)) x hx
    · split at hx
      · cases hx
      · rw [List.mem_singleton.1 hx, String.toList_append, String.toList_append]
        exact ((Spelled.quoteAll d t.primaryKey).before (by cases d <;> decide)).after
          (by cases d <;> decide)
    · obtain ⟨c, hc, rfl⟩ := List.mem_map.1 hx
      exact (closes_constraint (ht.constraints c (List.mem_filter.1 hc).1)).spelled
  have hopen : IsLink d " (\n  ".toList := by
    cases d <;> decide
  have hcomma : IsLink d ",\n  ".toList := by
    cases d <;> decide
  have hclose : IsFlat d "\n)".toList := by
    cases d <;> decide
  have hbody := (Spelled.name d t.name).link hopen (.joined hlines hcomma)
  have hopening : "CREATE TABLE ".toList = spaced ["CREATE", "TABLE"] := rfl
  refine ((Closes.after hbody hclose (by decide)).tail hoptions).formed ["CREATE", "TABLE"]
    (by decide) ?_
  simp only [Bool.false_eq_true, if_false, String.toList_append, hopening, List.append_assoc]

theorem formed_addForeignKey {c : Constraint} (hc : c.IsPlain) (table : String) :
    Formed d (addForeignKey d table c).toList := by
  have hopening : "ALTER TABLE ".toList = spaced ["ALTER", "TABLE"] := rfl
  have hadd : IsLink d " ADD ".toList := by
    cases d <;> decide
  refine (Closes.link (.name d table) hadd (closes_constraint hc)).formed ["ALTER", "TABLE"]
    (by decide) ?_
  unfold addForeignKey
  simp only [String.toList_append, hopening, List.append_assoc]

/-! ## Indexes -/

theorem isWords_of_isWord {s : String} (hs : ∀ c ∈ s.toList, isWord c = true) : IsWords s where
  chars := fun c hc => .inl (hs c hc)
  last := fun hlast => absurd (hs ' ' (List.mem_of_getLast? hlast)) (by decide)

/-- A word of letters, digits and underscores is one in upper case, too. -/
theorem isWords_upper {s : String} (hs : s.toList.all isTagChar = true) :
    IsWords s ∧ IsWords (upper s) ∧ ((upper s).isEmpty = true → s.isEmpty = true) := by
  have hone {c : Char} (hc : c ∈ s.toList) :
      isWord c = true ∧ (upperChar c).all isWord = true ∧ upperChar c ≠ [] := by
    have htag := List.all_eq_true.1 hs c hc
    have h : isTagChar c = true → isWord c = true ∧ (upperChar c).all isWord = true ∧
        upperChar c ≠ [] := of_ascii c (toNat_of_isTagChar htag) (by decide +kernel)
    exact h htag
  refine ⟨isWords_of_isWord fun c hc => (hone hc).1, isWords_of_isWord fun c hc => ?_, ?_⟩
  · rw [toList_upper] at hc
    obtain ⟨x, hx, hc⟩ := List.mem_flatMap.1 hc
    exact List.all_eq_true.1 (hone hx).2.1 c hc
  · intro hempty
    rw [String.isEmpty_iff, ← String.toList_eq_nil_iff, toList_upper] at hempty
    rw [String.isEmpty_iff, ← String.toList_eq_nil_iff]
    by_contra hne
    obtain ⟨c, hc⟩ := List.exists_mem_of_ne_nil _ hne
    exact (hone hc).2.2 (List.flatMap_eq_nil_iff.1 hempty c hc)

theorem closes_indexTarget {i : Index} (hi : i.IsPlain) : Closes d (indexTarget d i).toList := by
  have hdirection : ∀ dir : Direction, IsFlat d (" " ++ dir.name).toList := by
    rintro (_ | _) <;> cases d <;> decide
  have hlength (name : String) (n : Int) :
      Spelled d ((d.quote name).toList ++ ("(" ++ toString n ++ ")").toList) := by
    have hopen : IsLink d "(".toList := by
      cases d <;> decide
    have hclose : IsFlat d ")".toList := by
      cases d <;> decide
    have h := ((Spelled.name d name).link hopen
      (.number (Value.isNumberText_toString n))).after hclose
    simpa using h
  have hnothing : IsFlat d "".toList := by
    cases d <;> decide
  have hcolumns : (given i.expression && i.columns.isEmpty) = false := by
    rw [hi.expression, Bool.false_and]
  unfold indexTarget
  rw [hcolumns, if_neg Bool.false_ne_true, String.toList_append, String.toList_append]
  refine .after (.before (by cases d <;> decide) (.joined (fun x hx => ?_) (by cases d <;> decide)))
    (by cases d <;> decide) (by decide)
  obtain ⟨c, -, rfl⟩ := List.mem_map.1 hx
  have hname := Spelled.name d c.name
  rw [String.toList_append, String.toList_append]
  refine .after ?_ (by split <;> [exact hdirection _; exact hnothing])
  split
  · split
    · exact hlength c.name _
    · exact hname.after hnothing
  · exact hname.after hnothing

/-- The words that the definition of an index begins with. -/
theorem exists_opening_createIndex (d : Dialect) (kind : Index.Kind) : ∃ ws ∈ openings,
    ("CREATE " ++ (match kind with
      | .unique => "UNIQUE INDEX"
      | .fulltext => if d == .mysql then "FULLTEXT INDEX" else "INDEX"
      | .spatial => if d == .mysql then "SPATIAL INDEX" else "INDEX"
      | _ => "INDEX") ++ " ").toList = spaced ws := by
  have hplain : ["CREATE", "INDEX"] ∈ openings ∧
      ("CREATE " ++ "INDEX" ++ " ").toList = spaced ["CREATE", "INDEX"] := by
    decide
  have hunique : ["CREATE", "UNIQUE", "INDEX"] ∈ openings ∧
      ("CREATE " ++ "UNIQUE INDEX" ++ " ").toList = spaced ["CREATE", "UNIQUE", "INDEX"] := by
    decide
  have hmysql (keyword : String) (h : ["CREATE", keyword, "INDEX"] ∈ openings)
      (htext : ("CREATE " ++ (keyword ++ " INDEX") ++ " ").toList =
        spaced ["CREATE", keyword, "INDEX"]) : ∃ ws ∈ openings,
      ("CREATE " ++ (if d == .mysql then keyword ++ " INDEX" else "INDEX") ++ " ").toList =
        spaced ws := by
    split
    · exact ⟨_, h, htext⟩
    · exact ⟨_, hplain⟩
  cases kind with
  | primary | plain => exact ⟨_, hplain⟩
  | unique => exact ⟨_, hunique⟩
  | fulltext => exact hmysql "FULLTEXT" (by decide) (by decide)
  | spatial => exact hmysql "SPATIAL" (by decide) (by decide)

theorem formed_createIndex {i : Index} {text : String} (hi : i.IsPlain) {table : String}
    (h : createIndex d table i = some text) : Formed d text.toList := by
  obtain ⟨ws, hws, hopening⟩ := exists_opening_createIndex d i.kind
  unfold createIndex at h
  split at h
  · cases h
  have hmethod : (if given i.method then i.method.getD "" else "").toList.all isTagChar = true := by
    split
    · cases hm : i.method with
      | none => rfl
      | some s => exact hi.method s hm
    · rfl
  dsimp only at h
  generalize (if given i.method then i.method.getD "" else "") = method at h hmethod
  generalize ("CREATE " ++ (match i.kind with
      | .unique => "UNIQUE INDEX"
      | .fulltext => if d == .mysql then "FULLTEXT INDEX" else "INDEX"
      | .spatial => if d == .mysql then "SPATIAL INDEX" else "INDEX"
      | _ => "INDEX") ++ " ") = opening at h hopening
  cases h
  obtain ⟨hword, hupper, hempty⟩ := isWords_upper hmethod
  have hmiddle : IsLink d ((if !method.isEmpty && d == .postgresql then " USING " ++ method
      else "").toList ++ " ".toList) := by
    refine IsLink.behind ?_ (by cases d <;> decide)
    split
    · rw [String.toList_append]
      exact (show IsFlat d " USING ".toList by cases d <;> decide).append
        (.of_words hword.chars)
    · cases d <;> decide
  have husing : IsTail d (if !method.isEmpty && d == .mysql then " USING " ++ upper method
      else "").toList := by
    refine .ite (fun hgiven => Closes.isTail (by cases d <;> decide) (.words hupper ?_))
      fun _ => .empty d
    rw [Bool.eq_false_iff]
    intro hnone
    simp [hempty hnone] at hgiven
  have hwhere : IsTail d (if given i.condition && d != .mysql then
      " WHERE " ++ i.condition.getD "" else "").toList := by
    rw [hi.condition]
    exact .empty d
  have hon : IsLink d " ON ".toList := by
    cases d <;> decide
  have hnames := (Spelled.name d i.name).link hon (.name d table)
  refine (((Closes.link hnames hmiddle (closes_indexTarget hi)).tail husing).tail hwhere).formed
    ws hws ?_
  simp only [String.toList_append, hopening, List.append_assoc]

end Ddl

end SqlFerry
