import Mathlib.Data.List.Nodup
import Mathlib.Data.List.Perm.Basic
import Mathlib.Data.List.Perm.Subperm
import Mathlib.Logic.Relation
import SqlFerry.Ddl.Printer

/-!
# The order in which tables can be created

The depth-first visit of a schema leaves every table once, and behind the tables it refers to, but
for those that lead back to it through foreign keys. What carries the induction is that the tables
under way all lead to the one that is visited next. The tables are dropped in the reverse order.
-/

namespace SqlFerry

open Relation

/-- Whether the first table has a foreign key to the second. -/
def Table.RefersTo (t u : Table) : Prop :=
  ∃ fk ∈ t.foreignKeys, fk.referencedTable = some u.name

namespace Schema

variable (s : Schema)

def Reaches : Table → Table → Prop :=
  TransGen fun t u => t ∈ s.tables ∧ u ∈ s.tables ∧ t.RefersTo u

/-- Whether the tables have different names and no constraint lacks what its kind needs. -/
structure IsWhole : Prop where
  distinct : s.names.Nodup
  constraints : ∀ t ∈ s.tables, ∀ c ∈ t.constraints, c.lack? = none

def needs (name : String) : List String :=
  (((s.named? name).map Table.dependencies).getD []).filter (s.named? · |>.isSome)

def LeadsTo : String → String → Prop :=
  TransGen fun a b => b ∈ s.needs a

end Schema

/-! ## Names of tables -/

section Names

variable {s : Schema} {t u : Table} {a b : String} {names : List String}

theorem Table.mem_insertName : a ∈ Table.insertName b names ↔ a = b ∨ a ∈ names := by
  induction names with
  | nil => simp [Table.insertName]
  | cons x names ih =>
    unfold Table.insertName
    split
    · simp
    · split
      · next heq =>
        rw [beq_iff_eq.1 heq]
        simp
      · simp only [List.mem_cons, ih]
        exact or_left_comm

/-- What is in the result of a fold of which each step adds what holds of one entry. -/
theorem mem_foldl_of_step {β : Type} {f : List String → β → List String} {P : β → Prop}
    (step : ∀ names b, a ∈ f names b ↔ a ∈ names ∨ P b) (bs : List β) (names : List String) :
    a ∈ bs.foldl f names ↔ a ∈ names ∨ ∃ b ∈ bs, P b := by
  induction bs generalizing names with
  | nil => simp
  | cons b bs ih => rw [List.foldl_cons, ih, step, or_assoc, List.exists_mem_cons_iff]

theorem Table.mem_dependencies : a ∈ t.dependencies ↔
    ∃ fk ∈ t.foreignKeys, fk.referencedTable = some a ∧ a ≠ "" ∧ a ≠ t.name := by
  refine (mem_foldl_of_step (P := fun fk : Constraint =>
    fk.referencedTable = some a ∧ a ≠ "" ∧ a ≠ t.name) (fun names fk => ?_) t.foreignKeys []).trans
      (by simp)
  cases fk.referencedTable with
  | none => simp
  | some r =>
    dsimp only
    split
    · next hskip =>
      rw [Bool.or_eq_true, String.isEmpty_iff, beq_iff_eq] at hskip
      refine ⟨.inl, fun h => h.resolve_right ?_⟩
      rintro ⟨⟨⟩, hne, hother⟩
      exact hskip.elim hne hother
    · next hkeep =>
      rw [Bool.or_eq_true, String.isEmpty_iff, beq_iff_eq, not_or] at hkeep
      rw [Table.mem_insertName, or_comm, Option.some.injEq]
      refine or_congr_right ⟨?_, fun h => h.1.symm⟩
      rintro rfl
      exact ⟨rfl, hkeep⟩

theorem Schema.isSome_named? : (s.named? a).isSome = true ↔ a ∈ s.names := by
  simp [Schema.named?, Schema.names, List.find?_isSome]

theorem Schema.name_of_named? (h : s.named? a = some t) : t ∈ s.tables ∧ t.name = a :=
  ⟨List.mem_of_find?_eq_some h, by simpa using List.find?_some h⟩

theorem Schema.mem_of_table? (h : s.table? a = some t) : t ∈ s.tables := by
  unfold Schema.table? at h
  split at h
  · next hnamed =>
    cases h
    exact (Schema.name_of_named? hnamed).1
  · exact List.mem_of_find?_eq_some h

theorem Schema.named?_of_table? (h : s.table? a = none) : s.named? a = none := by
  unfold Schema.table? at h
  split at h
  · cases h
  · next hnone => exact hnone

theorem Schema.mem_names_of_mem_needs (h : b ∈ s.needs a) : b ∈ s.names :=
  Schema.isSome_named?.1 (List.mem_filter.1 h).2

theorem Schema.named?_name_of_nodup (h : s.names.Nodup) (ht : t ∈ s.tables) :
    s.named? t.name = some t := by
  obtain ⟨u, hu⟩ := Option.isSome_iff_exists.1
    (Schema.isSome_named?.2 (List.mem_map_of_mem (f := Table.name) ht))
  obtain ⟨hmem, hname⟩ := Schema.name_of_named? hu
  rw [hu, List.inj_on_of_nodup_map h hmem ht hname]

theorem Schema.table?_name_of_nodup (h : s.names.Nodup) (ht : t ∈ s.tables) :
    s.table? t.name = some t := by
  unfold Schema.table?
  rw [Schema.named?_name_of_nodup h ht]

namespace Schema.IsWhole

variable (h : s.IsWhole)

include h

theorem named?_name (ht : t ∈ s.tables) : s.named? t.name = some t :=
  Schema.named?_name_of_nodup h.distinct ht

theorem mem_needs (ht : t ∈ s.tables) (hu : u ∈ s.tables) (hne : u ≠ t) (href : t.RefersTo u) :
    u.name ∈ s.needs t.name := by
  obtain ⟨fk, hfk, hname⟩ := href
  have hwhole := h.constraints t ht fk (List.mem_filter.1 hfk).1
  have hkind : fk.kind = .foreignKey := by simpa using (List.mem_filter.1 hfk).2
  refine List.mem_filter.2 ⟨?_, ?_⟩
  · rw [h.named?_name ht, Option.map_some, Option.getD_some, Table.mem_dependencies]
    refine ⟨fk, hfk, hname, ?_, fun heq => hne (List.inj_on_of_nodup_map h.distinct hu ht heq)⟩
    intro hempty
    simp [Constraint.lack?, hkind, hname, hempty, given] at hwhole
  · rw [h.named?_name hu, Option.isSome_some]

/-- A dependency comes from a foreign key. -/
theorem refers_of_mem_needs (ht : t ∈ s.tables) (hneeds : u.name ∈ s.needs t.name) :
    t.RefersTo u := by
  have hdep := (List.mem_filter.1 hneeds).1
  rw [h.named?_name ht, Option.map_some, Option.getD_some, Table.mem_dependencies] at hdep
  obtain ⟨fk, hfk, hname, -⟩ := hdep
  exact ⟨fk, hfk, hname⟩

theorem reaches_of_leadsTo (ht : t ∈ s.tables) (hu : u ∈ s.tables)
    (hleads : s.LeadsTo t.name u.name) : s.Reaches t u := by
  have reaches {b : String} (hleads : s.LeadsTo t.name b) :
      ∀ u ∈ s.tables, u.name = b → s.Reaches t u := by
    induction hleads with
    | single hneeds =>
      rintro u hu rfl
      exact .single ⟨ht, hu, h.refers_of_mem_needs ht hneeds⟩
    | @tail c d hleads hneeds ih =>
      rintro u hu rfl
      -- what depends on something is the name of a table
      obtain ⟨w, hw, rfl⟩ : ∃ w ∈ s.tables, w.name = c := by
        cases hnamed : s.named? c with
        | none => simp [Schema.needs, hnamed] at hneeds
        | some w => exact ⟨w, Schema.name_of_named? hnamed⟩
      exact .tail (ih w hw rfl) ⟨hw, hu, h.refers_of_mem_needs hw hneeds⟩
  exact reaches hleads u hu rfl

end Schema.IsWhole

end Names

/-! ## One visit -/

namespace Schema

variable {s : Schema} {v v' v'' : Visit} {n : Nat} {name : String} {names : List String}

theorem visit_succ (s : Schema) (n : Nat) (v : Visit) (name : String) : s.visit (n + 1) v name =
    if name ∈ v.done ∨ name ∈ v.underWay then v else
      let v' := (s.needs name).foldl (s.visit n) { v with underWay := name :: v.underWay }
      { done := v'.done ++ [name], underWay := v'.underWay.erase name } := by
  simp only [visit, Bool.or_eq_true, List.contains_iff_mem]
  rfl

/-- What holds of the names done at any time. -/
structure Visit.Sound (s : Schema) (v : Visit) : Prop where
  known : ∀ x ∈ v.done, x ∈ s.names
  nodup : v.done.Nodup
  apart : ∀ x ∈ v.done, x ∉ v.underWay
  ordered : ∀ x ∈ v.done, ∀ y ∈ s.needs x, [y, x].Sublist v.done ∨ s.LeadsTo y x

/-- Whether the names can be visited with this fuel: the tables under way lead to each of them. -/
structure Visit.Ready (s : Schema) (n : Nat) (v : Visit) (names : List String) : Prop where
  sound : v.Sound s
  known : ∀ x ∈ v.underWay, x ∈ s.names
  nodup : v.underWay.Nodup
  fuel : s.tables.length < n + v.underWay.length
  targets : ∀ x ∈ names, x ∈ s.names
  leads : ∀ x ∈ names, ∀ u ∈ v.underWay, s.LeadsTo u x

/-- What a visit of the names leaves. -/
structure Visit.Covers (s : Schema) (v : Visit) (names : List String) (v' : Visit) : Prop where
  sound : v'.Sound s
  grows : v.done <+: v'.done
  underWay : v'.underWay = v.underWay
  covers : ∀ x ∈ names, x ∈ v'.done ∨ x ∈ v.underWay

namespace Visit

theorem Ready.of_subset {more : List String} (h : v.Ready s n names) (hmore : more ⊆ names) :
    v.Ready s n more :=
  { h with
    targets := fun x hx => h.targets x (hmore hx), leads := fun x hx => h.leads x (hmore hx) }

theorem Ready.of_covers {more : List String} (h : v.Ready s n names) (hv : v.Covers s more v') :
    v'.Ready s n names where
  sound := hv.sound
  known := hv.underWay ▸ h.known
  nodup := hv.underWay ▸ h.nodup
  fuel := hv.underWay ▸ h.fuel
  targets := h.targets
  leads := hv.underWay ▸ h.leads

theorem Covers.cons (h : v.Covers s [name] v') (h' : v'.Covers s names v'') :
    v.Covers s (name :: names) v'' where
  sound := h'.sound
  grows := h.grows.trans h'.grows
  underWay := h'.underWay.trans h.underWay
  covers := by
    intro x hx
    rcases List.mem_cons.1 hx with rfl | hx
    · exact (h.covers x (by simp)).imp_left fun hdone => h'.grows.subset hdone
    · exact h.underWay ▸ h'.covers x hx

theorem covers_foldl {f : Visit → String → Visit}
    (hf : ∀ (v : Visit) (name : String), v.Ready s n [name] → v.Covers s [name] (f v name))
    (h : v.Ready s n names) :
    v.Covers s names (names.foldl f v) := by
  induction names generalizing v with
  | nil => exact ⟨h.sound, List.prefix_refl _, rfl, by simp⟩
  | cons name names ih =>
    have hfirst := hf v name (h.of_subset (by simp))
    exact hfirst.cons (ih ((h.of_subset (List.subset_cons_self _ _)).of_covers hfirst))

/-- A table is entered. -/
theorem Ready.enter (h : v.Ready s (n + 1) [name]) (hdone : name ∉ v.done)
    (hway : name ∉ v.underWay) :
    Ready s n { v with underWay := name :: v.underWay } (s.needs name) where
  sound := {
    h.sound with
    apart := fun x hx hmem => (List.mem_cons.1 hmem).elim (fun heq => hdone (heq ▸ hx))
      (h.sound.apart x hx) }
  known := by
    rw [List.forall_mem_cons]
    exact ⟨h.targets name (by simp), h.known⟩
  nodup := List.nodup_cons.2 ⟨hway, h.nodup⟩
  fuel := by
    have hfuel := h.fuel
    rw [List.length_cons]
    omega
  targets := fun x hx => mem_names_of_mem_needs hx
  leads := by
    intro x hx u hu
    rcases List.mem_cons.1 hu with rfl | hu
    · exact .single hx
    · exact .tail (h.leads name (by simp) u hu) hx

/-- A table is left: what it depends on is done, or under way and so leads to it. -/
theorem Covers.leave (h : v.Ready s (n + 1) [name]) (hway : name ∉ v.underWay)
    (hv : Covers s { v with underWay := name :: v.underWay } (s.needs name) v') :
    v.Covers s [name] { done := v'.done ++ [name], underWay := v'.underWay.erase name } where
  sound := {
    known := by
      intro x hx
      rcases List.mem_append.1 hx with hx | hx
      · exact hv.sound.known x hx
      · exact h.targets x hx
    nodup := by
      have hnew : name ∉ v'.done := fun hmem =>
        hv.sound.apart name hmem (hv.underWay ▸ List.mem_cons_self)
      simpa [List.nodup_append] using ⟨hv.sound.nodup, fun x hx heq => hnew (heq ▸ hx)⟩
    apart := by
      intro x hx
      rw [hv.underWay, List.erase_cons_head]
      rcases List.mem_append.1 hx with hx | hx
      · exact fun hmem => hv.sound.apart x hx (hv.underWay ▸ List.mem_cons_of_mem _ hmem)
      · rwa [List.mem_singleton.1 hx]
    ordered := by
      intro x hx y hy
      rcases List.mem_append.1 hx with hx | hx
      · exact (hv.sound.ordered x hx y hy).imp_left
          fun hsub => hsub.trans (List.sublist_append_left _ _)
      · obtain rfl := List.mem_singleton.1 hx
        rcases hv.covers y hy with hdone | hunder
        · exact .inl ((List.singleton_sublist.2 hdone).append (List.Sublist.refl [x]))
        · rcases List.mem_cons.1 hunder with rfl | hunder
          · exact .inr (.single hy)
          · exact .inr (h.leads x (by simp) y hunder) }
  grows := hv.grows.trans (List.prefix_append _ _)
  underWay := by
    rw [hv.underWay]
    exact List.erase_cons_head _ _
  covers := by simp

end Visit

/-- A visit leaves the table done, unless it is under way. -/
theorem visit_covers (h : v.Ready s n [name]) : v.Covers s [name] (s.visit n v name) := by
  induction n generalizing v name with
  | zero =>
    -- there are not more tables under way than tables
    have hsub := h.nodup.subperm (fun x hx => h.known x hx : v.underWay ⊆ s.names)
    have hlength := hsub.length_le
    rw [names, List.length_map] at hlength
    have hfuel := h.fuel
    omega
  | succ n ih =>
    rw [visit_succ]
    split
    · next hskip => exact ⟨h.sound, List.prefix_refl _, rfl, by simpa using hskip⟩
    · next hnew =>
      obtain ⟨hdone, hway⟩ := not_or.1 hnew
      exact Visit.Covers.leave h hway (Visit.covers_foldl (fun _ _ => ih) (h.enter hdone hway))

/-! ## All tables -/

def orderedNames (s : Schema) : List String :=
  (s.names.foldl (s.visit (s.tables.length + 1)) {}).done

theorem createOrder_eq (s : Schema) : s.createOrder = s.orderedNames.filterMap s.named? := rfl

theorem mem_tables_of_mem_createOrder {t : Table} (h : t ∈ s.createOrder) : t ∈ s.tables := by
  rw [createOrder_eq, List.mem_filterMap] at h
  obtain ⟨name, -, hnamed⟩ := h
  exact (name_of_named? hnamed).1

theorem orderedNames_covers (s : Schema) : Visit.Sound s { done := s.orderedNames } ∧
    ∀ x ∈ s.names, x ∈ s.orderedNames := by
  have hready : Visit.Ready s (s.tables.length + 1) {} s.names := by
    refine ⟨⟨?_, List.nodup_nil, ?_, ?_⟩, ?_, List.nodup_nil, ?_, fun x hx => hx, ?_⟩ <;> simp
  have hcovers := Visit.covers_foldl (fun _ _ => visit_covers) hready
  refine ⟨⟨hcovers.sound.known, hcovers.sound.nodup, by simp, hcovers.sound.ordered⟩,
    fun x hx => ?_⟩
  exact (hcovers.covers x hx).resolve_right (by simp)

section Distinct

variable (h : s.names.Nodup)
include h

theorem mem_createOrder : t ∈ s.createOrder ↔ t ∈ s.tables := by
  refine ⟨mem_tables_of_mem_createOrder, fun ht => ?_⟩
  rw [createOrder_eq, List.mem_filterMap]
  exact ⟨t.name, (orderedNames_covers s).2 _ (List.mem_map_of_mem ht),
    named?_name_of_nodup h ht⟩

theorem createOrder_perm : s.createOrder.Perm s.tables := by
  have hsound := (orderedNames_covers s).1
  have hnodup : s.createOrder.Nodup := by
    rw [createOrder_eq]
    refine hsound.nodup.filterMap fun a b t ha hb => ?_
    rw [← (name_of_named? ha).2, (name_of_named? hb).2]
  exact (List.perm_ext_iff_of_nodup hnodup h.of_map).2 fun t => mem_createOrder h

end Distinct

namespace IsWhole

variable {t u : Table} (h : s.IsWhole)

include h

theorem sublist_createOrder (ht : t ∈ s.tables) (hu : u ∈ s.tables) (href : t.RefersTo u)
    (hreach : ¬s.Reaches u t) : [u, t].Sublist s.createOrder := by
  obtain ⟨hsound, hall⟩ := orderedNames_covers s
  have hne : u ≠ t := by
    rintro rfl
    exact hreach (.single ⟨hu, hu, href⟩)
  have hnames := (hsound.ordered t.name (hall _ (List.mem_map_of_mem ht)) u.name
    (h.mem_needs ht hu hne href)).resolve_right fun hleads =>
      hreach (h.reaches_of_leadsTo hu ht hleads)
  have htables := hnames.filterMap s.named?
  rwa [List.filterMap_cons_some (h.named?_name hu), List.filterMap_cons_some (h.named?_name ht),
    List.filterMap_nil] at htables

end IsWhole

end Schema

/-- With drops, a schema is written as without them behind the drops of its tables, the last table
of its order first. -/
theorem Ddl.write_drops (d : Dialect) (s : Schema) (parts : Ddl.Parts) :
    Ddl.write d s { parts with drops := true } =
      (Ddl.write d s { parts with drops := false }).map
        (s.createOrder.reverse.map (fun t => Ddl.dropTable d t.name) ++ ·) := by
  unfold Ddl.write
  dsimp only
  cases s.createOrder.mapM (Ddl.createTable d · (d == .sqlite && parts.foreignKeys)) with
  | error e => rfl
  | ok tables =>
    simp only [bind, Except.bind, pure, Except.pure, Except.map, if_true, Bool.false_eq_true,
      if_false,
      List.nil_append, List.append_assoc]

namespace Schema

/-- The order in which tables are created has every table of the schema once. A table stands behind
every table that it refers to, unless that one leads back to it through foreign keys; where foreign
keys make no cycle, it stands behind all of them. The tables are dropped in the reverse order, so
that a table is dropped before those that it refers to. -/
theorem createOrder_topological (s : Schema) (h : s.IsWhole) :
    s.createOrder.Perm s.tables ∧
      (∀ t ∈ s.tables, ∀ u ∈ s.tables, t.RefersTo u → ¬s.Reaches u t →
        [u, t].Sublist s.createOrder) ∧
      ((∀ t, ¬s.Reaches t t) → ∀ t ∈ s.tables, ∀ u ∈ s.tables, t.RefersTo u →
        [u, t].Sublist s.createOrder) ∧
      ∀ (d : Dialect) (parts : Ddl.Parts), ∃ drops : List Table, drops.Perm s.tables ∧
        Ddl.write d s { parts with drops := true } =
          (Ddl.write d s { parts with drops := false }).map
            (drops.map (fun t => Ddl.dropTable d t.name) ++ ·) ∧
        (∀ t ∈ s.tables, ∀ u ∈ s.tables, t.RefersTo u → ¬s.Reaches u t → [t, u].Sublist drops) ∧
        ((∀ t, ¬s.Reaches t t) → ∀ t ∈ s.tables, ∀ u ∈ s.tables, t.RefersTo u →
          [t, u].Sublist drops) := by
  have before (t : Table) (ht : t ∈ s.tables) (u : Table) (hu : u ∈ s.tables)
      (href : t.RefersTo u) (hreach : ¬s.Reaches u t) : [u, t].Sublist s.createOrder :=
    h.sublist_createOrder ht hu href hreach
  have acyclic (hacyclic : ∀ t, ¬s.Reaches t t) (t : Table) (ht : t ∈ s.tables) (u : Table)
      (hu : u ∈ s.tables) (href : t.RefersTo u) : [u, t].Sublist s.createOrder :=
    before t ht u hu href fun hreach => hacyclic t (.head ⟨ht, hu, href⟩ hreach)
  refine ⟨createOrder_perm h.distinct, before, acyclic, fun d parts => ⟨s.createOrder.reverse,
    (List.reverse_perm _).trans (createOrder_perm h.distinct), Ddl.write_drops d s parts,
    fun t ht u hu href hreach => ?_, fun hacyclic t ht u hu href => ?_⟩⟩
  · exact (before t ht u hu href hreach).reverse
  · exact (acyclic hacyclic t ht u hu href).reverse

/-- A table behind a cycle, with a key to itself and one to a table that is not there. -/
theorem createOrder_of_cycle :
    let key (name : String) : Constraint := { kind := .foreignKey, referencedTable := some name }
    let a : Table := { name := "a", constraints := [key "b"] }
    let b : Table := { name := "b", constraints := [key "a"] }
    let c : Table := { name := "c", constraints := [key "a", key "c", key "d"] }
    let s : Schema := { tables := [c, a, b] }
    s.IsWhole ∧ c.RefersTo a ∧ ¬s.Reaches a c ∧ s.createOrder.Perm [c, a, b] ∧
      [a, c].Sublist s.createOrder := by
  intro key a b c s
  have hwhole : s.IsWhole := ⟨by decide, by decide⟩
  have hrefers : c.RefersTo a := ⟨key "a", by decide, rfl⟩
  have hname (x : Table) (hx : s.Reaches a x) : x.name = "a" ∨ x.name = "b" := by
    have next (w x : Table) (hw : w = a ∨ w = b) (href : w.RefersTo x) :
        x.name = "a" ∨ x.name = "b" := by
      obtain ⟨fk, hfk, hto⟩ := href
      rcases hw with rfl | rfl
      · obtain rfl : fk = key "b" := by simpa [Table.foreignKeys, a, key] using hfk
        exact .inr (Option.some.inj hto).symm
      · obtain rfl : fk = key "a" := by simpa [Table.foreignKeys, b, key] using hfk
        exact .inl (Option.some.inj hto).symm
    induction hx with
    | single h => exact next a _ (.inl rfl) h.2.2
    | @tail w x _ h ih =>
      refine next w x ?_ h.2.2
      have hw : w = c ∨ w = a ∨ w = b := by simpa [s] using h.1
      rcases hw with rfl | hw
      · exact absurd ih (by decide)
      · exact hw
  have hreach : ¬s.Reaches a c := fun h => absurd (hname c h) (by decide)
  obtain ⟨hperm, hbefore, -⟩ := createOrder_topological s hwhole
  exact ⟨hwhole, hrefers, hreach, hperm, hbefore c (by decide) a (by decide) hrefers hreach⟩

end Schema

end SqlFerry
