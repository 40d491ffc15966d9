import SqlFerry.Proofs.Backup.Script
import SqlFerry.Proofs.Files
import SqlFerry.Proofs.Work

/-!
# Backups that are complete or absent

A backup is written beside its destination. Whatever is written there, and wherever that ends, the
destination holds all of it or what it held before, and nothing stays beside it.
-/

namespace SqlFerry

open Work Backup

variable {place : Surroundings} {w w' : World} {d p : Path}

namespace Act

theorem result_change (f : Files → Except Fault Files) :
    (change f).result place w = match f w.files with
      | .ok files => (.ok ⟨⟩, { w with files })
      | .error e => (.error e, w) := by
  unfold change
  rw [result_bind, result_get]
  dsimp only
  rw [result_bind, result_ofOutcome]
  cases f w.files <;> rfl

theorem result_look {α : Type} (f : Files → Except Fault α) :
    (look f).result place w = (f w.files, w) := by
  unfold look
  rw [result_bind, result_get]
  exact result_ofOutcome ..

end Act

namespace Strategy

/-! ## What is written beside the destination -/

/-- A step that leaves the files as they are, or writes or removes the one at a path. -/
def Touches (p : Path) (w w' : World) : Prop :=
  w'.files = w.files ∨ (∃ bs, w.files.write p bs = .ok w'.files) ∨
    w.files.remove p = .ok w'.files

section Touches

variable {α : Type}

theorem change_touches {bs : Bytes.Octets} :
    Follows (Touches p) place (Act.change (·.write p bs)) := by
  intro w
  rw [Act.result_change]
  cases h : w.files.write p bs with
  | error e => exact .refl
  | ok files => exact .single (.inr (.inl ⟨bs, h⟩))

theorem look_touches (f : Files → Except Fault α) : Follows (Touches p) place (Act.look f) :=
  .of_still fun w => by rw [Act.result_look]

theorem on_touches {db : Database} (t : Talk α) : Follows (Touches p) place (Act.on db t) :=
  fun _ => .single (.inl rfl)

theorem report_touches (x : Progress) : Follows (Touches p) place (Act.report x) :=
  .modify fun _ => .inl rfl

theorem call_touches (c : Tool.Command) : Follows (Touches p) place (Act.call c) :=
  Follows.bind (.modify fun _ => .inl rfl) fun _ => Follows.read.bind fun _ => .ofOutcome _

end Touches

section Scripts

variable {db : Database} {dialect : Dialect} {o : BackupOptions} {s : Schema}

theorem rowsScript_touches {batchSize total done rows : Nat} {order : List Table} :
    Follows (Touches p) place (rowsScript db dialect batchSize total done rows order) := by
  induction order generalizing done rows with
  | nil => exact .pure _
  | cons t rest ih =>
    exact (on_touches _).bind fun _ => (Follows.ofOutcome _).bind fun _ =>
      (report_touches _).bind fun _ => ih.bind fun _ => .pure _

theorem contentScript_touches :
    Follows (Touches p) place (contentScript db dialect o s) :=
  .ite_bind rowsScript_touches (.pure _) fun _ =>
    .ite_bind (sequences_follows (fun _ => on_touches _) s) (.pure _) fun _ => .pure _

theorem wholeScript_touches {strategy : String} {target : Option Dialect} :
    Follows (Touches p) place (wholeScript db strategy dialect o target s) := by
  have hcontent : Follows (Touches p) place
      (Work.connected (Act.on db ∘ Talk.send) (contentScript db dialect o s)) :=
    .connected (fun _ _ => on_touches _) contentScript_touches
  exact Follows.read.bind fun _ => (Follows.ofOutcome _).bind fun _ => hcontent.bind fun _ =>
    .pure _

end Scripts

/-- Every strategy writes a backup into its own file only. -/
theorem write_touches (s : Strategy) (o : BackupOptions) :
    Follows (Touches p) place (s.write o p) := by
  cases s with
  | tools t =>
    refine Follows.read.bind fun _ => (Follows.ofOutcome _).bind fun _ =>
      (call_touches _).bind fun outcome => (Follows.ofOutcome _).bind fun _ => ?_
    refine .ite ((Follows.throw _).bind fun _ => ?_) ?_
    all_goals exact (Follows.ofOutcome _).bind fun _ => Follows.read.bind fun _ =>
      change_touches.bind fun _ => .pure _
  | script dialect =>
    have hrequire : Follows (Touches p) place (requireDatabase (.script dialect)) := by
      refine Follows.read.bind fun place => ?_
      cases place.database with
      | none => exact .throw _
      | some db => exact .pure _
    exact hrequire.bind fun _ => (Follows.ofOutcome _).bind fun _ => (on_touches _).bind fun _ =>
      change_touches.bind fun _ => wholeScript_touches.bind fun _ => change_touches.bind fun _ =>
        .pure _
  | image way =>
    refine Follows.read.bind fun _ => (Follows.ofOutcome _).bind fun _ =>
      (look_touches _).bind fun found => ?_
    cases found with
    | none => exact .throw _
    | some bs =>
      refine change_touches.bind fun _ => Follows.read.bind fun place => ?_
      split
      · exact .throw _
      · exact .pure _

/-! ## The file beside the destination -/

theorem name_partialPath (d : Path) : (partialPath d).name = d.name ++ ".partial" :=
  Path.name_withName ..

theorem parent_partialPath (d : Path) : (partialPath d).parent = d.parent :=
  Path.parent_withName ..

theorem name_partialPath_ne_empty (d : Path) : (partialPath d).name ≠ "" := by
  simp [name_partialPath]

theorem name_partialPath_ne (d : Path) : (partialPath d).name ≠ d.name := by
  rw [name_partialPath]
  intro h
  simpa using congrArg (·.toList.length) h

theorem name_partialPath_ne_back (d : Path) : (partialPath d).name ≠ ".." := by
  rw [name_partialPath]
  intro h
  have hlength := congrArg (·.toList.length) h
  simp only [String.toList_append, List.length_append] at hlength
  have hdots : "..".toList.length = 2 := rfl
  have hpartial : ".partial".toList.length = 8 := rfl
  omega

theorem hasNul_partialPath (h : d.name ≠ "") : (partialPath d).hasNul = d.hasNul :=
  Path.hasNul_withName_append h (by decide)

/-- Beside a name that is too long there is no file with a longer one. -/
theorem held?_partialPath_of_has_error {f : Files} {e : Fault} (hname : d.name ≠ "")
    (h : f.has d = .error e) : f.held? (partialPath d) = none := by
  rw [Option.eq_none_iff_forall_ne_some]
  intro bs hheld
  obtain ⟨-, hlocate, -⟩ := Files.held?_eq_some.1 hheld
  obtain ⟨htext, hlength, hreach⟩ :=
    (Files.locate_eq_ok_iff (name_partialPath_ne_empty d)).1 hlocate
  have hlocated : f.locate d = .ok d.settled := by
    refine (Files.locate_eq_ok_iff hname).2
      ⟨(Path.toText_size_le hname _).trans htext, le_trans ?_ hlength,
        (Files.reaches_congr (parent_partialPath d)).1 hreach⟩
    rw [name_partialPath, String.utf8ByteSize_append]
    omega
  unfold Files.has Files.ask at h
  rw [hlocated] at h
  split at h <;> cases h

theorem held?_eq_none_of_has {f : Files} (h : f.has d = .ok false) : f.held? d = none := by
  rw [Option.eq_none_iff_forall_ne_some]
  intro bs hheld
  obtain ⟨hnul, hlocate, hfile⟩ := Files.held?_eq_some.1 hheld
  simp [Files.has, Files.ask, hnul, hlocate, hfile] at h

theorem locate_of_has {f : Files} (h : f.has d = .ok true) : f.locate d = .ok d.settled := by
  unfold Files.has Files.ask at h
  split at h
  · cases h
  · split at h
    · next q hlocate => rw [Files.eq_settled_of_locate hlocate] at hlocate ⊢; exact hlocate
    · cases h
    · cases h

/-! ## Steps of a backup -/

section Steps

variable {writing : Path → Act Details} {moving : Moving}

theorem spares_of_touches (hname : d.name ≠ "") (h : Touches (partialPath d) w w') :
    Files.Spares d w.files w'.files := by
  rcases h with hsame | ⟨bs, hwrite⟩ | hremove
  · rw [hsame]
    exact .refl ..
  · exact .of_write (parent_partialPath d) hname (name_partialPath_ne_empty d)
      (name_partialPath_ne d) (name_partialPath_ne_back d) hwrite
  · exact .of_remove (parent_partialPath d) hname (name_partialPath_ne_empty d)
      (name_partialPath_ne d) (name_partialPath_ne_back d) hremove

/-- An attempt that fails leaves the destination alone. -/
theorem spares_of_writeAside (hname : d.name ≠ "") {e : Fault}
    (hwriting : Follows (Touches (partialPath d)) place (writing (partialPath d)))
    (h : (writeAside writing d moving).result place w = (.error e, w')) :
    Files.Spares d w.files w'.files := by
  unfold writeAside at h
  rw [result_bind, Act.result_change] at h
  cases hfolder : w.files.makeFolder d.parent with
  | error e' =>
    rw [hfolder] at h
    cases h
    exact .refl ..
  | ok files =>
    rw [hfolder] at h
    dsimp only at h
    have hwritten := hwriting.keeps (I := fun w' => Files.Spares d files w'.files)
      (fun _ _ hstep hspares => hspares.trans (spares_of_touches hname hstep))
      (s := { w with files }) (.refl ..)
    refine (Files.Spares.of_grows (Files.grows_of_makeFolder hfolder)).trans ?_
    rw [result_bind] at h
    cases hr : (writing (partialPath d)).result place { w with files } with
    | mk r written =>
      rw [hr] at h hwritten
      cases r with
      | error e' =>
        cases h
        exact hwritten
      | ok details =>
        dsimp only at h
        rw [result_bind, Act.result_change] at h
        cases hmove : moving written.files (partialPath d) d with
        | error e' =>
          rw [hmove] at h
          cases h
          exact hwritten
        | ok files' =>
          rw [hmove] at h
          cases h

/-- An attempt that succeeds makes the folder, writes the file beside the destination, and moves it
there. -/
theorem exists_of_writeAside {details : Details}
    (h : (writeAside writing d moving).result place w = (.ok details, w')) :
    ∃ files written, w.files.makeFolder d.parent = .ok files ∧
      (writing (partialPath d)).result place { w with files } = (.ok details, written) ∧
      moving written.files (partialPath d) d = .ok w'.files := by
  obtain ⟨_, _, hmade, h⟩ := exists_of_result_bind_eq_ok h
  obtain ⟨files, hfolder, rfl⟩ := Act.exists_of_change_eq_ok hmade
  obtain ⟨details', written, hwritten, h⟩ := exists_of_result_bind_eq_ok h
  obtain ⟨_, _, hmoved, h⟩ := exists_of_result_bind_eq_ok h
  obtain ⟨files', hmove, rfl⟩ := Act.exists_of_change_eq_ok hmoved
  cases h
  exact ⟨files, written, hfolder, hwritten, hmove⟩

/-- After the cleaning there is no file beside the destination, and none there either unless it was
there before. -/
theorem result_cleanUp (place : Surroundings) (w : World) (hname : d.name ≠ "") (existed : Bool) :
    ∃ r after, (cleanUp d existed).result place w = (r, after) ∧
      after.files.held? (partialPath d) = none ∧
      (existed = true → Files.Spares d w.files after.files) ∧
      (existed = false → after.files.held? d = none) := by
  unfold cleanUp
  rw [result_bind, Act.result_change]
  cases hremove : w.files.remove (partialPath d) with
  | error e =>
    have hnul : (partialPath d).hasNul = true := Files.hasNul_of_remove hremove
    exact ⟨_, _, rfl, Files.held?_of_hasNul hnul, fun _ => .refl ..,
      fun _ => Files.held?_of_hasNul (by rwa [← hasNul_partialPath hname])⟩
  | ok files =>
    have hgone := Files.held?_of_remove hremove
    cases existed with
    | true =>
      have hspares : Files.Spares d w.files ({ w with files } : World).files :=
        spares_of_touches hname (.inr (.inr hremove))
      exact ⟨_, _, rfl, hgone, fun _ => hspares, by simp⟩
    | false =>
      change ∃ r after, (Act.change (·.remove d)).result place { w with files } = (r, after) ∧ _
      rw [Act.result_change]
      cases hdestination : files.remove d with
      | error e =>
        exact ⟨_, _, rfl, hgone, by simp, fun _ =>
          Files.held?_of_hasNul (Files.hasNul_of_remove hdestination)⟩
      | ok files' =>
        exact ⟨_, _, rfl, Files.held?_eq_none_of_remove (parent_partialPath d) hname
          (name_partialPath_ne_empty d) hgone hdestination, by simp, fun _ =>
          Files.held?_of_remove hdestination⟩

theorem exists_cleanUp_eq_ok (place : Surroundings) (w : World) (hname : d.name ≠ "")
    (hnul : d.hasNul = false) (existed : Bool) :
    ∃ after, (cleanUp d existed).result place w = (.ok ⟨⟩, after) := by
  have hpartial : (partialPath d).hasNul = false := by rwa [hasNul_partialPath hname]
  obtain ⟨files, hremove⟩ := Files.exists_remove_eq_ok (f := w.files) hpartial
  obtain ⟨files', hremove'⟩ := Files.exists_remove_eq_ok (f := files) hnul
  unfold cleanUp
  rw [result_bind, Act.result_change, hremove]
  cases existed with
  | true => exact ⟨_, rfl⟩
  | false =>
    change ∃ after, (Act.change (·.remove d)).result place { w with files } = _
    rw [Act.result_change, hremove']
    exact ⟨_, rfl⟩

variable (s : Strategy) {existed : Bool}

theorem createBy_of_ok {details : Details} (hname : d.name ≠ "")
    (hhas : w.files.has d = .ok existed)
    (h : (writeAside writing d moving).result place w = (.ok details, w')) :
    ∃ result, (s.createBy writing d moving).result place w = (.ok result, w') ∧
      result.success = true := by
  unfold createBy
  rw [if_neg (by simpa using hname), result_bind, Act.result_look, hhas]
  dsimp only
  rw [result_bind, result_outcome, h]
  exact ⟨_, rfl, rfl⟩

theorem createBy_of_error {e : Fault} (hname : d.name ≠ "") (hhas : w.files.has d = .ok existed)
    (h : (writeAside writing d moving).result place w = (.error e, w')) :
    ∃ r, (s.createBy writing d moving).result place w =
        (r, ((cleanUp d existed).result place w').2) ∧
      ∀ result, r = .ok result → result.success = false := by
  unfold createBy
  rw [if_neg (by simpa using hname), result_bind, Act.result_look, hhas]
  dsimp only
  rw [result_bind, result_outcome, h]
  dsimp only
  rw [result_bind]
  cases (cleanUp d existed).result place w' with
  | mk cleaned after =>
    cases cleaned with
    | error e' => exact ⟨_, rfl, by rintro _ ⟨⟩⟩
    | ok _ =>
      dsimp only
      rw [result_bind, result_ofOutcome]
      cases e.asFailure fun text => .backupFailed d.toText text s.context with
      | error e' => exact ⟨_, rfl, by rintro _ ⟨⟩⟩
      | ok failure => exact ⟨_, rfl, by rintro _ ⟨⟩; rfl⟩

/-- A backup is complete or absent, whatever is written and wherever that ends: nothing stays beside
the destination, and the destination holds all that was written if the backup succeeds, else what
it held before. What is written stands beside the destination until it is moved there. A path holds
what it leads to at the time, and nothing if it leads through a folder that is yet to be made. -/
theorem complete_or_unchanged
    (hwriting : Follows (Touches (partialPath d)) place (writing (partialPath d)))
    (hmoving : ∀ f f', moving f (partialPath d) d = .ok f' → f.move (partialPath d) d = .ok f') :
    ∃ r after, (s.createBy writing d moving).result place w = (r, after) ∧
      (d.name ≠ "" → after.files.held? (partialPath d) = none) ∧
      ((∃ result files details written bs, r = .ok result ∧ result.success = true ∧
          w.files.makeFolder d.parent = .ok files ∧
          (writing (partialPath d)).result place { w with files } = (.ok details, written) ∧
          written.files.held? (partialPath d) = some bs ∧ after.files.held? d = some bs) ∨
        (∀ result, r = .ok result → result.success = false) ∧
          after.files.held? d = w.files.held? d) := by
  by_cases hname : d.name = ""
  · refine ⟨.error (.refused (.nameless d.toText)), w, ?_, absurd hname, .inr ⟨by simp, rfl⟩⟩
    unfold createBy
    rw [if_pos (by simpa using hname)]
    rfl
  · cases hhas : w.files.has d with
    | error e =>
      refine ⟨.error e, w, ?_, fun _ => held?_partialPath_of_has_error hname hhas,
        .inr ⟨by simp, rfl⟩⟩
      unfold createBy
      rw [if_neg (by simpa using hname), result_bind, Act.result_look, hhas]
    | ok existed =>
      cases hattempt : (writeAside writing d moving).result place w with
      | mk attempt w' =>
        cases attempt with
        | ok details =>
          obtain ⟨result, hresult, hsuccess⟩ := createBy_of_ok s hname hhas hattempt
          obtain ⟨files, written, hfolder, hwritten, hmove⟩ := exists_of_writeAside hattempt
          obtain ⟨bs, hbeside, hthere, hgone⟩ := Files.held?_of_move (parent_partialPath d) hname
            (name_partialPath_ne_empty d) (name_partialPath_ne d) (name_partialPath_ne_back d)
            (hmoving _ _ hmove)
          exact ⟨_, _, hresult, fun _ => hgone, .inl ⟨result, files, details, written, bs, rfl,
            hsuccess, hfolder, hwritten, hbeside, hthere⟩⟩
        | error e =>
          obtain ⟨r, hresult, hfailed⟩ := createBy_of_error s hname hhas hattempt
          obtain ⟨cleaned, after, hcleanUp, hgone, hspares, habsent⟩ :=
            result_cleanUp place w' hname existed
          rw [hcleanUp] at hresult
          refine ⟨r, after, hresult, fun _ => hgone, .inr ⟨hfailed, ?_⟩⟩
          -- A file that was there is spared by the attempt and by the cleaning up; one that was not
          -- is removed.
          cases existed with
          | true =>
            have hlast := (spares_of_writeAside hname hwriting hattempt).trans (hspares rfl)
            exact hlast.held?_eq hname (locate_of_has hhas)
          | false => rw [habsent rfl, held?_eq_none_of_has hhas]

end Steps

def doubting : Surroundings :=
  { around (keeping "t") with
    connection := { dialect := .sqlite, database := some "a.db" }
    imageTrouble := fun _ => some "malformed" }

def backedUp : World where
  files := { contents := [({ parts := ["a.db"] }, [1]), ({ parts := ["b.db"] }, [2])] }

theorem malformed_image_unchanged : ∃ r after,
    ((image .native).create { parts := ["b.db"] } {}).result doubting backedUp = (r, after) ∧
      after.files.held? { parts := ["b.db.partial"] } = none ∧
      after.files.held? { parts := ["b.db"] } = some [2] := by
  obtain ⟨r, after, hresult, hgone, hend⟩ := @complete_or_unchanged doubting backedUp
    { parts := ["b.db"] } _ Files.move (image .native) (write_touches (image .native) {})
    fun _ _ hmove => hmove
  refine ⟨r, after, hresult, hgone (by decide), ?_⟩
  rcases hend with ⟨_, files, details, written, bs, -, -, hfolder, hwritten, -⟩ | ⟨-, hunchanged⟩
  · cases hfolder
    cases hwritten
  · rw [hunchanged]
    rfl

end Strategy

end SqlFerry
