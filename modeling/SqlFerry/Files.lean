import SqlFerry.Bytes.Utf8
import SqlFerry.Fault

/-!
# Files

Paths, and a store of files under them. A folder exists if it was made or if a file is below it.
-/

namespace SqlFerry

open Text

/-- A path by its parts, from the root or from the working directory. The root of a path that begins
with two slashes, and no more, is written with both. -/
structure Path where
  rooted : Bool := false
  doubled : Bool := false
  parts : List String := []
  deriving DecidableEq, Repr

namespace Path

def ofText (s : String) : Path :=
  let slashes := (s.toList.takeWhile (· == '/')).length
  { rooted := 0 < slashes
    doubled := slashes == 2
    parts := ((splitOn ['/'] s.toList).map String.ofList).filter fun p => p != "" && p != "." }

def toText (p : Path) : String :=
  let joined := "/".intercalate p.parts
  if p.doubled then "//" ++ joined
  else if p.rooted then "/" ++ joined
  else if joined.isEmpty then "." else joined

instance : ToString Path := ⟨toText⟩

def name (p : Path) : String :=
  p.parts.getLast?.getD ""

def parent (p : Path) : Path :=
  { p with parts := p.parts.dropLast }

def withName (p : Path) (name : String) : Path :=
  { p with parts := p.parts.dropLast ++ [name] }

def below (p : Path) (q : Path) : Path :=
  if q.rooted then q else { p with parts := p.parts ++ q.parts }

def stem (p : Path) : String :=
  let cs := p.name.toList
  let tail := (cs.reverse.takeWhile (· != '.')).length
  if tail = 0 || cs.length ≤ tail + 1 then p.name
  else String.ofList (cs.take (cs.length - tail - 1))

def leading (p : Path) : List Path :=
  (List.range p.parts.length).map fun n => { p with parts := p.parts.take n }

/-- One part further; `done` has the last part first. Two dots lead back, not beyond the root. -/
def climb (rooted : Bool) (done : List String) (part : String) : List String :=
  if part != ".." then part :: done
  else match done with
    | [] => if rooted then [] else [".."]
    | last :: rest => if last == ".." then ".." :: done else rest

def settled (p : Path) : Path :=
  { p with doubled := false, parts := (p.parts.foldl (climb p.rooted) []).reverse }

def maxNameLength : Nat :=
  255

def maxLength : Nat :=
  4095

def hasNul (p : Path) : Bool :=
  p.parts.any (·.toList.contains '\x00')

end Path

/-! ## The store -/

/-- The contents of files, under settled paths, and the folders that were made. -/
structure Files where
  contents : List (Path × Bytes.Octets) := []
  folders : List Path := []
  deriving Repr

namespace Files

open Bytes

variable (f : Files)

def at? (q : Path) : Option Octets :=
  f.contents.lookup q

def isAbove (p q : Path) : Bool :=
  p.rooted == q.rooted && p.parts.length < q.parts.length && p.parts.isPrefixOf q.parts

def hasFolder (q : Path) : Bool :=
  q.parts.all (· == "..") || f.folders.contains q || f.contents.any (isAbove q ·.1) ||
    f.folders.any (isAbove q ·)

/-- Goes along parts from a settled path, of which the last part comes first. All that is passed
must be a folder. -/
def follow (rooted : Bool) : (done parts : List String) → Except SystemTrouble (List String)
  | done, [] => .ok done
  | done, part :: rest =>
    let here : Path := { rooted, parts := done.reverse }
    if (f.at? here).isSome then .error .noFolder
    else if !f.hasFolder here then .error .missing
    else if Path.maxNameLength < part.utf8ByteSize then .error .longName
    else follow rooted (Path.climb rooted done part) rest

/-- The settled path that a path leads to, whether something is there or not. -/
def locate (p : Path) : Except SystemTrouble Path :=
  if Path.maxLength < p.toText.utf8ByteSize then .error .longName
  else (f.follow p.rooted [] p.parts).map fun done =>
    { rooted := p.rooted, parts := done.reverse }

def read? (p : Path) : Option Octets :=
  (f.locate p).toOption.bind f.at?

private def trouble (kind : SystemTrouble) (p : Path) : Fault :=
  .system kind s!"{kind.words}: {shown p.toText}"

private def nulTrouble : Fault :=
  .refused (.other "embedded null byte")

/-- What is asked of the place that a path leads to, or `nowhere` if it leads to none. A name that
is too long is trouble. -/
def ask {α : Type} (p : Path) (nowhere : α) (question : Path → α) : Except Fault α :=
  if p.hasNul then .ok nowhere
  else match f.locate p with
    | .ok q => .ok (question q)
    | .error .longName => .error (trouble .longName p)
    | .error _ => .ok nowhere

def find (p : Path) : Except Fault (Option Octets) :=
  f.ask p none f.at?

def has (p : Path) : Except Fault Bool :=
  f.ask p false fun q => (f.at? q).isSome || f.hasFolder q

def put (q : Path) (bs : Octets) : Files :=
  { f with contents := (q, bs) :: f.contents.filter (·.1 != q) }

def drop (q : Path) : Files :=
  { f with contents := f.contents.filter (·.1 != q) }

def remove (p : Path) : Except Fault Files :=
  if p.hasNul then .error nulTrouble
  else .ok (match f.locate p with
    | .ok q => f.drop q
    | .error _ => f)

/-- The paths of all files in ascending order. -/
def names : List String :=
  (f.contents.map (·.1.toText)).mergeSort fun a b => a ≤ b

def makeLast (p : Path) : Except Fault Files :=
  match f.locate p with
  | .error kind => .error (trouble kind p)
  | .ok q =>
    if f.hasFolder q then .ok f
    else if (f.at? q).isSome then .error (trouble .alreadyThere p)
    else .ok { f with folders := q :: f.folders }

def makeFolder (p : Path) : Except Fault Files :=
  if p.hasNul then .error nulTrouble else go p.parts.length p
where
  go : Nat → Path → Except Fault Files
    | 0, q => f.makeLast q
    | n + 1, q => match f.locate q with
      | .error .missing => do (← go n q.parent).makeLast q
      | _ => f.makeLast q

def write (p : Path) (bs : Octets) : Except Fault Files :=
  if p.hasNul then .error nulTrouble
  else match f.locate p with
    | .error kind => .error (trouble kind p)
    | .ok q => if f.hasFolder q then .error (trouble .isFolder p) else .ok (f.put q bs)

def move (source target : Path) : Except Fault Files :=
  let trouble (kind : SystemTrouble) : Fault :=
    .system kind s!"{kind.words}: {shown source.toText} -> {shown target.toText}"
  if source.hasNul || target.hasNul then .error nulTrouble
  else match f.locate source, f.locate target with
  | .error kind, _ | _, .error kind => .error (trouble kind)
  | .ok p, .ok q =>
    if target.name == ".." then .error (trouble .busy)
    else match f.at? p with
      | none => .error (trouble .missing)
      | some bs =>
        if f.hasFolder q then .error (trouble .isFolder) else .ok ((f.drop p).put q bs)

def nearest (p : Path) : Except Fault Path :=
  go p.parts.length p.parent
where
  go : Nat → Path → Except Fault Path
    | 0, q => .ok q
    | n + 1, q => do if ← f.has q then return q else go n q.parent

/-! ### Small lemmas -/

theorem at?_put_self (q : Path) (bs : Octets) : (f.put q bs).at? q = some bs := by
  simp [put, at?]

private theorem lookup_filter_ne (p q : Path) (h : p ≠ q) (xs : List (Path × Octets)) :
    (xs.filter (·.1 != q)).lookup p = xs.lookup p := by
  induction xs with
  | nil => rfl
  | cons x xs ih =>
    obtain ⟨r, bs⟩ := x
    by_cases hr : r = q
    · subst hr
      have : (p == r) = false := by simpa using h
      simp [List.lookup_cons, this, ih]
    · by_cases hp : p = r
      · subst hp; simp [hr]
      · have : (p == r) = false := by simpa using hp
        simp [List.lookup_cons, hr, this, ih]

theorem at?_put_other (p q : Path) (bs : Octets) (h : p ≠ q) : (f.put q bs).at? p = f.at? p := by
  have : (p == q) = false := by simpa using h
  simp [put, at?, List.lookup_cons, this, lookup_filter_ne _ _ h]

theorem at?_drop_self (q : Path) : (f.drop q).at? q = none := by
  simp only [drop, at?]
  induction f.contents with
  | nil => rfl
  | cons x xs ih =>
    by_cases hx : x.1 = q
    · simp [hx, ih]
    · have : (q == x.1) = false := by simpa using fun h => hx h.symm
      rw [List.filter_cons_of_pos (by simpa using hx), List.lookup_cons, this]
      exact ih

theorem at?_drop_other (p q : Path) (h : p ≠ q) : (f.drop q).at? p = f.at? p := by
  simp [drop, at?, lookup_filter_ne _ _ h]

theorem read?_eq_at? {p q : Path} (h : f.locate p = .ok q) : f.read? p = f.at? q := by
  simp [read?, h, Except.toOption]

section Put

variable {f} {p q : Path} {bs : Octets}

theorem hasFolder_put (h : f.hasFolder p = true) : (f.put q bs).hasFolder p = true := by
  have hcontents (habove : f.contents.any (isAbove p ·.1) = true) :
      (f.put q bs).contents.any (isAbove p ·.1) = true := by
    obtain ⟨x, hx, habove⟩ := List.any_eq_true.1 habove
    rw [put, List.any_cons, Bool.or_eq_true, List.any_eq_true]
    by_cases hq : x.1 = q
    · exact .inl (hq ▸ habove)
    · exact .inr ⟨x, List.mem_filter.2 ⟨hx, by simpa using hq⟩, habove⟩
  simp only [hasFolder, Bool.or_eq_true] at h ⊢
  rcases h with ((hback | hmade) | habove) | hbelow
  · exact .inl (.inl (.inl hback))
  · exact .inl (.inl (.inr hmade))
  · exact .inl (.inr (hcontents habove))
  · exact .inr hbelow

/-- A file that is put where no folder is stands in no way. -/
theorem follow_put {rooted : Bool} {done parts found : List String}
    (hq : f.hasFolder q = false) (h : f.follow rooted done parts = .ok found) :
    (f.put q bs).follow rooted done parts = .ok found := by
  induction parts generalizing done with
  | nil => exact h
  | cons part parts ih =>
    rw [follow] at h ⊢
    split at h
    · cases h
    · next hfile =>
      split at h
      · cases h
      · next hfolder =>
        rw [Bool.not_eq_true, Bool.not_eq_false'] at hfolder
        have hother : ({ rooted, parts := done.reverse } : Path) ≠ q := by
          rintro rfl
          rw [hq] at hfolder
          cases hfolder
        rw [at?_put_other f _ _ _ hother, if_neg hfile, hasFolder_put hfolder]
        split at h
        · cases h
        · next hlength =>
          rw [if_neg (by decide), if_neg hlength]
          exact ih h

theorem locate_put (hq : f.hasFolder q = false) (h : f.locate p = .ok q) :
    (f.put q bs).locate p = .ok q := by
  unfold locate at h ⊢
  split at h
  · cases h
  · next hlength =>
    rw [if_neg hlength]
    cases hfollow : f.follow p.rooted [] p.parts with
    | error e =>
      rw [hfollow] at h
      cases h
    | ok found =>
      rw [hfollow] at h
      rw [follow_put hq hfollow]
      exact h

/-- What was written is there. -/
theorem read?_of_write {f' : Files} (h : f.write p bs = .ok f') : f'.read? p = some bs := by
  unfold write at h
  split at h
  · cases h
  · split at h
    · cases h
    · next q hlocate =>
      split at h
      · cases h
      · next hfolder =>
        cases h
        rw [read?_eq_at? _ (locate_put (by simpa using hfolder) hlocate), at?_put_self]

end Put

end Files

end SqlFerry
