import Vimgen.Proofs.FileTree

/-!
# Saved files stay where they are

What was saved at a path is read from it, whatever is saved next to it afterwards. Nothing is assumed
of the tree or of the path here: two dots in a path, or a file above a directory, do not matter.

* `Keeps`: a tree has all the directories of another one. Paths then lead where they led before.
* `blocked?`: why a file cannot be written in a directory that is there. Two trees with the same
  directories agree on it.
* `stored_of_save`: **a file that was saved is there**, and so is its directory.
* `Stored.save_beside`: it stays there when another file of that directory is saved.
-/

namespace Vimgen.Files.Tree

variable {t t' t'' : Tree} {p p' : Path} {place q : Place} {bytes bytes' : List UInt8}
  {failed : Option OsError}

/-! ## Trees that keep their directories -/

/-- The second tree has the directories of the first. -/
structure Keeps (t t' : Tree) : Prop where
  here : t'.here = t.here
  directory : ∀ q, t.get? q = some .directory → t'.get? q = some .directory

theorem Keeps.refl (t : Tree) : Keeps t t := ⟨rfl, fun _ h => h⟩

theorem keeps_put (hfree : t.get? place ≠ some .directory) (entry : Entry) :
    Keeps t (t.put place entry) := by
  refine ⟨rfl, fun q hq => ?_⟩
  rw [get?_put_of_ne (by rintro rfl; exact hfree hq)]
  exact hq

/-- A file adds no directory. -/
theorem keeps_of_put_file (hfree : t.get? place ≠ some .directory) (bytes : List UInt8) :
    Keeps (t.put place (.file bytes)) t := by
  refine ⟨rfl, fun q hq => ?_⟩
  have hne : q ≠ place := by
    rintro rfl
    rw [get?_put_self (by rintro rfl; exact hfree rfl)] at hq
    cases hq
  rwa [get?_put_of_ne hne] at hq

/-- **A walk through directories goes where it went before.** -/
theorem Keeps.walk (h : Keeps t t') {parts : List String} (hwalk : t.walk place parts = .ok q) :
    t'.walk place parts = .ok q := by
  induction parts generalizing place with
  | nil => exact hwalk
  | cons part rest ih =>
    -- a walk that arrives has found a directory at every step
    have hdir : t.get? place = some .directory := by
      rw [Tree.walk] at hwalk
      cases hplace : t.get? place with
      | none => rw [hplace] at hwalk; cases hwalk
      | some entry =>
        cases entry with
        | file bytes => rw [hplace] at hwalk; cases hwalk
        | directory => rfl
    rw [Tree.walk, hdir] at hwalk
    rw [Tree.walk, h.directory _ hdir]
    dsimp only at hwalk ⊢
    by_cases hlong : nameLimit < part.utf8ByteSize
    · rw [if_pos hlong] at hwalk
      cases hwalk
    · rw [if_neg hlong] at hwalk ⊢
      exact ih hwalk

theorem locate_eq_ok : t.locate p = .ok place ↔ p.hasNull = false ∧
    p.text.utf8ByteSize ≤ pathLimit ∧ t.walk (t.start p) p.parts = .ok place := by
  unfold locate start
  by_cases hnull : p.hasNull = true
  · simp [hnull]
  by_cases hlong : pathLimit < p.text.utf8ByteSize
  · simp [hnull, hlong, Nat.not_le.2 hlong]
  · simp [hnull, hlong, Nat.not_lt.1 hlong]

theorem Keeps.start (h : Keeps t t') (p : Path) : t'.start p = t.start p := by
  unfold Tree.start
  rw [h.here]

theorem Keeps.locate (h : Keeps t t') (hlocate : t.locate p = .ok place) :
    t'.locate p = .ok place := by
  obtain ⟨hnull, hlong, hwalk⟩ := locate_eq_ok.1 hlocate
  exact locate_eq_ok.2 ⟨hnull, hlong, by rw [h.start]; exact h.walk hwalk⟩

/-- There is a directory at a path. -/
def HasDirectory (t : Tree) (p : Path) : Prop :=
  ∃ place, t.locate p = .ok place ∧ t.get? place = some .directory

theorem Keeps.hasDirectory (h : Keeps t t') (hdir : t.HasDirectory p) : t'.HasDirectory p := by
  obtain ⟨place, hlocate, hplace⟩ := hdir
  exact ⟨place, h.locate hlocate, h.directory _ hplace⟩

/-! ## Paths into a directory -/

theorem walk_append (t : Tree) (place : Place) (a b : List String) :
    t.walk place (a ++ b) = (t.walk place a).bind fun q => t.walk q b := by
  induction a generalizing place with
  | nil => rfl
  | cons part rest ih =>
    rw [List.cons_append, Tree.walk, Tree.walk]
    cases t.get? place with
    | none => rfl
    | some entry =>
      cases entry with
      | file bytes => rfl
      | directory =>
        dsimp only
        split
        · rfl
        · exact ih _

/-- One name further. -/
def stepTo (place : Place) (name : String) : Place :=
  if name = ".." then place.dropLast else place ++ [name]

/-- **Where a path leads is settled by where the directory is that it leads into.** -/
theorem locate_of_parent {name : String} (hparts : p.parts = p.parent.parts ++ [name])
    (hparent : t.locate p.parent = .ok place) (hdir : t.get? place = some .directory) :
    t.locate p = if p.hasNull then .error .nullCharacter
      else if pathLimit < p.text.utf8ByteSize then .error .nameTooLong
      else if nameLimit < name.utf8ByteSize then .error .nameTooLong
      else .ok (stepTo place name) := by
  obtain ⟨-, -, hwalk⟩ := locate_eq_ok.1 hparent
  have hstep : t.walk (t.start p) p.parts =
      if nameLimit < name.utf8ByteSize then .error .nameTooLong
      else .ok (stepTo place name) := by
    rw [hparts, walk_append]
    change ((t.walk (t.start p.parent) p.parent.parts).bind fun q => t.walk q [name]) = _
    rw [hwalk]
    change t.walk place [name] = _
    rw [Tree.walk, hdir]
    rfl
  unfold locate
  rw [← hstep]
  rfl

/-- So trees with that directory agree on it. -/
theorem Keeps.locate_eq (h : Keeps t t') {name : String}
    (hparts : p.parts = p.parent.parts ++ [name]) (hdir : t.HasDirectory p.parent) :
    t'.locate p = t.locate p := by
  obtain ⟨place, hparent, hplace⟩ := hdir
  rw [locate_of_parent hparts hparent hplace,
    locate_of_parent hparts (h.locate hparent) (h.directory _ hplace)]

/-! ## Writing a file -/

/-- Why no file can be written at a path. -/
def blocked? (t : Tree) (p : Path) : Option OsError :=
  match t.locate p with
  | .error kind => some ⟨kind, p⟩
  | .ok place => if t.get? place = some .directory then some ⟨.isADirectory, p⟩ else none

theorem write_of_blocked {e : OsError} (h : t.blocked? p = some e) (bytes : List UInt8) :
    t.write p bytes = .error e := by
  unfold blocked? at h
  cases hlocate : t.locate p with
  | error kind =>
    rw [hlocate] at h
    cases h
    exact write_of_error hlocate bytes
  | ok place =>
    rw [hlocate] at h
    obtain ⟨hdir, h⟩ | ⟨-, h⟩ := ite_eq_iff.1 h
    · cases h
      rw [write_of_ok hlocate, if_pos hdir]
    · cases h

theorem write_of_free (h : t.blocked? p = none) :
    ∃ place, t.locate p = .ok place ∧ t.get? place ≠ some .directory ∧
      ∀ bytes, t.write p bytes = .ok (t.put place (.file bytes)) := by
  unfold blocked? at h
  cases hlocate : t.locate p with
  | error kind => rw [hlocate] at h; cases h
  | ok place =>
    rw [hlocate] at h
    obtain ⟨-, h⟩ | ⟨hfree, -⟩ := ite_eq_iff.1 h
    · cases h
    · exact ⟨place, rfl, hfree, fun bytes => by rw [write_of_ok hlocate, if_neg hfree]⟩

/-- **Trees with the same directories agree on what can be written** into one of them. -/
theorem Keeps.blocked?_eq (h : Keeps t t') (h' : Keeps t' t) {name : String}
    (hparts : p.parts = p.parent.parts ++ [name]) (hdir : t.HasDirectory p.parent) :
    t'.blocked? p = t.blocked? p := by
  unfold blocked?
  rw [h.locate_eq hparts hdir]
  cases t.locate p with
  | error kind => rfl
  | ok place =>
    have hiff : t'.get? place = some .directory ↔ t.get? place = some .directory :=
      ⟨h'.directory _, h.directory _⟩
    simp only [hiff]

theorem ensureDirectory_of_hasDirectory (h : t.HasDirectory p) :
    t.ensureDirectory p = (t, none) := by
  obtain ⟨place, hlocate, hdir⟩ := h
  rw [ensureDirectory_of_ok hlocate, if_neg (by rw [hdir]; simp), if_pos hdir]

theorem ensureDirectories_of_hasDirectory (h : t.HasDirectory p) (depth : Nat) :
    t.ensureDirectories p depth = (t, none) := by
  cases depth with
  | zero => exact ensureDirectory_of_hasDirectory h
  | succ depth =>
    have hmake : t.makeDirectory p = .error .exists := by
      obtain ⟨place, hlocate, hdir⟩ := h
      unfold makeDirectory
      simp [hlocate, hdir]
    rw [ensureDirectories, hmake]
    exact ensureDirectory_of_hasDirectory h

theorem save_of_blocked (hdir : t.HasDirectory p.parent) {e : OsError}
    (h : t.blocked? p = some e) (bytes : List UInt8) : t.save p bytes = (t, some e) := by
  unfold save
  rw [ensureDirectories_of_hasDirectory hdir]
  dsimp only
  rw [write_of_blocked h]

theorem save_of_free (hdir : t.HasDirectory p.parent) (h : t.blocked? p = none) :
    ∃ place, t.locate p = .ok place ∧ t.get? place ≠ some .directory ∧
      ∀ bytes, t.save p bytes = (t.put place (.file bytes), none) := by
  obtain ⟨place, hlocate, hfree, hwrite⟩ := write_of_free h
  refine ⟨place, hlocate, hfree, fun bytes => ?_⟩
  unfold save
  rw [ensureDirectories_of_hasDirectory hdir]
  dsimp only
  rw [hwrite]

/-- Where no directory has to be made, only the path can stand in the way. -/
theorem save_snd (hdir : t.HasDirectory p.parent) (bytes : List UInt8) :
    (t.save p bytes).2 = t.blocked? p := by
  cases hblocked : t.blocked? p with
  | some e => rw [save_of_blocked hdir hblocked]
  | none =>
    obtain ⟨place, -, -, hsave⟩ := save_of_free hdir hblocked
    rw [hsave]

/-! ## Saved files -/

/-- A file that can be read at a path, in a directory that is there. -/
structure Stored (t : Tree) (p : Path) (bytes : List UInt8) : Prop where
  directory : t.HasDirectory p.parent
  file : ∃ place, t.locate p = .ok place ∧ t.get? place = some (.file bytes)

theorem Stored.read (h : t.Stored p bytes) : t.read p = .ok bytes := by
  obtain ⟨place, hlocate, hfile⟩ := h.file
  rw [Tree.read, hlocate]
  dsimp only
  rw [hfile]

/-- It can be written again. -/
theorem Stored.free (h : t.Stored p bytes) : t.blocked? p = none := by
  obtain ⟨place, hlocate, hfile⟩ := h.file
  rw [blocked?, hlocate]
  dsimp only
  rw [hfile]
  rfl

theorem hasDirectory_of_ensureDirectory (h : t.ensureDirectory p = (t', none)) :
    t'.HasDirectory p := by
  cases hlocate : t.locate p with
  | error kind => rw [ensureDirectory_of_error hlocate] at h; cases h
  | ok place =>
    rw [ensureDirectory_of_ok hlocate] at h
    by_cases hmissing : t.get? place = none
    · rw [if_pos hmissing] at h
      cases h
      have hkeeps : Keeps t (t.put place .directory) := keeps_put (by rw [hmissing]; simp) _
      have hne : place ≠ [] := by rintro rfl; cases hmissing
      exact ⟨place, hkeeps.locate hlocate, get?_put_self hne⟩
    · rw [if_neg hmissing] at h
      by_cases hdir : t.get? place = some .directory
      · rw [if_pos hdir] at h
        cases h
        exact ⟨place, hlocate, hdir⟩
      · rw [if_neg hdir] at h
        cases h

/-- Whatever is made above it, the directory itself is made last. -/
theorem hasDirectory_of_ensureDirectories {depth : Nat}
    (h : t.ensureDirectories p depth = (t', none)) : t'.HasDirectory p := by
  cases depth with
  | zero => exact hasDirectory_of_ensureDirectory h
  | succ depth =>
    unfold ensureDirectories at h
    split at h
    · generalize t.ensureDirectories p.parent depth = result at h
      obtain ⟨above, failed⟩ := result
      cases failed with
      | some e => cases h
      | none => exact hasDirectory_of_ensureDirectory h
    · exact hasDirectory_of_ensureDirectory h

/-- **A file that was saved is there.** -/
theorem stored_of_save (h : t.save p bytes = (t', none)) : t'.Stored p bytes := by
  unfold save at h
  cases hensure : t.ensureDirectories p.parent p.parent.parts.length with
  | mk above failed =>
    rw [hensure] at h
    cases failed with
    | some e => cases h
    | none =>
      dsimp only at h
      have hdir := hasDirectory_of_ensureDirectories hensure
      cases hblocked : above.blocked? p with
      | some e => rw [write_of_blocked hblocked] at h; cases h
      | none =>
        obtain ⟨place, hlocate, hfree, hwrite⟩ := write_of_free hblocked
        rw [hwrite] at h
        cases h
        have hkeeps := keeps_put hfree (.file bytes)
        have hne : place ≠ [] := by rintro rfl; exact hfree rfl
        exact ⟨hkeeps.hasDirectory hdir, place, hkeeps.locate hlocate, get?_put_self hne⟩

/-- Two paths to different names of one directory. The first name is not that of the directory
above, so that only the second path may lead out of it. -/
structure Beside (p p' : Path) : Prop where
  parent : p'.parent = p.parent
  names : ∃ name name', name ≠ name' ∧ name ≠ ".." ∧ p.parts = p.parent.parts ++ [name] ∧
    p'.parts = p'.parent.parts ++ [name']

theorem stepTo_ne {name name' : String} (hne : name ≠ name') (hdots : name ≠ "..") (place : Place) :
    stepTo place name ≠ stepTo place name' := by
  unfold stepTo
  rw [if_neg hdots]
  split
  · intro heq
    have hlen := congrArg List.length heq
    rw [List.length_append, List.length_dropLast, List.length_singleton] at hlen
    omega
  · simpa using hne

/-- They lead to different places. -/
theorem Beside.place_ne (h : Beside p p') (hdir : t.HasDirectory p.parent) {place' : Place}
    (hplace : t.locate p = .ok place) (hplace' : t.locate p' = .ok place') : place ≠ place' := by
  obtain ⟨name, name', hne, hdots, hparts, hparts'⟩ := h.names
  obtain ⟨directory, hlocate, hentry⟩ := hdir
  have hstep : ∀ {r : Path} {last : String} {goal : Place}, r.parts = r.parent.parts ++ [last] →
      t.locate r.parent = .ok directory → t.locate r = .ok goal → goal = stepTo directory last := by
    intro r last goal hr hparent hgoal
    rw [locate_of_parent hr hparent hentry] at hgoal
    split at hgoal
    · cases hgoal
    split at hgoal
    · cases hgoal
    split at hgoal
    · cases hgoal
    · exact (Except.ok.inj hgoal).symm
  rw [hstep hparts hlocate hplace, hstep hparts' (by rw [h.parent]; exact hlocate) hplace']
  exact stepTo_ne hne hdots directory

theorem Stored.directory_beside (h : t.Stored p bytes) (hbeside : Beside p p') :
    t.HasDirectory p'.parent := by
  rw [hbeside.parent]
  exact h.directory

/-- **Saving the other file** leaves the first one where it is, and makes no directory. -/
theorem Stored.save_beside (h : t.Stored p bytes) (hbeside : Beside p p')
    (hsave : t.save p' bytes' = (t', failed)) :
    t'.Stored p bytes ∧ Keeps t t' ∧ Keeps t' t := by
  have hdir := h.directory_beside hbeside
  cases hblocked : t.blocked? p' with
  | some e =>
    rw [save_of_blocked hdir hblocked] at hsave
    cases hsave
    exact ⟨h, .refl t, .refl t⟩
  | none =>
    obtain ⟨place', hlocate', hfree, hsaved⟩ := save_of_free hdir hblocked
    rw [hsaved] at hsave
    cases hsave
    have hkeeps := keeps_put hfree (.file bytes')
    obtain ⟨place, hlocate, hfile⟩ := h.file
    have hne := hbeside.place_ne h.directory hlocate hlocate'
    refine ⟨⟨hkeeps.hasDirectory h.directory, place, hkeeps.locate hlocate, ?_⟩, hkeeps,
      keeps_of_put_file hfree bytes'⟩
    rw [get?_put_of_ne hne]
    exact hfile

/-- Whether the other file can be saved is settled by the directories. -/
theorem Stored.blocked?_beside (h : t.Stored p bytes) (hbeside : Beside p p') (hkeeps : Keeps t t')
    (hkeeps' : Keeps t' t) : t'.blocked? p' = t.blocked? p' := by
  obtain ⟨-, name', -, -, -, hparts⟩ := hbeside.names
  exact hkeeps.blocked?_eq hkeeps' hparts (h.directory_beside hbeside)

end Vimgen.Files.Tree
