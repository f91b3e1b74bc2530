import Mathlib.Data.List.Induction
import Vimgen.Files.Tree

/-!
# What saving a file does to a tree

A tree is well formed if everything in it stands in a directory. A path without two dots then has
one place, `Tree.placeOf`, and the operations on trees can be told by what they do at places:

* `located`: where a path leads, and what is in the way if it leads nowhere.
* `ensureDirectories_ensured`: directories are made where they were missing on the way, and nowhere
  else.
* `save_saved`: **saving changes the file at its place and nothing else**, missing directories above
  it apart; and if an ordinary failure stops it, it changes nothing at all.
* `read_justified`, `save_justified`: an error about a null character names a path with one.
-/

namespace Vimgen.Files

/-- The ordinary failures: something is missing, or a file stands where a directory is needed, or
the other way round. The others are about how a path is spelled. -/
def OsErrorKind.isOrdinary : OsErrorKind → Bool
  | .notFound | .exists | .notADirectory | .isADirectory => true
  | .nameTooLong | .nullCharacter => false

/-- An error that is about a null character is about a path that has one. -/
def OsError.Justified (e : OsError) : Prop := e.kind = .nullCharacter → e.path.hasNull = true

namespace Tree

variable {t t' t'' : Tree} {p : Path} {place q : Place} {entry : Entry}

/-! ## Entries -/

theorem get?_put_self (hne : place ≠ []) : (t.put place entry).get? place = some entry := by
  simp [get?, put, hne]

theorem get?_put_of_ne (hne : q ≠ place) : (t.put place entry).get? q = t.get? q := by
  have hfilter : ∀ entries : List (Place × Entry),
      (entries.filter fun e => e.1 ≠ place).lookup q = entries.lookup q := by
    intro entries
    induction entries with
    | nil => rfl
    | cons e rest ih =>
      by_cases he : e.1 = place
      · have hq : (q == e.1) = false := by rw [he]; simpa using hne
        rw [List.filter_cons_of_neg (by simpa using he), ih, List.lookup_cons, hq]
      · rw [List.filter_cons_of_pos (by simpa using he), List.lookup_cons, List.lookup_cons, ih]
  have hq : (q == place) = false := by simpa using hne
  unfold get? put
  split
  · rfl
  · rw [List.lookup_cons, hq]
    exact hfilter t.entries

/-- Everything stands in a directory, and so does who looks. -/
structure WellFormed (t : Tree) : Prop where
  above : ∀ place name, t.get? (place ++ [name]) ≠ none → t.get? place = some .directory
  here : t.get? t.here = some .directory

/-- It is enough to look at what is listed. -/
theorem wellFormed_of_entries (hhere : t.get? t.here = some .directory)
    (hentries : ∀ e ∈ t.entries, t.get? e.1.dropLast = some .directory) : t.WellFormed := by
  refine ⟨fun place name hne => ?_, hhere⟩
  have hlookup : (t.entries.lookup (place ++ [name])).isSome = true := by
    unfold get? at hne
    rw [if_neg (by simp)] at hne
    exact Option.isSome_iff_ne_none.2 hne
  obtain ⟨e, he, heq⟩ := List.lookup_isSome_iff.1 hlookup
  have hdir := hentries e he
  rwa [← eq_of_beq heq, List.dropLast_concat] at hdir

/-- All that is above something is a directory. -/
theorem WellFormed.directory_of_append (h : t.WellFormed) {a b : Place} (hb : b ≠ [])
    (hne : t.get? (a ++ b) ≠ none) : t.get? a = some .directory := by
  induction b using List.reverseRecOn with
  | nil => exact absurd rfl hb
  | append_singleton b name ih =>
    rw [← List.append_assoc] at hne
    have hdir := h.above _ _ hne
    by_cases hnil : b = []
    · rwa [hnil, List.append_nil] at hdir
    · exact ih hnil (by rw [hdir]; simp)

/-- Nothing is below what is not a directory. -/
theorem WellFormed.eq_none_of_append (h : t.WellFormed) {a b : Place} (hb : b ≠ [])
    (ha : t.get? a ≠ some .directory) : t.get? (a ++ b) = none := by
  by_contra hne
  exact ha (h.directory_of_append hb hne)

/-- **Putting something into a directory keeps a tree well formed**, unless it takes the place of
a directory. -/
theorem WellFormed.put (h : t.WellFormed) {name : String}
    (habove : t.get? place = some .directory)
    (hfree : t.get? (place ++ [name]) ≠ some .directory) :
    (t.put (place ++ [name]) entry).WellFormed := by
  have hkeep : ∀ q, t.get? q = some .directory →
      (t.put (place ++ [name]) entry).get? q = some .directory := by
    intro q hq
    rw [get?_put_of_ne (by rintro rfl; exact hfree hq)]
    exact hq
  refine ⟨fun q other hne => ?_, hkeep _ h.here⟩
  apply hkeep
  by_cases heq : q ++ [other] = place ++ [name]
  · obtain ⟨rfl, -⟩ := List.append_inj' heq rfl
    exact habove
  · rw [get?_put_of_ne heq] at hne
    exact h.above q other hne

/-! ## Places -/

/-- Where a path starts from. -/
def start (t : Tree) (p : Path) : Place := if p.isAbsolute then [] else t.here

/-- The place of a path, whether anything is there or not. -/
def placeOf (t : Tree) (p : Path) : Place := (p.resolve t.here).parts

theorem follow_of_noDots {names : List String} (hnames : ".." ∉ names) :
    Path.follow place names = place ++ names := by
  induction names generalizing place with
  | nil => rw [Path.follow, List.append_nil]
  | cons name rest ih =>
    simp only [List.mem_cons, not_or] at hnames
    rw [Path.follow, if_neg (Ne.symm hnames.1), ih hnames.2, List.append_assoc]
    rfl

theorem placeOf_eq (hdots : ".." ∉ p.parts) : t.placeOf p = t.start p ++ p.parts :=
  follow_of_noDots hdots

theorem placeOf_congr (h : t'.here = t.here) (p : Path) : t'.placeOf p = t.placeOf p := by
  unfold placeOf
  rw [h]

theorem noDots_parent (hdots : ".." ∉ p.parts) : ".." ∉ p.parent.parts :=
  fun hmem => hdots (List.dropLast_subset _ hmem)

/-- A path with a last name leads into the place of its parent. -/
theorem placeOf_eq_append (hdots : ".." ∉ p.parts) (hparts : p.parts ≠ []) :
    t.placeOf p = t.placeOf p.parent ++ [p.parts.getLast hparts] := by
  rw [placeOf_eq hdots, placeOf_eq (noDots_parent hdots), List.append_assoc]
  congr 1
  exact (List.dropLast_concat_getLast hparts).symm

/-- What walking along names comes to: all is well, a name is too long, or the way ends at a place
that is no directory before the last name. -/
theorem walk_cases {names : List String} (hnames : ".." ∉ names) (place : Place) :
    (t.walk place names = .ok (place ++ names) ∧
      (names = [] ∨ t.get? (place ++ names.dropLast) = some .directory)) ∨
    t.walk place names = .error .nameTooLong ∨
    ∃ before after, names = before ++ after ∧ after ≠ [] ∧
      ((t.get? (place ++ before) = none ∧ t.walk place names = .error .notFound) ∨
        (t.get? (place ++ before) ≠ some .directory ∧
          t.walk place names = .error .notADirectory)) := by
  induction names generalizing place with
  | nil => exact .inl ⟨by rw [walk, List.append_nil], .inl rfl⟩
  | cons name rest ih =>
    simp only [List.mem_cons, not_or] at hnames
    cases hplace : t.get? place with
    | none =>
      refine .inr (.inr ⟨[], name :: rest, rfl, List.cons_ne_nil _ _, .inl ⟨?_, ?_⟩⟩)
      · rwa [List.append_nil]
      · rw [walk, hplace]
    | some found =>
      cases found with
      | file bytes =>
        refine .inr (.inr ⟨[], name :: rest, rfl, List.cons_ne_nil _ _, .inr ⟨?_, ?_⟩⟩)
        · rw [List.append_nil, hplace]; simp
        · rw [walk, hplace]
      | directory =>
        by_cases hlong : nameLimit < name.utf8ByteSize
        · exact .inr (.inl (by rw [walk, hplace]; simp [hlong]))
        -- one step further the same names are left to walk
        have hstep : t.walk place (name :: rest) = t.walk (place ++ [name]) rest := by
          rw [walk, hplace]
          simp [hlong, Ne.symm hnames.1]
        have happend : ∀ l : List String, place ++ name :: l = place ++ [name] ++ l := by simp
        rw [hstep]
        rcases ih hnames.2 (place ++ [name]) with
          ⟨hok, hlast⟩ | hlong | ⟨before, after, heq, hne, h⟩
        · refine .inl ⟨by rw [hok, happend rest], .inr ?_⟩
          cases rest with
          | nil => rwa [List.dropLast_singleton, List.append_nil]
          | cons next rest =>
            rw [List.dropLast_cons_cons, happend]
            exact hlast.resolve_left (List.cons_ne_nil _ _)
        · exact .inr (.inl hlong)
        · refine .inr (.inr ⟨name :: before, after, by rw [heq, List.cons_append], hne, ?_⟩)
          rwa [happend]

/-- Where a path leads: to its place in a directory, or nowhere, because its spelling is refused,
the directory is missing, or something else is in its place. -/
inductive Located (t : Tree) (p : Path) : Except OsErrorKind Place → Prop
  | found (h : p.parts = [] ∨ t.get? (t.placeOf p.parent) = some .directory) :
    Located t p (.ok (t.placeOf p))
  | misspelled {kind : OsErrorKind} (h : kind.isOrdinary = false) : Located t p (.error kind)
  | missing (hparts : p.parts ≠ []) (h : t.get? (t.placeOf p.parent) = none) :
    Located t p (.error .notFound)
  | blocked (hparts : p.parts ≠ []) (h : t.get? (t.placeOf p.parent) ≠ some .directory) :
    Located t p (.error .notADirectory)

/-- **Where a path leads** in a well-formed tree. -/
theorem located (ht : t.WellFormed) (hdots : ".." ∉ p.parts) : Located t p (t.locate p) := by
  unfold locate
  split
  · exact .misspelled rfl
  split
  · exact .misspelled rfl
  change Located t p (t.walk (t.start p) p.parts)
  have hparent : t.placeOf p.parent = t.start p ++ p.parts.dropLast :=
    placeOf_eq (noDots_parent hdots)
  rcases walk_cases hdots (t.start p) with ⟨hok, hlast⟩ | hlong | ⟨before, after, heq, hne, h⟩
  · rw [hok, ← placeOf_eq hdots]
    exact .found (by rwa [hparent])
  · rw [hlong]
    exact .misspelled rfl
  · have hparts : p.parts ≠ [] := by rw [heq]; simp [hne]
    -- the way ends at the parent or above it, and in a well-formed tree nothing is below that end
    have habove : ∀ entry? : Option Entry, entry? ≠ some .directory →
        t.get? (t.start p ++ before) = entry? →
          t.get? (t.placeOf p.parent) = entry? ∨ t.get? (t.placeOf p.parent) = none := by
      intro entry? hentry hbefore
      rw [hparent, heq, List.dropLast_append_of_ne_nil hne, ← List.append_assoc]
      by_cases hnil : after.dropLast = []
      · rw [hnil, List.append_nil]
        exact .inl hbefore
      · exact .inr (ht.eq_none_of_append hnil (by rw [hbefore]; exact hentry))
    rcases h with ⟨hnone, herror⟩ | ⟨hfile, herror⟩
    · rw [herror]
      exact .missing hparts (or_self_iff.1 (habove none (by simp) hnone))
    · rw [herror]
      refine .blocked hparts fun hdir => ?_
      rcases habove _ hfile rfl with h | h
      · exact hfile (h ▸ hdir)
      · rw [h] at hdir; cases hdir

/-! ## Making directories -/

/-- The second tree differs from the first by new directories on the way to a place. -/
structure Grown (t t' : Tree) (place : Place) : Prop where
  here : t'.here = t.here
  wellFormed : t'.WellFormed
  same : ∀ q, t'.get? q = t.get? q ∨
    (t.get? q = none ∧ t'.get? q = some .directory ∧ q <+: place)

theorem Grown.refl (ht : t.WellFormed) (place : Place) : Grown t t place :=
  ⟨rfl, ht, fun _ => .inl rfl⟩

theorem Grown.mono (h : Grown t t' q) (hq : q <+: place) : Grown t t' place := by
  refine ⟨h.here, h.wellFormed, fun r => ?_⟩
  rcases h.same r with hsame | ⟨hnone, hdir, hpre⟩
  · exact .inl hsame
  · exact .inr ⟨hnone, hdir, hpre.trans hq⟩

theorem Grown.trans (h : Grown t t' place) (h' : Grown t' t'' place) : Grown t t'' place := by
  refine ⟨h'.here.trans h.here, h'.wellFormed, fun q => ?_⟩
  rcases h'.same q with hsame' | ⟨hnone', hdir', hpre'⟩
  · rw [hsame']
    exact h.same q
  · rcases h.same q with hsame | ⟨-, hdir, -⟩
    · exact .inr ⟨hsame ▸ hnone', hdir', hpre'⟩
    · rw [hdir] at hnone'; cases hnone'

/-- What is not on the way stays. -/
theorem Grown.get?_append (h : Grown t t' place) {b : Place} (hb : b ≠ []) :
    t'.get? (place ++ b) = t.get? (place ++ b) := by
  rcases h.same (place ++ b) with hsame | ⟨-, -, hpre⟩
  · exact hsame
  · have hlen := hpre.length_le
    have hpos := List.length_pos_iff.2 hb
    rw [List.length_append] at hlen
    omega

/-- What making directories up to a place comes to, in a tree and perhaps a failure. -/
structure Ensured (t : Tree) (place : Place) (result : Tree × Option OsError) : Prop where
  grown : Grown t result.1 place
  /-- Without a failure there is a directory at the place. -/
  there : result.2 = none → result.1.get? place = some .directory
  /-- Directories are made only if the last of them was missing. -/
  fresh : result.1 = t ∨ t.get? place = none
  /-- An ordinary failure shows before any directory is made. -/
  untouched : ∀ e, result.2 = some e → e.kind.isOrdinary = true → result.1 = t

theorem placeOf_of_parts_eq_nil (h : p.parts = []) : t.placeOf p = t.start p := by
  rw [placeOf_eq (by simp [h]), h, List.append_nil]

theorem get?_start (ht : t.WellFormed) (p : Path) : t.get? (t.start p) = some .directory := by
  unfold start
  split
  · rfl
  · exact ht.here

/-- Nothing is made. -/
theorem Ensured.same (ht : t.WellFormed) {failed : Option OsError}
    (h : failed = none → t.get? place = some .directory) : Ensured t place (t, failed) :=
  ⟨.refl ht place, h, .inl rfl, fun _ _ _ => rfl⟩

/-- One directory, at a place that can be reached. -/
theorem ensureDirectory_of_ok (h : t.locate p = .ok place) :
    t.ensureDirectory p = if t.get? place = none then (t.put place .directory, none)
      else (t, if t.get? place = some .directory then none else some ⟨.exists, p⟩) := by
  unfold ensureDirectory makeDirectory entry?
  simp only [h]
  cases t.get? place with
  | none => rfl
  | some entry => rfl

theorem ensureDirectory_of_error {kind : OsErrorKind} (h : t.locate p = .error kind) :
    t.ensureDirectory p = (t, some ⟨kind, p⟩) := by
  unfold ensureDirectory makeDirectory entry?
  simp [h]

theorem ensureDirectory_ensured (ht : t.WellFormed) (hdots : ".." ∉ p.parts) :
    Ensured t (t.placeOf p) (t.ensureDirectory p) := by
  have hlocated := located ht hdots
  cases hlocate : t.locate p with
  | error kind =>
    rw [ensureDirectory_of_error hlocate]
    exact .same ht nofun
  | ok place =>
    rw [hlocate] at hlocated
    cases hlocated with
    | found habove =>
      rw [ensureDirectory_of_ok hlocate]
      by_cases hmissing : t.get? (t.placeOf p) = none
      · rw [if_pos hmissing]
        -- the place is free, so it is not where the path starts, and its parent is a directory
        have hparts : p.parts ≠ [] := by
          intro hnil
          rw [placeOf_of_parts_eq_nil hnil, get?_start ht] at hmissing
          cases hmissing
        have hplace := placeOf_eq_append (t := t) hdots hparts
        have hself : (t.put (t.placeOf p) .directory).get? (t.placeOf p) = some .directory :=
          get?_put_self (by rw [hplace]; simp)
        have hput : (t.put (t.placeOf p) .directory).WellFormed := by
          rw [hplace] at hmissing ⊢
          exact ht.put (habove.resolve_left hparts) (by rw [hmissing]; simp)
        refine ⟨⟨rfl, hput, fun q => ?_⟩, fun _ => hself, .inr hmissing, nofun⟩
        by_cases hq : q = t.placeOf p
        · subst hq
          exact .inr ⟨hmissing, hself, List.prefix_rfl⟩
        · exact .inl (get?_put_of_ne hq)
      · rw [if_neg hmissing]
        refine .same ht fun hnone => ?_
        by_contra hdir
        rw [if_neg hdir] at hnone
        cases hnone

/-- Only the spelling of its path stands in the way of a directory that is missing in another. -/
theorem not_isOrdinary_of_ensureDirectory (ht : t.WellFormed) (hdots : ".." ∉ p.parts)
    (habove : t.get? (t.placeOf p.parent) = some .directory)
    (hmissing : t.get? (t.placeOf p) = none) {e : OsError} (he : (t.ensureDirectory p).2 = some e) : e.kind.isOrdinary = false := by
  have hlocated := located ht hdots
  cases hlocate : t.locate p with
  | error kind =>
    rw [hlocate] at hlocated
    rw [ensureDirectory_of_error hlocate] at he
    cases he
    cases hlocated with
    | misspelled hkind => exact hkind
    | missing _ hnone => rw [habove] at hnone; cases hnone
    | blocked _ hno => exact absurd habove hno
  | ok place =>
    rw [hlocate] at hlocated
    cases hlocated with
    | found _ =>
      rw [ensureDirectory_of_ok hlocate, if_pos hmissing] at he
      cases he

/-- A directory that cannot be made because the one above it is missing. -/
theorem missing_of_makeDirectory (ht : t.WellFormed) (hdots : ".." ∉ p.parts)
    (h : t.makeDirectory p = .error .notFound) :
    p.parts ≠ [] ∧ t.get? (t.placeOf p.parent) = none := by
  have hlocated := located ht hdots
  unfold makeDirectory at h
  cases hlocate : t.locate p with
  | ok place =>
    rw [hlocate] at h
    dsimp only at h
    split at h <;> cases h
  | error kind =>
    rw [hlocate] at h hlocated
    cases h
    cases hlocated with
    | misspelled hkind => cases hkind
    | missing hparts hnone => exact ⟨hparts, hnone⟩

/-- **Directories are made on the way to a place, and only there.** The induction goes up the path
until a directory is there, and `above` is the tree in which the parent of the path is one. -/
theorem ensureDirectories_ensured (ht : t.WellFormed) (hdots : ".." ∉ p.parts) (depth : Nat) :
    Ensured t (t.placeOf p) (t.ensureDirectories p depth) := by
  induction depth generalizing p with
  | zero => exact ensureDirectory_ensured ht hdots
  | succ depth ih =>
    unfold ensureDirectories
    split
    · rename_i hmake
      obtain ⟨hparts, hnone⟩ := missing_of_makeDirectory ht hdots hmake
      have hplace := placeOf_eq_append (t := t) hdots hparts
      have hmissing : t.get? (t.placeOf p) = none := by
        rw [hplace]
        exact ht.eq_none_of_append (by simp) (by rw [hnone]; simp)
      have hparent : t.placeOf p.parent <+: t.placeOf p := by
        rw [hplace]
        exact List.prefix_append _ _
      have habove := ih (noDots_parent hdots)
      generalize t.ensureDirectories p.parent depth = result at habove
      obtain ⟨above, failed⟩ := result
      cases failed with
      | some e => exact ⟨habove.grown.mono hparent, nofun, .inr hmissing, habove.untouched⟩
      | none =>
        dsimp only
        have hgrown := habove.grown.mono hparent
        have hhere : above.placeOf p = t.placeOf p := placeOf_congr habove.grown.here p
        have hlast := ensureDirectory_ensured habove.grown.wellFormed hdots
        rw [hhere] at hlast
        refine ⟨hgrown.trans hlast.grown, hlast.there, .inr hmissing, fun e he hordinary => ?_⟩
        have hfree : above.get? (above.placeOf p) = none := by
          rw [hhere, hplace, habove.grown.get?_append (by simp), ← hplace, hmissing]
        have hdir : above.get? (above.placeOf p.parent) = some .directory := by
          rw [placeOf_congr habove.grown.here]
          exact habove.there rfl
        have hspelling :=
          not_isOrdinary_of_ensureDirectory habove.grown.wellFormed hdots hdir hfree he
        rw [hspelling] at hordinary
        cases hordinary
    · exact ensureDirectory_ensured ht hdots

/-! ## Saving -/

/-- What saving a file comes to, in a tree and perhaps a failure. -/
structure Saved (t : Tree) (place : Place) (bytes : List UInt8) (result : Tree × Option OsError) :
    Prop where
  here : result.1.here = t.here
  wellFormed : result.1.WellFormed
  written : result.2 = none → result.1.get? place = some (.file bytes)
  kept : ∀ e, result.2 = some e → result.1.get? place = t.get? place
  /-- Elsewhere there are only new directories on the way to the file. -/
  others : ∀ q, q ≠ place → result.1.get? q = t.get? q ∨
    (t.get? q = none ∧ result.1.get? q = some .directory ∧ q <+: place)
  untouched : ∀ e, result.2 = some e → e.kind.isOrdinary = true → result.1 = t

/-- A failure after directories have been made. -/
theorem Grown.saved (h : Grown t t' q) {bytes : List UInt8} {e : OsError} {b : Place}
    (hplace : place = q ++ b) (hkept : t'.get? place = t.get? place)
    (huntouched : e.kind.isOrdinary = true → t' = t) : Saved t place bytes (t', some e) := by
  refine ⟨h.here, h.wellFormed, nofun, fun _ _ => hkept, fun r _ => ?_,
    fun e' he' hordinary => ?_⟩
  · exact (h.mono (hplace ▸ List.prefix_append q b)).same r
  · cases he'
    exact huntouched hordinary

/-- A file, in a directory that is there. -/
theorem put_saved (hgrown : Grown t t' q) (hdir : t'.get? q = some .directory) {name : String}
    (hfree : t'.get? (q ++ [name]) ≠ some .directory) (bytes : List UInt8) :
    Saved t (q ++ [name]) bytes (t'.put (q ++ [name]) (.file bytes), none) := by
  refine ⟨hgrown.here, hgrown.wellFormed.put hdir hfree, fun _ => get?_put_self (by simp), nofun,
    fun r hr => ?_, nofun⟩
  rw [get?_put_of_ne hr]
  exact (hgrown.mono (List.prefix_append q [name])).same r

theorem write_of_ok (h : t.locate p = .ok place) (bytes : List UInt8) :
    t.write p bytes = if t.get? place = some .directory then .error ⟨.isADirectory, p⟩
      else .ok (t.put place (.file bytes)) := by
  rw [write, h]

theorem write_of_error {kind : OsErrorKind} (h : t.locate p = .error kind) (bytes : List UInt8) :
    t.write p bytes = .error ⟨kind, p⟩ := by
  rw [write, h]

/-- A path without names is that of a directory, and no file can be saved there. -/
theorem save_of_parts_eq_nil (ht : t.WellFormed) (hparts : p.parts = []) (bytes : List UInt8) :
    ∃ e, t.save p bytes = (t, some e) := by
  have hlocated := located ht (p := p) (by simp [hparts])
  have hsame : p.parent = p := by
    unfold Path.parent
    rw [hparts, List.dropLast_nil, ← hparts]
  unfold save
  rw [hsame, hparts, List.length_nil, ensureDirectories]
  cases hlocate : t.locate p with
  | error kind =>
    rw [ensureDirectory_of_error hlocate]
    exact ⟨_, rfl⟩
  | ok place =>
    rw [hlocate] at hlocated
    cases hlocated with
    | found _ =>
      have hdir : t.get? (t.placeOf p) = some .directory := by
        rw [placeOf_of_parts_eq_nil hparts]
        exact get?_start ht p
      rw [ensureDirectory_of_ok hlocate, if_neg (by rw [hdir]; simp), if_pos hdir]
      dsimp only
      rw [write_of_ok hlocate, if_pos hdir]
      exact ⟨_, rfl⟩

/-- **Saving a file** in a well-formed tree, at a path without two dots. -/
theorem save_saved (ht : t.WellFormed) (hdots : ".." ∉ p.parts) (bytes : List UInt8) :
    Saved t (t.placeOf p) bytes (t.save p bytes) := by
  by_cases hparts : p.parts = []
  · obtain ⟨e, he⟩ := save_of_parts_eq_nil ht hparts bytes
    rw [he]
    exact (Grown.refl ht _).saved (List.append_nil _).symm rfl fun _ => rfl
  have hplace := placeOf_eq_append (t := t) hdots hparts
  have hensured := ensureDirectories_ensured ht (noDots_parent hdots) p.parent.parts.length
  unfold save
  generalize t.ensureDirectories p.parent p.parent.parts.length = result at hensured
  obtain ⟨t', failed⟩ := result
  obtain ⟨hgrown, hthere, hfresh, huntouched⟩ := hensured
  dsimp only at hgrown hthere hfresh huntouched
  have hkept : t'.get? (t.placeOf p) = t.get? (t.placeOf p) := by
    rw [hplace]
    exact hgrown.get?_append (by simp)
  cases failed with
  | some e => exact hgrown.saved hplace hkept (huntouched e rfl)
  | none =>
    dsimp only
    have hdir := hthere rfl
    have hlocated := located hgrown.wellFormed hdots
    cases hlocate : t'.locate p with
    | error kind =>
      rw [write_of_error hlocate]
      refine hgrown.saved hplace hkept fun hordinary => ?_
      rw [hlocate] at hlocated
      cases hlocated with
      | misspelled hkind => rw [hkind] at hordinary; cases hordinary
      | missing _ hnone => rw [placeOf_congr hgrown.here, hdir] at hnone; cases hnone
      | blocked _ hno => exact absurd (placeOf_congr hgrown.here p.parent ▸ hdir) hno
    | ok place =>
      rw [hlocate] at hlocated
      cases hlocated with
      | found _ =>
        rw [write_of_ok hlocate, placeOf_congr hgrown.here]
        by_cases hoccupied : t'.get? (t.placeOf p) = some .directory
        · rw [if_pos hoccupied]
          refine hgrown.saved hplace hkept fun _ => hfresh.resolve_right fun hnone => ?_
          -- if the directory had been missing, so would be what is in the way of the file
          have hfree : t.get? (t.placeOf p) = none := by
            rw [hplace]
            exact ht.eq_none_of_append (by simp) (by rw [hnone]; simp)
          rw [hkept, hfree] at hoccupied
          cases hoccupied
        · rw [if_neg hoccupied]
          rw [hplace] at hoccupied ⊢
          exact put_saved hgrown hdir hoccupied bytes

/-! ## Null characters -/

theorem walk_ne_nullCharacter (t : Tree) (place : Place) (parts : List String) :
    t.walk place parts ≠ .error .nullCharacter := by
  induction parts generalizing place with
  | nil => exact nofun
  | cons part rest ih =>
    unfold walk
    cases t.get? place with
    | none => exact nofun
    | some entry =>
      cases entry with
      | file bytes => exact nofun
      | directory =>
        dsimp only
        split
        · exact nofun
        · exact ih _

/-- A path is refused for a null character only if it has one. -/
theorem justified_of_locate {kind : OsErrorKind} (h : t.locate p = .error kind) :
    OsError.Justified ⟨kind, p⟩ := by
  rintro rfl
  unfold locate at h
  by_cases hnull : p.hasNull = true
  · exact hnull
  · rw [if_neg hnull] at h
    split at h
    · cases h
    · exact absurd h (walk_ne_nullCharacter t _ _)

theorem read_justified {e : OsError} (h : t.read p = .error e) : e.Justified := by
  unfold read at h
  cases hlocate : t.locate p with
  | error kind =>
    rw [hlocate] at h
    cases h
    exact justified_of_locate hlocate
  | ok place =>
    rw [hlocate] at h
    dsimp only at h
    cases hentry : t.get? place with
    | none => rw [hentry] at h; cases h; exact nofun
    | some entry =>
      rw [hentry] at h
      cases entry with
      | directory => cases h; exact nofun
      | file bytes => cases h

theorem write_justified {bytes : List UInt8} {e : OsError} (h : t.write p bytes = .error e) :
    e.Justified := by
  cases hlocate : t.locate p with
  | error kind =>
    rw [write_of_error hlocate] at h
    cases h
    exact justified_of_locate hlocate
  | ok place =>
    rw [write_of_ok hlocate] at h
    split at h
    · cases h; exact nofun
    · cases h

theorem ensureDirectory_justified {e : OsError} (h : (t.ensureDirectory p).2 = some e) :
    e.Justified := by
  cases hlocate : t.locate p with
  | error kind =>
    rw [ensureDirectory_of_error hlocate] at h
    cases h
    exact justified_of_locate hlocate
  | ok place =>
    rw [ensureDirectory_of_ok hlocate] at h
    split at h
    · cases h
    · dsimp only at h
      split at h
      · cases h
      · cases h; exact nofun

theorem ensureDirectories_justified {depth : Nat} {e : OsError}
    (h : (t.ensureDirectories p depth).2 = some e) : e.Justified := by
  induction depth generalizing p with
  | zero => exact ensureDirectory_justified h
  | succ depth ih =>
    unfold ensureDirectories at h
    split at h
    · cases habove : t.ensureDirectories p.parent depth with
      | mk above failed =>
        rw [habove] at h
        cases failed with
        | some e' => cases h; exact ih (by rw [habove])
        | none => exact ensureDirectory_justified h
    · exact ensureDirectory_justified h

theorem save_justified {bytes : List UInt8} {e : OsError} (h : (t.save p bytes).2 = some e) :
    e.Justified := by
  unfold save at h
  cases hensured : t.ensureDirectories p.parent p.parent.parts.length with
  | mk t' failed =>
    rw [hensured] at h
    cases failed with
    | some e' => cases h; exact ensureDirectories_justified (by rw [hensured])
    | none =>
      dsimp only at h
      cases hwrite : t'.write p bytes with
      | ok t'' => rw [hwrite] at h; cases h
      | error e' => rw [hwrite] at h; cases h; exact write_justified hwrite

end Tree

end Vimgen.Files
