import Vimgen.Proofs.Compilation
import Vimgen.Proofs.FileTree

/-!
# What compiling does to the files

Compiling a file reads its input, saves a dump if one is wanted, and saves the script if there is
one. Whatever stops it on the way, and however the three paths lie to each other:

* `dumpPath_apart`: the dump has a place of its own next to the output.
* `CompileSteps.compiled`, `DumpSteps.dumped`: what each of the two writers does.
* `compileFile_confined`: **only the output, the dump and missing directories above them change**,
  the output only together with a script, and without a dump a failure changes nothing.
-/

namespace Vimgen.Compile

open Files (Path Place Tree)
open Text.Utf8 (encode)

/-! ## The path of a dump -/

/-- A name is not the name of its own dump: a suffix has one dot, and the end of a dump's name has
two. -/
theorem stem_append_ne (name : List Char) :
    (Path.splitSuffix name).1 ++ dumpSuffix.toList ≠ name := by
  intro h
  have hsuffix : dumpSuffix.toList = ['.', 'i', 'r', '.', 's', 'e', 'x', 'p', 'r'] := rfl
  have hlen := congrArg List.length h
  rw [List.length_append, hsuffix] at hlen
  -- the last part after a dot has five characters, so six are cut off, and nine are put in place
  have htake : (name.reverse.takeWhile (· ≠ '.')).length = 5 := by
    rw [← h, List.reverse_append, hsuffix]
    simp
  unfold Path.splitSuffix at hlen
  simp only [List.length_reverse, htake] at hlen
  split at hlen
  · simp at hlen
  · rw [List.length_take] at hlen
    simp at hlen
    omega

/-- The dump is next to the output, under another name. -/
theorem dumpPath_apart {output path : Path} (hpath : dumpPath? output = some path) :
    ∃ name other, name ≠ other ∧ other ≠ ".." ∧ output.parts = output.parent.parts ++ [name] ∧
      path = { output with parts := output.parent.parts ++ [other] } := by
  unfold dumpPath? Path.withName? at hpath
  split at hpath
  · cases hpath
  rename_i hparts
  have hparts : output.parts ≠ [] := by simpa using hparts
  have hlast : output.name? = some (output.parts.getLast hparts) :=
    List.getLast?_eq_some_getLast hparts
  refine ⟨output.parts.getLast hparts, output.stem ++ dumpSuffix, fun heq => ?_, fun heq => ?_,
    (List.dropLast_concat_getLast hparts).symm, (Option.some.inj hpath).symm⟩
  · have hname := congrArg String.toList heq
    rw [String.toList_append, Path.stem, hlast, String.toList_ofList] at hname
    exact stem_append_ne _ hname.symm
  · have hlen := congrArg (fun s => s.toList.length) heq
    have hsuffix : dumpSuffix.toList.length = 9 := rfl
    rw [String.toList_append, List.length_append, hsuffix] at hlen
    have hdots : "..".toList.length = 2 := rfl
    omega

/-! ## Saving the script -/

/-- The text of the script that a compilation came to, if it did. -/
def Run.text? (run : Run) : Option String :=
  match run.result with
  | .ok outcome => outcome.text?
  | .error _ => none

/-- What compiling definitions does to a tree. -/
structure Compiled (tree : Tree) (output : Path) (run : Run) : Prop where
  here : run.tree.here = tree.here
  written : ∀ text, run.text? = some text →
    run.tree.get? (tree.placeOf output) = some (.file (encode text))
  kept : run.text? = none → run.tree.get? (tree.placeOf output) = tree.get? (tree.placeOf output)
  others : ∀ q, q ≠ tree.placeOf output → run.tree.get? q = tree.get? q ∨
    (tree.get? q = none ∧ run.tree.get? q = some .directory ∧ q <+: tree.placeOf output)
  untouched : run.text? = none →
    (∀ e, run.result = .error (.system e) → e.kind.isOrdinary = true) → run.tree = tree

/-- Nothing is saved. -/
theorem Compiled.same {tree : Tree} {output : Path} {run : Run} (htree : run.tree = tree)
    (htext : run.text? = none) : Compiled tree output run := by
  refine ⟨by rw [htree], fun text h => ?_, fun _ => by rw [htree], fun q _ => .inl (by rw [htree]),
    fun _ _ => htree⟩
  rw [htext] at h
  cases h

/-- **Only the output changes when definitions are compiled.** -/
theorem CompileSteps.compiled {definitions : List Ir.Definition} {tree : Tree} {output : Path}
    {run : Run} (htree : tree.WellFormed) (hdots : ".." ∉ output.parts)
    (h : CompileSteps definitions output tree run) : Compiled tree output run := by
  cases h with
  | @unsaved events result _ hresult =>
    refine .same rfl ?_
    cases result with
    | error fault => rfl
    | ok outcome =>
      cases outcome with
      | failure diagnostic => rfl
      | success program text => exact absurd rfl (hresult program text)
  | @unwritten _ _ text _ e _ hsave =>
    have hsaved := Tree.save_saved htree hdots (encode text)
    rw [hsave] at hsaved
    exact ⟨hsaved.here, nofun, fun _ => hsaved.kept e rfl, hsaved.others,
      fun _ hordinary => hsaved.untouched e rfl (hordinary e rfl)⟩
  | @saved _ _ text _ _ hsave =>
    have hsaved := Tree.save_saved htree hdots (encode text)
    rw [hsave] at hsaved
    refine ⟨hsaved.here, fun text' h => ?_, nofun, hsaved.others, nofun⟩
    cases h
    exact hsaved.written rfl

/-! ## Saving the dump -/

/-- What saving a dump does to a tree. -/
structure Dumped (tree : Tree) (program : Ir.Program) (output : Path) (tree' : Tree) : Prop where
  here : tree'.here = tree.here
  wellFormed : tree'.WellFormed
  kept : tree'.get? (tree.placeOf output) = tree.get? (tree.placeOf output)
  dumped : ∀ path, dumpPath? output = some path →
    tree'.get? (tree.placeOf path) = tree.get? (tree.placeOf path) ∨
      ∃ text, program.pretty = .ok text ∧
        tree'.get? (tree.placeOf path) = some (.file (encode text))
  others : ∀ q, (∀ path, dumpPath? output = some path → q ≠ tree.placeOf path) →
    tree'.get? q = tree.get? q ∨
      (tree.get? q = none ∧ tree'.get? q = some .directory ∧ q <+: tree.placeOf output)

theorem Dumped.same {tree : Tree} (htree : tree.WellFormed) (program : Ir.Program) (output : Path) :
    Dumped tree program output tree :=
  ⟨rfl, htree, rfl, fun _ _ => .inl rfl, fun _ _ => .inl rfl⟩

/-- The places of output and dump are two names in one directory. -/
theorem placeOf_dumpPath (tree : Tree) {output path : Path} (hdots : ".." ∉ output.parts)
    (hpath : dumpPath? output = some path) :
    ".." ∉ path.parts ∧ ∃ directory name other, name ≠ other ∧
      tree.placeOf output = directory ++ [name] ∧ tree.placeOf path = directory ++ [other] := by
  obtain ⟨name, other, hne, hother, hparts, rfl⟩ := dumpPath_apart hpath
  have hparent : ".." ∉ output.parent.parts := Tree.noDots_parent hdots
  have hpathdots : ".." ∉ output.parent.parts ++ [other] := by simp [hparent, Ne.symm hother]
  refine ⟨hpathdots, tree.start output ++ output.parent.parts, name, other, hne, ?_, ?_⟩
  · rw [Tree.placeOf_eq hdots, hparts, List.append_assoc]
  · rw [Tree.placeOf_eq hpathdots, List.append_assoc]
    rfl

/-- **Only the dump changes when a program is dumped.** -/
theorem DumpSteps.dumped {program : Ir.Program} {tree : Tree} {output : Path}
    {result : Tree × Except Fault Path} (htree : tree.WellFormed) (hdots : ".." ∉ output.parts)
    (h : DumpSteps program output tree result) : Dumped tree program output result.1 := by
  -- whether or not saving fails, it leaves everything but the dump as it should be
  have hsave : ∀ path text tree' failed, dumpPath? output = some path → program.pretty = .ok text →
      tree.save path (encode text) = (tree', failed) → Dumped tree program output tree' := by
    intro path text tree' failed hpath hpretty hsave
    obtain ⟨hpathdots, directory, name, other, hne, houtput, hplace⟩ :=
      placeOf_dumpPath tree hdots hpath
    have hsaved := Tree.save_saved htree hpathdots (encode text)
    rw [hsave] at hsaved
    have happart : tree.placeOf output ≠ tree.placeOf path := by
      rw [houtput, hplace]
      simpa using hne
    -- what is above the dump is above the output
    have habove : ∀ q, q ≠ tree.placeOf path → q <+: tree.placeOf path →
        q <+: tree.placeOf output := by
      intro q hq hpre
      rw [hplace] at hq hpre
      rw [houtput]
      exact ((List.prefix_concat_iff.1 hpre).resolve_left hq).trans (List.prefix_append _ _)
    refine ⟨hsaved.here, hsaved.wellFormed, ?_, fun path' hpath' => ?_, fun q hq => ?_⟩
    · rcases hsaved.others _ happart with hsame | ⟨-, -, hpre⟩
      · exact hsame
      · -- two names in one directory have places of the same length
        have heq := hpre.eq_of_length (by rw [houtput, hplace]; simp)
        exact absurd heq happart
    · cases hpath.symm.trans hpath'
      cases failed with
      | none => exact .inr ⟨text, hpretty, hsaved.written rfl⟩
      | some e => exact .inl (hsaved.kept e rfl)
    · have hne := hq path hpath
      rcases hsaved.others q hne with hsame | ⟨hnone, hdir, hpre⟩
      · exact .inl hsame
      · exact .inr ⟨hnone, hdir, habove q hne hpre⟩
  cases h with
  | nameless _ => exact .same htree program output
  | unprintable _ => exact .same htree program output
  | unwritten hpath hpretty h => exact hsave _ _ _ _ hpath hpretty h
  | saved hpath hpretty h => exact hsave _ _ _ _ hpath hpretty h

/-! ## Compiling a file -/

/-- What compiling a file may do to the tree that it starts with. -/
structure Confined (settings : Settings) (input output : Path) (tree : Tree) (run : Run) :
    Prop where
  /-- If there is a script, the output is its text. -/
  written : ∀ text, run.text? = some text →
    run.tree.get? (tree.placeOf output) = some (.file (encode text))
  /-- If there is none, the output is what it was. -/
  kept : run.text? = none → run.tree.get? (tree.placeOf output) = tree.get? (tree.placeOf output)
  /-- The dump is the output with another suffix, and never the output itself. -/
  apart : ∀ path, output.withSuffix? ".ir.sexpr" = some path →
    path ≠ output ∧ tree.placeOf path ≠ tree.placeOf output
  /-- The dump changes only if it is wanted and the input is a program, and it is that program. -/
  dumped : ∀ path, output.withSuffix? ".ir.sexpr" = some path →
    run.tree.get? (tree.placeOf path) ≠ tree.get? (tree.placeOf path) →
      (∃ value, settings.dumpIr = some value ∧ value ≠ "") ∧
      ∃ source program text, readSource tree input = .ok source ∧
        Ir.Program.read source = .ok program ∧ program.pretty = .ok text ∧
        run.tree.get? (tree.placeOf path) = some (.file (encode text))
  /-- Elsewhere there are only new directories, where they were missing above the output. -/
  others : ∀ q, q ≠ tree.placeOf output →
    (∀ path, output.withSuffix? ".ir.sexpr" = some path → q ≠ tree.placeOf path) →
      run.tree.get? q = tree.get? q ∨
        (tree.get? q = none ∧ run.tree.get? q = some .directory ∧ q <+: tree.placeOf output)
  /-- Where no dump is wanted, nothing changes without a script. -/
  untouched : settings.dumpIr = none ∨ settings.dumpIr = some "" → run.text? = none →
    (∀ e, run.result = .error (.system e) → e.kind.isOrdinary = true) → run.tree = tree

theorem wantsDump_iff {settings : Settings} :
    settings.wantsDump = true ↔ ∃ value, settings.dumpIr = some value ∧ value ≠ "" := by
  unfold Settings.wantsDump nonempty?
  cases settings.dumpIr with
  | none => simp
  | some value => by_cases hvalue : value = "" <;> simp [hvalue]

section

variable {settings : Settings} {input output path : Path} {tree tree' : Tree} {run : Run}

theorem placeOf_dumpPath_ne (tree : Tree) {output path : Path} (hdots : ".." ∉ output.parts)
    (hpath : dumpPath? output = some path) :
    path ≠ output ∧ tree.placeOf path ≠ tree.placeOf output := by
  obtain ⟨-, directory, name, other, hne, houtput, hplace⟩ :=
    placeOf_dumpPath tree hdots hpath
  have hplaces : tree.placeOf path ≠ tree.placeOf output := by
    rw [houtput, hplace]
    simpa using Ne.symm hne
  exact ⟨fun h => hplaces (by rw [h]), hplaces⟩

/-- Saving the script does not touch the dump. -/
theorem Compiled.get?_dump (h : Compiled tree output run) (hdots : ".." ∉ output.parts)
    (hpath : dumpPath? output = some path) :
    run.tree.get? (tree.placeOf path) = tree.get? (tree.placeOf path) := by
  have hne := (placeOf_dumpPath_ne tree hdots hpath).2
  obtain ⟨-, directory, name, other, -, houtput, hplace⟩ :=
    placeOf_dumpPath tree hdots hpath
  rcases h.others _ hne with hsame | ⟨-, -, hpre⟩
  · exact hsame
  · exact absurd (hpre.eq_of_length (by rw [houtput, hplace]; simp)) hne

/-- Without a dump. -/
theorem Compiled.confined (h : Compiled tree output run) (hdots : ".." ∉ output.parts) :
    Confined settings input output tree run where
  written := h.written
  kept := h.kept
  apart _ hpath := placeOf_dumpPath_ne tree hdots hpath
  dumped _ hpath hne := absurd (h.get?_dump hdots hpath) hne
  others q hq _ := h.others q hq
  untouched _ := h.untouched

/-- After a dump. -/
theorem Dumped.confined {source : String} {program : Ir.Program}
    (h : Dumped tree program output tree') (hcompiled : Compiled tree' output run)
    (hdots : ".." ∉ output.parts) (hwanted : settings.wantsDump = true)
    (hread : readSource tree input = .ok source) (hprogram : Ir.Program.read source = .ok program) :
    Confined settings input output tree run := by
  have hplace : ∀ p, tree'.placeOf p = tree.placeOf p := Tree.placeOf_congr h.here
  obtain ⟨value, hvalue, hne⟩ := wantsDump_iff.1 hwanted
  refine ⟨fun text htext => ?_, fun htext => ?_,
    fun _ hpath => placeOf_dumpPath_ne tree hdots hpath, fun path hpath hchanged => ?_, fun q hq hqpath => ?_, fun hunwanted => ?_⟩
  · rw [← hplace]
    exact hcompiled.written text htext
  · rw [← h.kept, ← hplace]
    exact hcompiled.kept htext
  · have hrun := hcompiled.get?_dump hdots hpath
    rw [hplace] at hrun
    rw [hrun] at hchanged ⊢
    obtain ⟨text, hpretty, htext⟩ := (h.dumped path hpath).resolve_left hchanged
    exact ⟨⟨value, hvalue, hne⟩, source, program, text, hread, hprogram, hpretty, htext⟩
  · rw [← hplace] at hq
    -- a directory may be made for the dump or for the output, and not for both
    rcases hcompiled.others q hq with hsame | ⟨hnone, hdir, hpre⟩
    · rw [hsame]
      exact h.others q hqpath
    · rw [hplace] at hpre
      rcases h.others q hqpath with hsame | ⟨-, hdir', -⟩
      · exact .inr ⟨hsame ▸ hnone, hdir, hpre⟩
      · rw [hdir'] at hnone; cases hnone
  · rcases hunwanted with hunset | hempty
    · rw [hunset] at hvalue; cases hvalue
    · rw [hempty] at hvalue; cases hvalue; exact absurd rfl hne

end

/-- **Compiling a file is confined** to the output, the dump and the directories above them, in a
well-formed tree and for an output path without two dots. -/
theorem compileFile_confined (settings : Settings) (input output : Path) (tree : Tree)
    (htree : tree.WellFormed) (hdots : ".." ∉ output.parts) :
    Confined settings input output tree (compileFile settings input output tree) := by
  have hsteps := compileFile_steps settings input output tree
  generalize compileFile settings input output tree = run at hsteps
  cases hsteps with
  | unread _ => exact Compiled.confined (.same rfl rfl) hdots
  | malformed _ _ _ => exact Compiled.confined (.same rfl rfl) hdots
  | oversized _ _ _ => exact Compiled.confined (.same rfl rfl) hdots
  | @undumped _ program _ _ hread hprogram hwanted hdump =>
    have hdumped := (dump_steps program output tree).dumped htree hdots
    rw [hdump] at hdumped
    exact hdumped.confined (.same rfl rfl) hdots hwanted hread hprogram
  | @dumped _ program _ _ _ hread hprogram hwanted hdump hcompile =>
    have hdumped := (dump_steps program output tree).dumped htree hdots
    rw [hdump] at hdumped
    exact hdumped.confined (hcompile.compiled hdumped.wellFormed hdots) hdots hwanted hread hprogram
  | plain _ _ _ hcompile => exact (hcompile.compiled htree hdots).confined hdots

/-- A program without definitions, in a file of its own. -/
def emptyProgramTree : Tree := ⟨[(["in"], .file (encode "(program)"))], []⟩

/-- Its script goes into a directory that has to be made, next to a dump. -/
theorem compileFile_confined_newDirectory :
    emptyProgramTree.WellFormed ∧ emptyProgramTree.get? ["new"] = none ∧
      ∃ run, run = compileFile { dumpIr := some "1" } ⟨"", ["in"]⟩ ⟨"", ["new", "out.vim"]⟩
          emptyProgramTree ∧
        Confined { dumpIr := some "1" } ⟨"", ["in"]⟩ ⟨"", ["new", "out.vim"]⟩ emptyProgramTree run ∧
        run.tree.get? ["new", "out.vim"] =
          some (.file (encode "call s:Idris__123_runMain_95_0_125_()\n")) := by
  have htree : emptyProgramTree.WellFormed :=
    Tree.wellFormed_of_entries rfl (List.forall_mem_singleton.2 rfl)
  have hconfined := compileFile_confined { dumpIr := some "1" } ⟨"", ["in"]⟩
    ⟨"", ["new", "out.vim"]⟩ emptyProgramTree htree (by decide)
  have htext : (compileFile { dumpIr := some "1" } ⟨"", ["in"]⟩ ⟨"", ["new", "out.vim"]⟩
      emptyProgramTree).text? = some "call s:Idris__123_runMain_95_0_125_()\n" := by decide +kernel
  exact ⟨htree, by decide, _, rfl, hconfined, hconfined.written _ htext⟩

end Vimgen.Compile
