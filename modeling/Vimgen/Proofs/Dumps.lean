import Vimgen.Proofs.Confinement
import Vimgen.Proofs.Rereading
import Vimgen.Proofs.SavedFiles

/-!
# Dumps are read back

A dump is the text of a program in a file next to the script. Saving the script leaves it alone, so
what is read from it afterwards is settled by what the file does to the text:

* `CompileSteps.stored`: the dump is still there when the script is saved, or could not be.
* `CompileSteps.result_eq`: compiling comes to the script or the diagnostic of the definitions,
  unless the script cannot be saved.
* `dump_reread`: **a dump is read as the program that was compiled, and compiled to the same result,
  exactly if no text in the program has a carriage return.**
-/

namespace Vimgen.Compile

open Files (OsError Path Tree)
open Sexp (unifiedText)
open Text.Utf8 (encode)

section

variable {definitions : List Ir.Definition} {p : Ir.Program} {output path : Path}
  {tree tree' : Tree} {run : Run} {text : String} {bytes : List UInt8}

/-! ## The script next to its dump -/

theorem beside_dumpPath (hpath : dumpPath? output = some path) : Tree.Beside path output := by
  obtain ⟨name, other, hne, hdots, hparts, rfl⟩ := dumpPath_apart hpath
  have hparent : ({ output with parts := output.parent.parts ++ [other] } : Path).parent =
      output.parent := by
    unfold Path.parent
    rw [List.dropLast_concat]
  exact ⟨hparent.symm, other, name, hne.symm, hdots, by rw [hparent], hparts⟩

/-- A result, unless it is a script that cannot be saved. -/
def orBlocked : Except Fault Outcome → Option OsError → Except Fault Outcome
  | .ok (.success _ _), some e => .error (.system e)
  | result, _ => result

/-- **What compiling comes to**, in a directory that is there. -/
theorem CompileSteps.result_eq (h : CompileSteps definitions output tree run)
    (hdir : tree.HasDirectory output.parent) :
    run.result = orBlocked (generate definitions) (tree.blocked? output) := by
  cases h with
  | @unsaved _ result hgenerate hresult =>
    rw [hgenerate]
    cases result with
    | error fault => rfl
    | ok outcome =>
      cases outcome with
      | failure diagnostic => rfl
      | success program text => exact absurd rfl (hresult program text)
  | @unwritten _ _ text _ e hgenerate hsave =>
    have hblocked := Tree.save_snd hdir (encode text)
    rw [hsave] at hblocked
    rw [hgenerate, ← hblocked]
    rfl
  | @saved _ _ text _ hgenerate hsave =>
    have hblocked := Tree.save_snd hdir (encode text)
    rw [hsave] at hblocked
    rw [hgenerate, ← hblocked]
    rfl

/-- An outcome, unlike a fault, can only come from the definitions. -/
theorem CompileSteps.generate_of_result (h : CompileSteps definitions output tree run)
    {outcome : Outcome} (hresult : run.result = .ok outcome) :
    generate definitions = .ok outcome := by
  cases h with
  | unsaved hgenerate _ => exact hgenerate.trans hresult
  | unwritten _ _ => cases hresult
  | saved hgenerate _ => exact hgenerate.trans hresult

/-- A dump that was saved is there. -/
theorem stored_of_dump (h : dump p output tree = (tree', .ok path)) : dumpPath? output = some path ∧
    ∃ text, p.pretty = .ok text ∧ tree'.Stored path (encode text) := by
  have hsteps := dump_steps p output tree
  rw [h] at hsteps
  cases hsteps with
  | saved hpath hpretty hsave => exact ⟨hpath, _, hpretty, Tree.stored_of_save hsave⟩

/-- Saving the script leaves the dump where it is, and makes no directory. -/
theorem CompileSteps.stored (h : CompileSteps definitions output tree run)
    (hbeside : Tree.Beside path output) (hstored : tree.Stored path bytes) :
    run.tree.Stored path bytes ∧ Tree.Keeps tree run.tree ∧ Tree.Keeps run.tree tree := by
  cases h with
  | unsaved _ _ => exact ⟨hstored, .refl tree, .refl tree⟩
  | unwritten _ hsave => exact hstored.save_beside hbeside hsave
  | saved _ hsave => exact hstored.save_beside hbeside hsave

/-- What is read from a dump. -/
theorem readSource_of_stored (h : tree.Stored path (encode text)) :
    readSource tree path = .ok (unifiedText text) := by
  unfold readSource
  rw [h.read]
  dsimp only
  rw [Text.Utf8.decode_encode]
  rfl

/-! ## Compiling again -/

/-- A dump can be saved once more in its place. -/
theorem dump_of_stored (hpath : dumpPath? output = some path) (hpretty : p.pretty = .ok text)
    (hstored : tree.Stored path bytes) : ∃ tree', dump p output tree = (tree', .ok path) ∧
      Tree.Keeps tree tree' ∧ Tree.Keeps tree' tree := by
  obtain ⟨place, -, hfree, hsave⟩ := Tree.save_of_free hstored.directory hstored.free
  refine ⟨tree.put place (.file (encode text)), ?_, Tree.keeps_put hfree _,
    Tree.keeps_of_put_file hfree _⟩
  unfold dump
  rw [hpath]
  dsimp only
  rw [hpretty]
  dsimp only
  rw [hsave]

/-- Where there is a dump already, saving another one does not matter. -/
theorem compileProgram_result (settings : Settings) (hpath : dumpPath? output = some path)
    (hpretty : p.pretty = .ok text) (hstored : tree.Stored path bytes) :
    (compileProgram settings p output tree).result =
      orBlocked (generate p.definitions) (tree.blocked? output) := by
  have hbeside := beside_dumpPath hpath
  have hdir := hstored.directory_beside hbeside
  unfold compileProgram
  cases settings.wantsDump with
  | false => exact (compile_steps _ _ _).result_eq hdir
  | true =>
    obtain ⟨tree', hdump, hkeeps, hkeeps'⟩ := dump_of_stored hpath hpretty hstored
    rw [if_pos rfl, hdump]
    dsimp only
    rw [(compile_steps _ _ _).result_eq (hkeeps.hasDirectory hdir),
      hstored.blocked?_beside hbeside hkeeps hkeeps']

end

section

variable {settings : Settings} {input output path : Path} {tree tree' : Tree} {source : String}
  {p : Ir.Program}

theorem compileFile_of_read (hread : readSource tree input = .ok source)
    (hprogram : Ir.Program.read source = .ok p) :
    compileFile settings input output tree = compileProgram settings p output tree := by
  unfold compileFile
  rw [hread]
  dsimp only
  rw [hprogram]

/-- An outcome of compiling a program is that of its definitions. -/
theorem generate_of_compileFile {outcome : Outcome} (hread : readSource tree input = .ok source)
    (hprogram : Ir.Program.read source = .ok p)
    (h : (compileFile settings input output tree).result = .ok outcome) :
    generate p.definitions = .ok outcome := by
  rw [compileFile_of_read hread hprogram] at h
  unfold compileProgram at h
  cases hwanted : settings.wantsDump with
  | false =>
    rw [hwanted] at h
    exact (compile_steps _ _ _).generate_of_result h
  | true =>
    rw [hwanted, if_pos rfl] at h
    cases hdump : dump p output tree with
    | mk tree' result =>
      rw [hdump] at h
      cases result with
      | error fault => cases h
      | ok path => exact (compile_steps _ _ _).generate_of_result h

end

/-! ## Reading a dump -/

/-- What a dump is good for after the compilation that saved it. -/
structure Reread (p : Ir.Program) (output path : Path) (run : Run) : Prop where
  /-- It is read as the program with the line ends in its texts unified. -/
  unified : ∃ back, readSource run.tree path = .ok back ∧
    Ir.Program.read back = Ir.readProgram p.datum.unified
  /-- That is the program itself exactly if no text in it has a carriage return. -/
  faithful : (∃ back, readSource run.tree path = .ok back ∧ Ir.Program.read back = .ok p) ↔
    p.NoReturns
  /-- What is read is then equal to the program, unless a constant in it is no number. -/
  same : p.NoReturns → p.noNaN = true →
    ∃ back q, readSource run.tree path = .ok back ∧ Ir.Program.read back = .ok q ∧ p.same q = true
  /-- Compiling the dump in place of the input then comes to the same result, whatever it is. -/
  again : p.NoReturns → ∀ settings,
    (compileFile settings path output run.tree).result = run.result
  /-- And with another output, it comes to the same script or the same diagnostic. -/
  elsewhere : p.NoReturns → ∀ settings output' outcome outcome', run.result = .ok outcome →
    (compileFile settings path output' run.tree).result = .ok outcome' → outcome' = outcome

/-- **Dumps are read back**, exactly those of programs without carriage returns. -/
theorem dump_reread (settings : Settings) (input output path : Path) (tree : Tree) (source : String)
    (p : Ir.Program) (hread : readSource tree input = .ok source)
    (hprogram : Ir.Program.read source = .ok p) (hwanted : settings.wantsDump = true)
    (hdump : (dump p output tree).2 = .ok path) :
    Reread p output path (compileFile settings input output tree) := by
  have hp := Ir.isWritable_of_read hprogram
  obtain ⟨tree', hdump⟩ : ∃ tree', dump p output tree = (tree', .ok path) :=
    ⟨_, Prod.ext rfl hdump⟩
  obtain ⟨hpath, text, hpretty, hstored⟩ := stored_of_dump hdump
  have hcompile :
      CompileSteps p.definitions output tree' (compileFile settings input output tree) := by
    rw [compileFile_of_read hread hprogram, compileProgram, if_pos hwanted, hdump]
    exact (compile_steps _ _ _).withEvents _
  generalize compileFile settings input output tree = run at hcompile
  -- the dump is still there after the script, and the same can be saved
  have hbeside := beside_dumpPath hpath
  obtain ⟨hafter, hkeeps, hkeeps'⟩ := hcompile.stored hbeside hstored
  have hblocked := hstored.blocked?_beside hbeside hkeeps hkeeps'
  have hback := readSource_of_stored hafter
  have hunified := hp.read_unifiedText hpretty
  have hfaithful : Ir.Program.read (unifiedText text) = .ok p ↔ p.NoReturns := by
    rw [hunified]
    exact hp.readProgram_unified_iff
  refine ⟨⟨_, hback, hunified⟩, ⟨?_, fun h => ⟨_, hback, hfaithful.2 h⟩⟩, fun h hnan => ?_,
    fun h settings' => ?_, fun h settings' output' outcome outcome' hresult hagain => ?_⟩
  · rintro ⟨back, hread', hprogram'⟩
    cases hback.symm.trans hread'
    exact hfaithful.1 hprogram'
  · exact ⟨_, p, hback, hfaithful.2 h, by rw [Ir.Program.same_self, hnan]⟩
  · rw [compileFile_of_read hback (hfaithful.2 h),
      compileProgram_result settings' hpath hpretty hafter, hblocked,
      hcompile.result_eq (hstored.directory_beside hbeside)]
  · have hgenerate := generate_of_compileFile hback (hfaithful.2 h) hagain
    have houtcome := hcompile.generate_of_result hresult
    exact Except.ok.inj (hgenerate.symm.trans houtcome)

/-- A function that returns a text. -/
def textProgram (s : String) : Ir.Program :=
  ⟨[{ name := .plain "f", params := [], body := .const (.str s) }]⟩

/-- It stands in a file, on one line, where every line end in the text is escaped. -/
def textProgramTree (s : String) : Tree := ⟨[(["in"], .file (encode (textProgram s).flat))], []⟩

/-- A text with quotes and newlines is not changed by a dump. -/
theorem dump_reread_newline :
    (textProgram "a\n\"b").NoReturns ∧
      Reread (textProgram "a\n\"b") ⟨"", ["out.vim"]⟩ ⟨"", ["out.ir.sexpr"]⟩
        (compileFile { dumpIr := some "1" } ⟨"", ["in"]⟩ ⟨"", ["out.vim"]⟩
          (textProgramTree "a\n\"b")) := by
  have hstored : (textProgramTree "a\n\"b").Stored ⟨"", ["in"]⟩
      (encode (textProgram "a\n\"b").flat) :=
    ⟨⟨[], by decide +kernel, rfl⟩, ["in"], by decide +kernel, by decide +kernel⟩
  have hwritable : (textProgram "a\n\"b").IsWritable := by
    intro d hd
    rw [textProgram, List.mem_singleton] at hd
    subst hd
    exact ⟨rfl, fun n hn => absurd hn List.not_mem_nil, trivial⟩
  have hflat : unifiedText (textProgram "a\n\"b").flat = (textProgram "a\n\"b").flat :=
    Sexp.unifiedText_eq_self (by decide +kernel)
  have hread := readSource_of_stored hstored
  rw [hflat] at hread
  have hdump : (dump (textProgram "a\n\"b") ⟨"", ["out.vim"]⟩ (textProgramTree "a\n\"b")).2 =
      .ok ⟨"", ["out.ir.sexpr"]⟩ := by
    rfl
  exact ⟨by decide +kernel, dump_reread { dumpIr := some "1" } ⟨"", ["in"]⟩ ⟨"", ["out.vim"]⟩ _ _ _
    _ hread hwritable.read_flat rfl hdump⟩

/-- **A carriage return is lost in a dump**: the script of the program has it, and the script of its
dump has a newline in its place. -/
theorem carriageReturn_redumped :
    ∃ run, run = compileFile { dumpIr := some "1" } ⟨"", ["in"]⟩ ⟨"", ["out.vim"]⟩
        (textProgramTree "a\rb") ∧
      run.text? = some ("function! s:Idris_f() abort\n  return \"a\\rb\"\nendfunction\n\n" ++
        "call s:Idris__123_runMain_95_0_125_()\n") ∧
      (compileFile {} ⟨"", ["out.ir.sexpr"]⟩ ⟨"", ["again.vim"]⟩ run.tree).text? =
        some ("function! s:Idris_f() abort\n  return \"a\\nb\"\nendfunction\n\n" ++
          "call s:Idris__123_runMain_95_0_125_()\n") :=
  ⟨_, rfl, by decide +kernel, by decide +kernel⟩

end Vimgen.Compile
