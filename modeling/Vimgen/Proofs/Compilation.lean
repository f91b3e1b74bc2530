import Vimgen.Compile.Basic

/-!
# The ways a compilation can go

`CompileSteps`, `DumpSteps` and `FileSteps` list how compiling definitions, dumping a program, and
compiling a file can end: one rule for each step that can be the last one, with what was done before
it.
`compile_steps`, `dump_steps` and `compileFile_steps` say that there are no other ways, so that
proofs about files, dumps and faults go through these rules and never open the definitions.
-/

namespace Vimgen.Compile

open Files (OsError Path Tree)

/-- How compiling definitions can end. -/
inductive CompileSteps (definitions : List Ir.Definition) (output : Path) (tree : Tree) : Run → Prop
  /-- There is no script, and nothing is saved. -/
  | unsaved {events : List Event} {result : Except Fault Outcome}
    (hgenerate : generate definitions = result)
    (hresult : ∀ program text, result ≠ .ok (.success program text)) :
    CompileSteps definitions output tree ⟨tree, events, result⟩
  | unwritten {events : List Event} {program : Script.Program} {text : String} {tree' : Tree}
    {e : OsError} (hgenerate : generate definitions = .ok (.success program text))
    (hsave : tree.save output (Text.Utf8.encode text) = (tree', some e)) :
    CompileSteps definitions output tree ⟨tree', events, .error (.system e)⟩
  | saved {events : List Event} {program : Script.Program} {text : String} {tree' : Tree}
    (hgenerate : generate definitions = .ok (.success program text))
    (hsave : tree.save output (Text.Utf8.encode text) = (tree', none)) :
    CompileSteps definitions output tree ⟨tree', events, .ok (.success program text)⟩

theorem compile_steps (definitions : List Ir.Definition) (output : Path) (tree : Tree) :
    CompileSteps definitions output tree (compile definitions output tree) := by
  unfold compile
  cases hgenerate : generate definitions with
  | error fault => exact .unsaved hgenerate nofun
  | ok outcome =>
    cases outcome with
    | failure diagnostic => exact .unsaved hgenerate nofun
    | success program text =>
      dsimp only
      cases hsave : tree.save output (Text.Utf8.encode text) with
      | mk tree' failed =>
        cases failed with
        | none => exact .saved hgenerate hsave
        | some e => exact .unwritten hgenerate hsave

/-- Events do not matter to how compiling definitions ends. -/
theorem CompileSteps.withEvents {definitions : List Ir.Definition} {output : Path} {tree : Tree}
    {run : Run} (h : CompileSteps definitions output tree run) (events : List Event) :
    CompileSteps definitions output tree { run with events } := by
  cases h with
  | unsaved hgenerate hresult => exact .unsaved hgenerate hresult
  | unwritten hgenerate hsave => exact .unwritten hgenerate hsave
  | saved hgenerate hsave => exact .saved hgenerate hsave

/-- How dumping a program can end. -/
inductive DumpSteps (program : Ir.Program) (output : Path) (tree : Tree) :
    Tree × Except Fault Path → Prop
  | nameless (hpath : dumpPath? output = none) :
    DumpSteps program output tree (tree, .error (.emptyName output))
  | unprintable {e : Sexp.Datum.Unprintable} (hpretty : program.pretty = .error e) :
    DumpSteps program output tree (tree, .error (.unprintable e))
  | unwritten {path : Path} {text : String} {tree' : Tree} {e : OsError}
    (hpath : dumpPath? output = some path) (hpretty : program.pretty = .ok text)
    (hsave : tree.save path (Text.Utf8.encode text) = (tree', some e)) :
    DumpSteps program output tree (tree', .error (.system e))
  | saved {path : Path} {text : String} {tree' : Tree}
    (hpath : dumpPath? output = some path) (hpretty : program.pretty = .ok text)
    (hsave : tree.save path (Text.Utf8.encode text) = (tree', none)) :
    DumpSteps program output tree (tree', .ok path)

theorem dump_steps (program : Ir.Program) (output : Path) (tree : Tree) :
    DumpSteps program output tree (dump program output tree) := by
  unfold dump
  cases hpath : dumpPath? output with
  | none => exact .nameless hpath
  | some path =>
    dsimp only
    cases hpretty : program.pretty with
    | error e => exact .unprintable hpretty
    | ok text =>
      dsimp only
      cases hsave : tree.save path (Text.Utf8.encode text) with
      | mk tree' failed =>
        cases failed with
        | none => exact .saved hpath hpretty hsave
        | some e => exact .unwritten hpath hpretty hsave

/-- How compiling a file can end. -/
inductive FileSteps (settings : Settings) (input output : Path) (tree : Tree) : Run → Prop
  | unread {fault : Fault} (hread : readSource tree input = .error fault) :
    FileSteps settings input output tree ⟨tree, [], .error fault⟩
  | malformed {source : String} {e : Ir.ReadFault} {failure : Failure}
    (hread : readSource tree input = .ok source) (hprogram : Ir.Program.read source = .error e)
    (hfailure : ofReadFault e = .inl failure) :
    FileSteps settings input output tree ⟨tree, [], .ok (.failure failure.diagnostic)⟩
  /-- A number in the source is too large to be read. -/
  | oversized {source : String} {e : Ir.ReadFault} {fault : Fault}
    (hread : readSource tree input = .ok source) (hprogram : Ir.Program.read source = .error e)
    (hfault : ofReadFault e = .inr fault) :
    FileSteps settings input output tree ⟨tree, [], .error fault⟩
  | undumped {source : String} {program : Ir.Program} {tree' : Tree} {fault : Fault}
    (hread : readSource tree input = .ok source) (hprogram : Ir.Program.read source = .ok program)
    (hwanted : settings.wantsDump = true)
    (hdump : dump program output tree = (tree', .error fault)) :
    FileSteps settings input output tree ⟨tree', [], .error fault⟩
  | dumped {source : String} {program : Ir.Program} {tree' : Tree} {path : Path} {run : Run}
    (hread : readSource tree input = .ok source) (hprogram : Ir.Program.read source = .ok program)
    (hwanted : settings.wantsDump = true) (hdump : dump program output tree = (tree', .ok path))
    (hcompile : CompileSteps program.definitions output tree' run) :
    FileSteps settings input output tree run
  | plain {source : String} {program : Ir.Program} {run : Run}
    (hread : readSource tree input = .ok source) (hprogram : Ir.Program.read source = .ok program)
    (hwanted : settings.wantsDump = false)
    (hcompile : CompileSteps program.definitions output tree run) :
    FileSteps settings input output tree run

theorem compileFile_steps (settings : Settings) (input output : Path) (tree : Tree) :
    FileSteps settings input output tree (compileFile settings input output tree) := by
  unfold compileFile
  cases hread : readSource tree input with
  | error fault => exact .unread hread
  | ok source =>
    dsimp only
    cases hprogram : Ir.Program.read source with
    | error e =>
      dsimp only
      cases hfault : ofReadFault e with
      | inl failure => exact .malformed hread hprogram hfault
      | inr fault => exact .oversized hread hprogram hfault
    | ok program =>
      dsimp only
      unfold compileProgram
      cases hwanted : settings.wantsDump with
      | false => exact .plain hread hprogram hwanted (compile_steps _ _ _)
      | true =>
        rw [if_pos rfl]
        cases hdump : dump program output tree with
        | mk tree' result =>
          cases result with
          | error fault => exact .undumped hread hprogram hwanted hdump
          | ok path =>
            exact .dumped hread hprogram hwanted hdump ((compile_steps _ _ _).withEvents _)

end Vimgen.Compile
