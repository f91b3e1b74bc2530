import Vimgen.Command.Args
import Vimgen.Compile.Basic
import Vimgen.Script.Shape

/-!
# The command

`run` is the whole command as a function: from the words of the command line, the settings and the
files to what is printed, the exit status and the files afterwards.
-/

namespace Vimgen.Command

open Compile (Fault Outcome)
open Files (Path Tree)

/-- What the command did. -/
structure Execution where
  tree : Tree
  stdout : String := ""
  stderr : String := ""
  /-- The exit status, or the fault that the command does not handle. -/
  status : Except Fault Nat := .ok 0

/-- How the command is used. -/
def usageLine : String := "usage: idrisvim [-h] [-o OUTPUT] [--dump-ast] [-v] file"

/-- What help shows. -/
def helpLines : List String :=
  [usageLine,
    "",
    "Compile simplified Idris IR to Vimscript.",
    "",
    "positional arguments:",
    "  file                  Path to .sexpr IR file",
    "",
    "options:",
    "  -h, --help            show this help message and exit",
    "  -o OUTPUT, --output OUTPUT",
    "                        Output script (default: input with .vim extension)",
    "  --dump-ast            Print the generated Vimscript AST",
    "  -v, --verbose         Enable debug logging"]

/-- A complaint of the command. -/
def complaint (message : String) : String := "idrisvim: error: " ++ message ++ "\n"

/-- The suffix of scripts. -/
def scriptSuffix : String := ".vim"

/-- Where the script goes: where the user wants it, or next to the input. -/
def outputPath (args : Args) (input : Path) : Path :=
  match args.output with
  | some text => .ofText text
  | none => (input.withSuffix? scriptSuffix).getD input

/-- Ends a compilation: complaints, diagnostics, or the script on request. -/
def conclude (settings : Settings) (args : Args) (tree : Tree) (log : String) :
    Except Fault Outcome → Execution
  | .error (.system e) =>
    if e.kind.isRefusal then { tree, stderr := log ++ complaint e.message, status := .ok 1 }
    else { tree, stderr := log, status := .error (.system e) }
  | .error (.undecodable e) => { tree, stderr := log ++ complaint e.message, status := .ok 1 }
  | .error fault => { tree, stderr := log, status := .error fault }
  | .ok (.failure d) =>
    { tree, stderr := log ++ Diagnostic.formatAll settings.useColor [d] ++ "\n", status := .ok 1 }
  | .ok (.success program _) =>
    { tree, stderr := log, stdout := if args.dumpAst then program.inspect ++ "\n" else "" }

/-- What is at the path of the input, which is looked up from the directory `tree.here`. -/
def inputStatus (path : Path) (tree : Tree) : Except Files.OsError (Option Files.Entry) :=
  if path.hasNull then .error ⟨.nullCharacter, path⟩ else tree.status (path.resolve tree.here)

/-- Compiles the file that the arguments name. -/
def runFile (settings : Settings) (args : Args) (file : String) (tree : Tree) : Execution :=
  let path := Path.ofText file
  let input := path.resolve tree.here
  match inputStatus path tree with
  | .error e => { tree, status := .error (.system e) }
  | .ok none => { tree, stderr := complaint s!"file not found: {input.text}", status := .ok 1 }
  | .ok (some .directory) =>
    { tree, stderr := complaint s!"not a file: {input.text}", status := .ok 1 }
  | .ok (some (.file _)) =>
    let done := Compile.compileFile settings input (outputPath args input) tree
    let log := if args.verbose then String.join (done.events.map (·.line)) else ""
    conclude settings args done.tree log done.result

/-- The command. -/
def run (settings : Settings) (words : List String) (tree : Tree) : Execution :=
  match Args.parse words with
  | .help => { tree, stdout := Script.joinLines helpLines }
  | .usage e => { tree, stderr := usageLine ++ "\n" ++ complaint e.message, status := .ok 2 }
  | .run file args => runFile settings args file tree

/-- The paths that the command may read or write. -/
def pathsOf (here : Files.Place) (words : List String) : List Path :=
  match Args.parse words with
  | .run file args =>
    let input := (Path.ofText file).resolve here
    let output := outputPath args input
    input :: output :: (Compile.dumpPath? output).toList
  | _ => []

end Vimgen.Command
