import Vimgen.Compile.Fault
import Vimgen.Settings
import Vimgen.Ir.Reader
import Vimgen.Ir.Writer
import Vimgen.Lower.Trace
import Vimgen.Script.Draft

/-!
# Compilation

`generate` makes the text of a script from definitions. `compile` saves it, if there is one, and
`compileFile` starts from a file of the tree, and writes the program it read next to the script
when asked to. Nothing is saved of a program with a failure.
-/

namespace Vimgen.Compile

open Files (Path Tree)

/-- The result of a compilation: a script and its text, or a diagnostic. -/
inductive Outcome where
  | success (program : Script.Program) (text : String)
  | failure (diagnostic : Diagnostic)

namespace Outcome

/-- Whether there is a script. -/
def isSuccess : Outcome → Bool
  | .success _ _ => true
  | .failure _ => false

/-- The text of the script, if there is one. -/
def text? : Outcome → Option String
  | .success _ text => some text
  | .failure _ => none

/-- The diagnostics reported. -/
def diagnostics : Outcome → List Diagnostic
  | .success _ _ => []
  | .failure d => [d]

end Outcome

/-- The script of some definitions. -/
def generate (definitions : List Ir.Definition) : Except Fault Outcome :=
  match Lower.lowerProgram definitions with
  | .error e =>
    match e.failure? with
    | some f => .ok (.failure f.diagnostic)
    | none => .error .slotDigits
  | .ok program =>
    match program.render Script.defaultIndent with
    | .error e => .error (.render e)
    | .ok text => .ok (.success program text)

/-- What is noted while compiling. -/
inductive Event where
  | lowering (event : Lower.Event)
  | dumped (path : Path)
  | wrote (characters : Nat) (path : Path)
  deriving DecidableEq, Repr

/-- The part of the program that an event comes from. -/
def Event.source : Event → String
  | .lowering event => event.source
  | .dumped _ => "idrisvim.compiler.driver"
  | .wrote _ _ => "idrisvim.compiler.driver"

/-- What the log says of an event. -/
def Event.text : Event → String
  | .lowering event => event.text
  | .dumped path => s!"[driver] dumped IR to {path.text}"
  | .wrote characters path => s!"[driver] wrote {characters} characters to {path.text}"

/-- A line of the log. -/
def Event.line (e : Event) : String := s!"DEBUG {e.source}: {e.text}\n"

/-- A compilation: the files after it, what was noted, and its result. -/
structure Run where
  tree : Tree
  events : List Event
  result : Except Fault Outcome

/-- Compiles definitions, and saves the script if there is one. -/
def compile (definitions : List Ir.Definition) (output : Path) (tree : Tree) : Run :=
  let events := (Lower.programEvents definitions).map Event.lowering
  match generate definitions with
  | .ok (.success program text) =>
    match tree.save output (Text.Utf8.encode text) with
    | (tree', none) => ⟨tree', events ++ [.wrote text.length output], .ok (.success program text)⟩
    | (tree', some e) => ⟨tree', events, .error (.system e)⟩
  | result => ⟨tree, events, result⟩

/-- The text of a file. -/
def readSource (tree : Tree) (input : Path) : Except Fault String :=
  match tree.read input with
  | .error e => .error (.system e)
  | .ok bytes =>
    match Text.Utf8.decode bytes with
    | .error fault => .error (.undecodable fault)
    | .ok text => .ok (String.ofList (Text.Utf8.unifyNewlines text))

/-- The end of the name of a dump. -/
def dumpSuffix : String := ".ir.sexpr"

/-- The path of a dump, next to the output. -/
def dumpPath? (output : Path) : Option Path := output.withName? (output.stem ++ dumpSuffix)

/-- Saves the program that was read. -/
def dump (program : Ir.Program) (output : Path) (tree : Tree) : Tree × Except Fault Path :=
  match dumpPath? output with
  | none => (tree, .error (.emptyName output))
  | some path =>
    match program.pretty with
    | .error e => (tree, .error (.unprintable e))
    | .ok text =>
      match tree.save path (Text.Utf8.encode text) with
      | (tree', none) => (tree', .ok path)
      | (tree', some e) => (tree', .error (.system e))

/-- Compiles a program, saving it before as it was read if that is wanted. -/
def compileProgram (settings : Settings) (program : Ir.Program) (output : Path) (tree : Tree) : Run :=
  if settings.wantsDump then
    match dump program output tree with
    | (tree', .error fault) => ⟨tree', [], .error fault⟩
    | (tree', .ok path) =>
      let run := compile program.definitions output tree'
      { run with events := .dumped path :: run.events }
  else compile program.definitions output tree

/-- Compiles a file. -/
def compileFile (settings : Settings) (input output : Path) (tree : Tree) : Run :=
  match readSource tree input with
  | .error fault => ⟨tree, [], .error fault⟩
  | .ok text =>
    match Ir.Program.read text with
    | .ok program => compileProgram settings program output tree
    | .error e =>
      match ofReadFault e with
      | .inl failure => ⟨tree, [], .ok (.failure failure.diagnostic)⟩
      | .inr fault => ⟨tree, [], .error fault⟩

end Vimgen.Compile
