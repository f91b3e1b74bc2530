import Vimgen.Command.Args
import Vimgen.Command.Run
import Vimgen.Compile.Basic
import Vimgen.Compile.Fault
import Vimgen.Diagnostic
import Vimgen.Env
import Vimgen.Files.Path
import Vimgen.Files.Tree
import Vimgen.Inspect
import Vimgen.Ir.Const
import Vimgen.Ir.Expr
import Vimgen.Ir.Foreign
import Vimgen.Ir.FormatError
import Vimgen.Ir.Primitive
import Vimgen.Ir.Reader
import Vimgen.Ir.Same
import Vimgen.Ir.Shape
import Vimgen.Ir.Writer
import Vimgen.Item
import Vimgen.Lower.Error
import Vimgen.Lower.Expr
import Vimgen.Lower.Leaf
import Vimgen.Lower.Program
import Vimgen.Lower.Trace
import Vimgen.Main
import Vimgen.Name.Basic
import Vimgen.Name.Mangle
import Vimgen.Name.Shape
import Vimgen.Number.Binary64
import Vimgen.Number.Numeral
import Vimgen.Number.Shortest
import Vimgen.Proofs.Alike
import Vimgen.Proofs.Alternatives
import Vimgen.Proofs.Compilation
import Vimgen.Proofs.Confinement
import Vimgen.Proofs.Continuations
import Vimgen.Proofs.Decoration
import Vimgen.Proofs.Denotes
import Vimgen.Proofs.Direct
import Vimgen.Proofs.Dumps
import Vimgen.Proofs.Emission
import Vimgen.Proofs.Env
import Vimgen.Proofs.Erasure
import Vimgen.Proofs.FileTree
import Vimgen.Proofs.FloatText
import Vimgen.Proofs.Flow
import Vimgen.Proofs.Generation
import Vimgen.Proofs.Grammar
import Vimgen.Proofs.History
import Vimgen.Proofs.Identifiers
import Vimgen.Proofs.Layout
import Vimgen.Proofs.Linking
import Vimgen.Proofs.Literal
import Vimgen.Proofs.Lowering
import Vimgen.Proofs.Malformed
import Vimgen.Proofs.Mangle
import Vimgen.Proofs.Meaning
import Vimgen.Proofs.NameForms
import Vimgen.Proofs.NameText
import Vimgen.Proofs.NormalForm
import Vimgen.Proofs.Numeral
import Vimgen.Proofs.Parts
import Vimgen.Proofs.Pieces
import Vimgen.Proofs.Preservation
import Vimgen.Proofs.ProgramText
import Vimgen.Proofs.Reading
import Vimgen.Proofs.Renaming
import Vimgen.Proofs.Renderable
import Vimgen.Proofs.Rereading
import Vimgen.Proofs.Result
import Vimgen.Proofs.Rounding
import Vimgen.Proofs.SavedFiles
import Vimgen.Proofs.Scoping
import Vimgen.Proofs.ScriptLines
import Vimgen.Proofs.ScriptTerms
import Vimgen.Proofs.ScriptText
import Vimgen.Proofs.Separate
import Vimgen.Proofs.Shortest
import Vimgen.Proofs.Simulation
import Vimgen.Proofs.Slots
import Vimgen.Proofs.Spelling
import Vimgen.Proofs.TailPosition
import Vimgen.Proofs.TextFiles
import Vimgen.Proofs.Unsupported
import Vimgen.Proofs.WellPlaced
import Vimgen.Proofs.Writable
import Vimgen.Script.Basic
import Vimgen.Script.Draft
import Vimgen.Script.Literal
import Vimgen.Script.Renderer
import Vimgen.Script.Shape
import Vimgen.Script.Text
import Vimgen.Settings
import Vimgen.Sexp.Datum
import Vimgen.Sexp.Printer
import Vimgen.Sexp.Reader
import Vimgen.Sexp.Token
import Vimgen.Text.Quoted
import Vimgen.Text.Ranges
import Vimgen.Text.Unassigned
import Vimgen.Text.Utf8
import Vimgen.Text.Wrapped
