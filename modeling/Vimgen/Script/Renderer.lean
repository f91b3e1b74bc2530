import Vimgen.Script.Draft

/-!
# A renderer that is used again and again

A `Renderer` collects lines over any number of requests. A request that fails leaves the lines it
had written, and the indentation of the blocks it was in; only `render` starts afresh.
-/

namespace Vimgen.Script

/-- Lines written so far, and the depth at which the next ones are written. -/
structure Renderer where
  indentText : String := defaultIndent
  indent : Nat := 0
  lines : List String := []
  deriving DecidableEq, Repr

namespace Renderer

/-- Writes a draft at the current depth. -/
def write (r : Renderer) (d : Draft) : Renderer × Option RenderError :=
  ({ r with
      lines := r.lines ++ d.lines.map (·.write r.indentText r.indent)
      indent := r.indent + (d.halt.map Halt.openBlocks).getD 0 },
    d.halt.map Halt.error)

/-- Writes a statement. -/
def emit (r : Renderer) (s : Stmt) : Renderer × Option RenderError := r.write s.draft

/-- Writes statements as a block of their own. -/
def emitBlock (r : Renderer) (b : Block) : Renderer × Option RenderError :=
  r.write (blockDraft b).nest

/-- Writes a script on its own: what was written before is dropped. -/
def render (r : Renderer) (p : Program) : Renderer × Except RenderError String :=
  let (r', failed) := { r with indent := 0, lines := [] }.write (blockDraft p.items)
  match failed with
  | some e => (r', .error e)
  | none => (r', .ok (joinLines r'.lines))

end Renderer

end Vimgen.Script
