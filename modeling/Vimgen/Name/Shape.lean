import Vimgen.Inspect
import Vimgen.Name.Basic

/-!
# How names are shown

All kinds of names are shown with the same four fields, those a kind has no use for left empty.
-/

namespace Vimgen.Name

open Inspect

/-- The kind of a name, as it is shown. -/
def kindShape : Name → Shape
  | .topLevel _ _ => .member "NameKind" "TOP_LEVEL" "top_level"
  | .machine _ _ => .member "NameKind" "MACHINE" "machine"
  | .slot _ => .member "NameKind" "LOCAL" "local"

/-- The index of a name, as it is shown. -/
def indexShape : Name → Shape
  | .topLevel _ _ => .atom "None"
  | .machine _ index | .slot index => .atom (Numeral.intText index)

/-- The view of a name for messages. -/
def shape (n : Name) : Shape :=
  .record "QualifiedName"
    [.mk "kind" n.kindShape, .mk "name" (.text n.base),
      .mk "namespace" (.tuple (n.namespaces.map .text)), .mk "index" n.indexShape]

end Vimgen.Name
