import Vimgen.Diagnostic
import Vimgen.Ir.Shape
import Vimgen.Script.Shape

/-!
# What cannot be lowered
-/

namespace Vimgen.Lower

/-- Why an expression has no script. -/
inductive LowerError where
  | expression (kind : String)
  | bindsGlobal (name : Name)
  | constant (shown : String)
  | outOfRange (value : Int)
  | readsText
  | primitive (op : Ir.PrimOp) (args : Nat)
  | foreign (shown : String)
  | foreignArity (tag : Ir.ForeignTag) (found : Nat)
  | notAReference (target : Script.Expr)
  /-- A slot whose number has too many digits to be spelled. -/
  | slotDigits

namespace LowerError

/-- The wording of an error. -/
def message : LowerError → String
  | .expression kind => s!"expression {kind} not compilable yet"
  | .bindsGlobal name => s!"let binding global {name.display} not supported"
  | .constant shown => s!"constant {shown} not compilable yet"
  | .outOfRange value => s!"integer literal {Numeral.intText value} does not fit a Vim Number"
  | .readsText => "cannot read strings using the Vimscript backend"
  | .primitive op args => s!"primitive {op.display} with {args} argument(s) not implemented"
  | .foreign shown => s!"foreign function not supported: {shown}"
  | .foreignArity tag found => s!"{tag.symbol} expects {tag.arity} argument(s), got {found}"
  | .notAReference target =>
    s!"{Ir.ForeignTag.listSetAt.symbol} needs a list reference, got {target.inspect}"
  | .slotDigits => Numeral.limitMessage

/-- The failure to report; a slot that cannot be spelled is none. -/
def failure? (e : LowerError) : Option Failure :=
  match e with
  | .expression _ | .bindsGlobal _ => some (.make .unsupported e.message (some "E0101") none)
  | .constant _ => some (.make .unsupported e.message (some "E0102") none)
  | .outOfRange _ =>
    some (.make .unsupported e.message (some "E0102")
      (some "arbitrary-precision integers are not supported"))
  | .readsText | .primitive _ _ => some (.make .unsupported e.message (some "E0103") none)
  | .foreign _ => some (.make .unsupported e.message (some "E0104") none)
  | .foreignArity _ _ => some (.make .malformedCall e.message none none)
  | .notAReference _ =>
    some (.make .malformedCall e.message none
      (some "bind the list to a local variable before updating it"))
  | .slotDigits => none

end LowerError

end Vimgen.Lower
