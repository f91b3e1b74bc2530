import Vimgen.Ir.Expr
import Vimgen.Name.Shape

/-!
# How programs are shown

The view of the intermediate language for messages.
-/

namespace Vimgen.Ir

open Inspect

def boolShape (b : Bool) : Shape := .atom (if b then "True" else "False")

def intShape (n : Int) : Shape := .atom (Numeral.intText n)

/-- The view of a variable. -/
def Var.shape : Var → Shape
  | .loc index => .record "Loc" [.mk "index" (intShape index)]
  | .glob name => .record "Glob" [.mk "name" name.shape]

def varShapes (vs : List Var) : Shape := .tuple (vs.map Var.shape)

/-- The name of an expression's kind. -/
def Expr.kind : Expr → String
  | .var _ => "VarExpr"
  | .app _ _ _ => "AppExpr"
  | .bind _ _ _ => "LetExpr"
  | .update _ _ => "UpdateExpr"
  | .con _ _ _ _ => "ConExpr"
  | .case _ _ _ _ => "CaseExpr"
  | .proj _ _ => "ProjExpr"
  | .const _ => "ConstExpr"
  | .foreign _ _ _ => "ForeignExpr"
  | .op _ _ => "OpExpr"
  | .nothing => "NothingExpr"
  | .error _ => "ErrorExpr"

mutual

/-- The view of an expression. -/
def Expr.shape : Expr → Shape
  | .var v => .record "VarExpr" [.mk "var" v.shape]
  | .app function args tailCall =>
    .record "AppExpr"
      [.mk "func" function.shape, .mk "args" (varShapes args), .mk "tail_call" (boolShape tailCall)]
  | .bind v value body =>
    .record "LetExpr" [.mk "var" v.shape, .mk "value" value.shape, .mk "body" body.shape]
  | .update v value => .record "UpdateExpr" [.mk "var" v.shape, .mk "value" value.shape]
  | .con tag name args reuse =>
    .record "ConExpr"
      [.mk "reuse" ((reuse.map Var.shape).getD (.atom "None")), .mk "tag" (intShape tag),
        .mk "name" name.shape, .mk "args" (varShapes args)]
  | .case scrutinee alts checked shared =>
    .record "CaseExpr"
      [.mk "scrutinee" scrutinee.shape, .mk "alts" (.tuple (altShapes alts)),
        .mk "checked" (boolShape checked), .mk "shared" (boolShape shared)]
  | .proj v index => .record "ProjExpr" [.mk "var" v.shape, .mk "index" (intShape index)]
  | .const c => .record "ConstExpr" [.mk "const" c.shape]
  | .foreign function args result =>
    .record "ForeignExpr"
      [.mk "ret_desc" ((result.map Descriptor.shape).getD (.atom "None")),
        .mk "desc" function.shape,
        .mk "args" (.tuple (args.map fun a => .tuple [a.type.shape, a.var.shape]))]
  | .op op args => .record "OpExpr" [.mk "op" op.shape, .mk "args" (varShapes args)]
  | .nothing => .record "NothingExpr" []
  | .error message => .record "ErrorExpr" [.mk "message" (.text message)]

/-- The view of an alternative; the body is its last field. -/
def Alt.shape : Alt → Shape
  | .const c body => .record "ConstCase" [.mk "const" c.shape, .mk "body" body.shape]
  | .con firstLocal tag name fields body =>
    .record "ConCase"
      [.mk "first_local" (intShape firstLocal), .mk "tag" (intShape tag), .mk "name" name.shape,
        .mk "args" (.tuple (fields.map Name.shape)), .mk "body" body.shape]
  | .default body => .record "DefaultCase" [.mk "body" body.shape]

def altShapes : List Alt → List Shape
  | [] => []
  | a :: rest => a.shape :: altShapes rest

end

/-- The view of a definition. -/
def Definition.shape (d : Definition) : Shape :=
  .record "FunctionDecl"
    [.mk "name" d.name.shape, .mk "args" (.tuple (d.params.map Name.shape)), .mk "body" d.body.shape]

/-- The view of a program. -/
def Program.shape (p : Program) : Shape :=
  .record "ProgramIR" [.mk "definitions" (.tuple (p.definitions.map Definition.shape))]

end Vimgen.Ir
