import Vimgen.Script.Basic
import Vimgen.Script.Literal
import Vimgen.Number.Numeral

/-!
# The text of expressions

`Expr.text` writes an expression: binary operations in parentheses, and a blank before the colon of
a projection, so that the colon is not read as part of a scoped name. Stray nodes have no text, nor
have integers of too many digits; `Expr.fault?` is the first of these in the order in which the
parts are written, where the arguments of an application come before its function.
-/

namespace Vimgen.Script

/-- Why a tree cannot be rendered. -/
inductive RenderError where
  | statement (kind : String)
  | expression (kind : String)
  | projection (kind : String)
  | target (kind : String)
  | digits
  | noArms
  deriving DecidableEq, Repr

/-- The wording of a failure. -/
def RenderError.message : RenderError → String
  | .statement kind => s!"cannot render statement {kind}"
  | .expression kind => s!"cannot render expression {kind}"
  | .projection kind => s!"cannot render projection {kind}"
  | .target kind => s!"cannot render assignment target {kind}"
  | .digits => Numeral.limitMessage
  | .noArms => "not enough values to unpack (expected at least 1, got 0)"

/-- Arguments and items are separated by commas. -/
def commaList (parts : List String) : String := String.intercalate ", " parts

mutual

/-- The text of an expression. -/
def Expr.text : Expr → String
  | .int value => Numeral.intText value
  | .str value => literal value
  | .list items => "[" ++ commaList (exprTexts items) ++ "]"
  | .ref name => name.text
  | .apply function args => function.text ++ "(" ++ commaList (exprTexts args) ++ ")"
  | .binary op left right => "(" ++ left.text ++ " " ++ op.text ++ " " ++ right.text ++ ")"
  | .proj base projection => base.text ++ projection.text
  | .stray _ => ""

/-- The text of a projection, which follows what it selects from. -/
def Projection.text : Projection → String
  | .single index => "[" ++ index.text ++ "]"
  | .onward start => "[" ++ start.text ++ " :]"
  | .stray _ => ""

def exprTexts : List Expr → List String
  | [] => []
  | e :: rest => e.text :: exprTexts rest

end

/-- The text of an assignment target. -/
def Target.text : Target → String
  | .name n => n.text
  | .item base projection => base.text ++ projection.text
  | .stray _ => ""

mutual

/-- The first part of an expression that cannot be written. -/
def Expr.fault? : Expr → Option RenderError
  | .int value => if Numeral.digitCount value ≤ Numeral.digitLimit then none else some .digits
  | .str _ | .ref _ => none
  | .list items => exprsFault? items
  | .apply function args => (exprsFault? args).or function.fault?
  | .binary _ left right => left.fault?.or right.fault?
  | .proj base projection => base.fault?.or projection.fault?
  | .stray node => some (.expression node.kind)

/-- The first part of a projection that cannot be written. -/
def Projection.fault? : Projection → Option RenderError
  | .single index => index.fault?
  | .onward start => start.fault?
  | .stray node => some (.projection node.kind)

def exprsFault? : List Expr → Option RenderError
  | [] => none
  | e :: rest => e.fault?.or (exprsFault? rest)

end

/-- The first part of an assignment target that cannot be written. -/
def Target.fault? : Target → Option RenderError
  | .name _ => none
  | .item base projection => base.fault?.or projection.fault?
  | .stray node => some (.target node.kind)

/-- The text of an expression that can be rendered. -/
def Expr.render (e : Expr) : Except RenderError String :=
  match e.fault? with
  | some error => .error error
  | none => .ok e.text

end Vimgen.Script
