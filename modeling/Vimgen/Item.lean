import Vimgen.Ir.Shape
import Vimgen.Ir.Writer
import Vimgen.Lower.Expr

/-!
# Items: values of any kind

The stages of the compiler ask for a part of a program of one kind. An `Item` is a value of any
kind, the general kinds that have no rules of their own among them, and the functions here say what
each stage makes of it: an item of the right kind is passed on, and any other one is refused.
-/

namespace Vimgen

open Inspect (Shape)
open Lower (LowerError)

/-- A value of any kind. -/
inductive Item where
  | expr (e : Ir.Expr)
  | anyExpr
  | var (v : Ir.Var)
  | anyVar
  | alt (a : Ir.Alt)
  | anyAlt (body : Ir.Expr)
  | const (c : Ir.Const)
  | descriptor (d : Ir.Descriptor)
  | program (p : Ir.Program)
  | text (s : String)
  | integer (n : Int)
  | absent
  | alien (kind : String)

/-- Why a stage refuses an item. -/
inductive ItemError where
  | lower (e : LowerError)
  | write (message : String)
  | unprintable (e : Sexp.Datum.Unprintable)
  | abstract (message : String)
  | lacks (kind feature : String)

/-- The wording of the refusal. -/
def ItemError.message : ItemError → String
  | .lower e => e.message
  | .write message => message
  | .unprintable e => e.message
  | .abstract message => message
  | .lacks kind feature => s!"'{kind}' object has no attribute '{feature}'"

namespace Item

/-- The item as it is shown in full. -/
def shape : Item → Shape
  | .expr e => e.shape
  | .anyExpr => .record "ExpressionIR" []
  | .var v => v.shape
  | .anyVar => .record "LVar" []
  | .alt a => a.shape
  | .anyAlt body => .record "AltIR" [.mk "body" body.shape]
  | .const c => c.shape
  | .descriptor d => d.shape
  | .program p => p.shape
  | .text s => .text s
  | .integer n => .atom (Numeral.intText n)
  | .absent => .atom "None"
  | .alien kind => .record kind []

/-- The item in full, on one line. -/
def inspect (i : Item) : String := i.shape.oneLine

/-- The item as messages mention it. -/
def display : Item → String
  | .const c => c.display
  | .descriptor d => d.display
  | .text s => s
  | i => i.inspect

/-- The name of the item's kind. -/
def kind : Item → String
  | .text _ => "str"
  | .integer _ => "int"
  | .absent => "NoneType"
  | i =>
    match i.shape with
    | .record name _ => name
    | _ => ""

/-- The item as an expression to be lowered. -/
def asExpr : Item → Except ItemError Ir.Expr
  | .expr e => .ok e
  | i => .error (.lower (.expression i.kind))

/-- Lowers an item in tail position. -/
def lower (i : Item) : Except ItemError Script.Block := do
  (Lower.lower Env.empty Lower.returnValue (← i.asExpr)).mapError .lower

/-- Lowers a binding of an item that has no other use. -/
def lowerBound (i : Item) : Except ItemError Script.Block := do
  (Lower.lower Env.empty Lower.returnValue (.bind (.loc 0) (← i.asExpr) .nothing)).mapError .lower

/-- Lowers an item as a constant. -/
def lowerConst : Item → Except ItemError Script.Expr
  | .const c => (Lower.lowerConst c).mapError .lower
  | i => .error (.lower (.constant i.display))

/-- Lowers an item as a foreign function without arguments. -/
def lowerForeign : Item → Except ItemError Script.Block
  | .descriptor d => (Lower.lowerForeign d [] Lower.returnValue).mapError .lower
  | i => .error (.lower (.foreign i.display))

/-- Lays out what is written of an item. -/
def layOut (d : Sexp.Datum) : Except ItemError String := (Ir.layOut d).mapError .unprintable

/-- Writes an item. -/
def write : Item → Except ItemError String
  | .expr e => layOut e.datum
  | .var v => layOut v.datum
  | .alt a => layOut a.datum
  | .program p => layOut p.datum
  | i => .error (.write s!"cannot serialize {i.kind}")

/-- Writes an expression that is the constant item. -/
def writeConst : Item → Except ItemError String
  | .const c => layOut (Ir.Expr.const c).datum
  | i => .error (.write s!"cannot serialize constant {i.inspect}")

/-- Writes a foreign call, without arguments, of the item. -/
def writeForeign : Item → Except ItemError String
  | .descriptor d => layOut (Ir.Expr.foreign d [] none).datum
  | i => .error (.write s!"cannot serialize foreign descriptor {i.inspect}")

/-- What a visitor that can do nothing makes of an item. Kinds without rules say so, and the rest
of the expressions and alternatives look for their rule. -/
def visit : Item → ItemError
  | .anyExpr => .abstract "accept() not implemented for ExpressionIR"
  | .anyAlt _ => .abstract "accept() not implemented for AltIR"
  | .alt (.const _ _) => .lacks "NoneType" "visit_const_case"
  | .alt (.con _ _ _ _ _) => .lacks "NoneType" "visit_con_case"
  | .alt (.default _) => .lacks "NoneType" "visit_default_case"
  | .expr e => .lacks "NoneType" (rule e)
  | i => .lacks i.kind "accept"
where
  rule : Ir.Expr → String
    | .var _ => "visit_var"
    | .app _ _ _ => "visit_app"
    | .bind _ _ _ => "visit_let"
    | .update _ _ => "visit_update"
    | .con _ _ _ _ => "visit_con"
    | .case _ _ _ _ => "visit_case"
    | .proj _ _ => "visit_proj"
    | .const _ => "visit_const"
    | .foreign _ _ _ => "visit_foreign"
    | .op _ _ => "visit_op"
    | .nothing => "visit_nothing"
    | .error _ => "visit_error"

/-- The name of an item that is a variable. -/
def variableName : Item → Except ItemError Name
  | .var v => .ok v.name
  | .anyVar => .error (.abstract "")
  | i => .error (.lacks i.kind "qualified_name")

end Item

end Vimgen
