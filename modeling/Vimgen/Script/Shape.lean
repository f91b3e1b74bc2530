import Vimgen.Script.Basic
import Vimgen.Inspect
import Vimgen.Number.Numeral

/-!
# How scripts are shown

The view of script syntax for messages and dumps: a record for every node, named by its kind.
-/

namespace Vimgen.Script

open Inspect

/-- The name of a scope in upper case. -/
def Scope.member : Scope → String
  | .global => "GLOBAL"
  | .script => "SCRIPT"
  | .local => "LOCAL"
  | .argument => "ARGUMENT"
  | .builtin => "BUILTIN"

/-- The view of a scope. -/
def Scope.shape (s : Scope) : Shape := .member "Scope" s.member s.mark

/-- The view of a scoped name. -/
def ScopedName.shape (n : ScopedName) : Shape :=
  .record "ScopedName" [.mk "scope" n.scope.shape, .mk "name" (.text n.base)]

/-- The name of an operator in upper case. -/
def BinOp.member : BinOp → String
  | .add => "ADD"
  | .subtract => "SUBTRACT"
  | .multiply => "MULTIPLY"
  | .equals => "EQUALS"
  | .lt => "LT"
  | .lte => "LTE"
  | .gt => "GT"
  | .gte => "GTE"
  | .concat => "CONCAT"
  | .listConcat => "LIST_CONCAT"

/-- The view of an operator. -/
def BinOp.shape (op : BinOp) : Shape := .member "BinOp" op.member op.name

mutual

/-- The view of an expression. -/
def Expr.shape : Expr → Shape
  | .int value => .record "IntLit" [.mk "value" (.atom (Numeral.intText value))]
  | .str value => .record "StrLit" [.mk "value" (.text value)]
  | .list items => .record "ListLit" [.mk "items" (.tuple (exprShapes items))]
  | .ref name => .record "Ref" [.mk "name" name.shape]
  | .apply function args =>
    .record "Apply" [.mk "func" function.shape, .mk "args" (.tuple (exprShapes args))]
  | .binary op left right =>
    .record "BinOpApply" [.mk "op" op.shape, .mk "left" left.shape, .mk "right" right.shape]
  | .proj base projection =>
    .record "Proj" [.mk "expr" base.shape, .mk "proj" projection.shape]
  | .stray node => node.shape

def exprShapes : List Expr → List Shape
  | [] => []
  | e :: rest => e.shape :: exprShapes rest

/-- The view of a projection. -/
def Projection.shape : Projection → Shape
  | .single index => .record "ProjSingle" [.mk "index" index.shape]
  | .onward start => .record "ProjFrom" [.mk "start" start.shape]
  | .stray node => node.shape

/-- The view of an assignment target. -/
def Target.shape : Target → Shape
  | .name n => .record "AssignName" [.mk "name" n.shape]
  | .item base projection =>
    .record "AssignProj" [.mk "target" base.shape, .mk "proj" projection.shape]
  | .stray node => node.shape

/-- The view of a statement. -/
def Stmt.shape : Stmt → Shape
  | .bind name value => .record "Let" [.mk "name" name.shape, .mk "value" value.shape]
  | .assign target value => .record "Assign" [.mk "target" target.shape, .mk "value" value.shape]
  | .ret value => .record "Return" [.mk "value" value.shape]
  | .call name args =>
    .record "Call" [.mk "name" name.shape, .mk "args" (.tuple (exprShapes args))]
  | .command command arg =>
    .record "BuiltInStmt" [.mk "command" (.text command), .mk "arg" arg.shape]
  | .cond arms none =>
    .record "If" [.mk "arms" (.tuple (armShapes arms)), .mk "default" (.atom "None")]
  | .cond arms (some default) =>
    .record "If"
      [.mk "arms" (.tuple (armShapes arms)), .mk "default" (.tuple (stmtShapes default))]
  | .function name params body =>
    .record "Function"
      [.mk "name" name.shape, .mk "args" (.tuple (params.map .text)),
        .mk "body" (.tuple (stmtShapes body))]
  | .stray node => node.shape

def stmtShapes : List Stmt → List Shape
  | [] => []
  | s :: rest => s.shape :: stmtShapes rest

/-- The view of an arm. -/
def Arm.shape : Arm → Shape
  | .mk test body =>
    .record "CondArm" [.mk "test" test.shape, .mk "body" (.tuple (stmtShapes body))]

def armShapes : List Arm → List Shape
  | [] => []
  | a :: rest => a.shape :: armShapes rest

/-- The view of a node. -/
def Node.shape : Node → Shape
  | .expr e => e.shape
  | .projection p => p.shape
  | .target t => t.shape
  | .stmt s => s.shape
  | .arm a => a.shape
  | .program items => .record "Program" [.mk "items" (.tuple (stmtShapes items))]
  | .alien kind => .record kind []

end

/-- The expression on one line. -/
def Expr.inspect (e : Expr) : String := e.shape.oneLine

/-- The script within eighty columns. -/
def Program.inspect (p : Program) : String := (Node.program p.items).shape.layout 80 0 0

end Vimgen.Script
