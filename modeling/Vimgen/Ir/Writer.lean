import Vimgen.Ir.Expr
import Vimgen.Sexp.Printer

/-!
# Writing programs

From programs to S-expressions (`Program.datum`), and on to text: laid out (`Program.pretty`) or on
one line (`Program.flat`). Hints for reuse, the type of a foreign result and sharing are not
written.
-/

namespace Vimgen.Ir

open Sexp (Datum)
open Sexp.Datum (Unprintable)

/-- The form with the given head. -/
def form (head : String) (fields : List Datum) : Datum := .list (.symbol head :: fields)

/-- A name is written as its text. -/
def nameDatum (n : Name) : Datum := .text n.display

/-- The S-expression of a constant. -/
def Const.datum : Const → Datum
  | .int value => form "int" [.integer value]
  | .bigInt value => form "bigint" [.integer value]
  | .float value => form "float" [.real value]
  | .char value => form "char" [.text (String.singleton value)]
  | .str value => form "str" [.text value]
  | .bits width value => form "bits" [.integer width, .integer value]
  | .world => form "world" []
  | .type name => form "type" [.text name]

mutual

/-- The S-expression of a foreign descriptor. -/
def Descriptor.datum : Descriptor → Datum
  | .con name => form "con" [.text name]
  | .str value => form "str" [.text value]
  | .app name args => form "app" (.text name :: descriptorData args)
  | .unknown => form "unknown" []

def descriptorData : List Descriptor → List Datum
  | [] => []
  | d :: rest => d.datum :: descriptorData rest

end

/-- The S-expression of a variable. -/
def Var.datum : Var → Datum
  | .loc index => form "loc" [.integer index]
  | .glob name => form "glob" [nameDatum name]

/-- The S-expression of a list of variables. -/
def varData (vs : List Var) : Datum := .list (vs.map Var.datum)

/-- The S-expression of an argument of a foreign call. -/
def ForeignArg.datum (a : ForeignArg) : Datum := .list [a.type.datum, a.var.datum]

/-- What is written between the tag and the arguments of a primitive. -/
def PrimOp.details (op : PrimOp) : Datum :=
  if op.tag = .external then (op.name.map Datum.text).getD .null
  else .list (op.types.map fun t => .symbol t.spelling)

mutual

/-- The S-expression of an expression. -/
def Expr.datum : Expr → Datum
  | .var v => form "var" [v.datum]
  | .app function args tailCall =>
    form (if tailCall then "app-tail" else "app") [nameDatum function, varData args]
  | .bind v value body => form "let" [v.datum, value.datum, body.datum]
  | .update v value => form "update" [v.datum, value.datum]
  | .con tag name args _ => form "con" [.integer tag, nameDatum name, varData args]
  | .case scrutinee alts checked _ =>
    form (if checked then "chkcase" else "case") (scrutinee.datum :: altData alts)
  | .proj v index => form "proj" [v.datum, .integer index]
  | .const c => form "const" [c.datum]
  | .foreign function args _ =>
    form "foreign" [function.datum, .list (args.map ForeignArg.datum)]
  | .op op args => form "op" [.symbol op.tag.spelling, op.details, varData args]
  | .nothing => form "nothing" []
  | .error message => form "error" [.text message]

/-- The S-expression of an alternative. -/
def Alt.datum : Alt → Datum
  | .const c body => form "const-case" [c.datum, body.datum]
  | .con firstLocal tag name fields body =>
    form "con-case"
      [.integer firstLocal, .integer tag, nameDatum name, .list (fields.map nameDatum), body.datum]
  | .default body => form "default" [body.datum]

def altData : List Alt → List Datum
  | [] => []
  | a :: rest => a.datum :: altData rest

end

/-- The S-expression of a definition. -/
def Definition.datum (d : Definition) : Datum :=
  form "fun" [nameDatum d.name, .list (d.params.map nameDatum), d.body.datum]

/-- The S-expression of a program. -/
def Program.datum (p : Program) : Datum := form "program" (p.definitions.map Definition.datum)

/-- A value laid out as program text is. -/
def layOut (d : Datum) : Except Unprintable String := d.pretty {} 0

/-- The text of a program, laid out. -/
def Program.pretty (p : Program) : Except Unprintable String := layOut p.datum

/-- The text of a program, on one line. -/
def Program.flat (p : Program) : String := p.datum.flat

end Vimgen.Ir
