import Vimgen.Ir.Const
import Vimgen.Ir.Foreign
import Vimgen.Ir.Primitive
import Vimgen.Name.Mangle

/-!
# The intermediate language

Programs are lists of definitions. Arguments are variables, never nested expressions, so the order
of evaluation is the order of the enclosing bindings.
-/

namespace Vimgen.Ir

/-- A variable: a local slot or a global name. -/
inductive Var where
  | loc (index : Int)
  | glob (name : Name)
  deriving DecidableEq, Repr, Inhabited

/-- The name under which a variable is looked up. -/
def Var.name : Var → Name
  | .loc index => .slot index
  | .glob name => name

/-- An argument of a foreign call with its type. -/
structure ForeignArg where
  type : Descriptor
  var : Var
  deriving Repr, Inhabited

mutual

/-- Expressions. -/
inductive Expr where
  /-- A variable. -/
  | var (v : Var)
  /-- A call of a global function, perhaps in tail position. -/
  | app (function : Name) (args : List Var) (tailCall : Bool)
  /-- A binding of `v` in `body`. -/
  | bind (v : Var) (value body : Expr)
  /-- A value that may be written over `v`. -/
  | update (v : Var) (value : Expr)
  /-- A constructor, perhaps built in the place of `reuse`. -/
  | con (tag : Int) (name : Name) (args : List Var) (reuse : Option Var)
  /-- A choice by the value of a variable. -/
  | case (scrutinee : Var) (alts : List Alt) (checked shared : Bool)
  /-- A field of a constructor. -/
  | proj (v : Var) (index : Int)
  /-- A constant. -/
  | const (c : Const)
  /-- A foreign call, perhaps with the type of its result. -/
  | foreign (function : Descriptor) (args : List ForeignArg) (result : Option Descriptor)
  /-- A primitive operation. -/
  | op (op : PrimOp) (args : List Var)
  /-- An erased value. -/
  | nothing
  /-- A failure with a message. -/
  | error (message : String)

/-- Alternatives of a choice. -/
inductive Alt where
  /-- Taken when the scrutinee is the constant. -/
  | const (c : Const) (body : Expr)
  /-- Taken when the scrutinee has the constructor; its fields are bound to the slots from
  `firstLocal` on. -/
  | con (firstLocal tag : Int) (name : Name) (fields : List Name) (body : Expr)
  /-- Taken otherwise. -/
  | default (body : Expr)

end

instance : Inhabited Expr := ⟨.nothing⟩

instance : Inhabited Alt := ⟨.default .nothing⟩

/-- A function definition. -/
structure Definition where
  name : Name
  params : List Name
  body : Expr
  deriving Inhabited

/-- The number of parameters. -/
def Definition.arity (d : Definition) : Nat := d.params.length

/-- A program. -/
structure Program where
  definitions : List Definition
  deriving Inhabited

end Vimgen.Ir
