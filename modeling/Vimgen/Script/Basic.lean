/-!
# Vim scripts

The syntax of the scripts this library generates. Every position of a node has its own type, and
each of these types has one constructor `stray` for a node that does not belong there: such trees
can be built by hand, shown and passed around, but not rendered.
-/

namespace Vimgen.Script

/-- Where a name lives. -/
inductive Scope where
  | «global»
  | script
  | «local»
  | argument
  | builtin
  deriving DecidableEq, Repr, Inhabited

/-- What a name of the scope starts with. -/
def Scope.mark : Scope → String
  | .global => "g:"
  | .script => "s:"
  | .local => "l:"
  | .argument => "a:"
  | .builtin => ""

/-- The scope that a mark stands for. -/
def Scope.ofMark? (mark : String) : Option Scope :=
  [Scope.global, .script, .local, .argument, .builtin].find? (·.mark = mark)

/-- A name with its scope. -/
structure ScopedName where
  scope : Scope
  base : String
  deriving DecidableEq, Repr, Inhabited

/-- The name as it is written. -/
def ScopedName.text (n : ScopedName) : String := n.scope.mark ++ n.base

/-- Binary operators. -/
inductive BinOp where
  | add
  | subtract
  | multiply
  | equals
  | lt
  | lte
  | gt
  | gte
  | concat
  | listConcat
  deriving DecidableEq, Repr, Inhabited

/-- The operator as it is written; numbers and lists are added alike. -/
def BinOp.text : BinOp → String
  | .add => "+"
  | .subtract => "-"
  | .multiply => "*"
  | .equals => "=="
  | .lt => "<"
  | .lte => "<="
  | .gt => ">"
  | .gte => ">="
  | .concat => "."
  | .listConcat => "+"

/-- The operator's name. -/
def BinOp.name : BinOp → String
  | .add => "add"
  | .subtract => "subtract"
  | .multiply => "multiply"
  | .equals => "equals"
  | .lt => "lt"
  | .lte => "lte"
  | .gt => "gt"
  | .gte => "gte"
  | .concat => "concat"
  | .listConcat => "list_concat"

/-- The operator of a name. -/
def BinOp.ofName? (name : String) : Option BinOp :=
  [BinOp.add, .subtract, .multiply, .equals, .lt, .lte, .gt, .gte, .concat, .listConcat].find?
    (·.name = name)

mutual

/-- Expressions. -/
inductive Expr where
  | int (value : Int)
  | str (value : String)
  | list (items : List Expr)
  | ref (name : ScopedName)
  | apply (function : Expr) (args : List Expr)
  | binary (op : BinOp) (left right : Expr)
  | proj (base : Expr) (projection : Projection)
  | stray (node : Node)

/-- What is taken out of a list or text: one item, or all from one on. -/
inductive Projection where
  | single (index : Expr)
  | onward (start : Expr)
  | stray (node : Node)

/-- What can be assigned to. -/
inductive Target where
  | name (name : ScopedName)
  | item (base : Target) (projection : Projection)
  | stray (node : Node)

/-- Statements. -/
inductive Stmt where
  | bind (name : ScopedName) (value : Expr)
  | assign (target : Target) (value : Expr)
  | ret (value : Expr)
  | call (name : ScopedName) (args : List Expr)
  | command (command : String) (arg : Expr)
  | cond (arms : List Arm) (default : Option (List Stmt))
  | function (name : ScopedName) (params : List String) (body : List Stmt)
  | stray (node : Node)

/-- A test and what is done where it holds. -/
inductive Arm where
  | mk (test : Expr) (body : List Stmt)

/-- A node without regard to its position; `alien` is one of no known kind. -/
inductive Node where
  | expr (e : Expr)
  | projection (p : Projection)
  | target (t : Target)
  | stmt (s : Stmt)
  | arm (a : Arm)
  | program (items : List Stmt)
  | alien (kind : String)

end

instance : Inhabited Expr := ⟨.int 0⟩

instance : Inhabited Stmt := ⟨.ret (.int 0)⟩

/-- A block of statements. -/
abbrev Block := List Stmt

/-- A script: functions, and calls of them. -/
structure Program where
  items : Block

mutual

/-- The name of an expression's kind. -/
def Expr.kind : Expr → String
  | .int _ => "IntLit"
  | .str _ => "StrLit"
  | .list _ => "ListLit"
  | .ref _ => "Ref"
  | .apply _ _ => "Apply"
  | .binary _ _ _ => "BinOpApply"
  | .proj _ _ => "Proj"
  | .stray node => node.kind

/-- The name of a projection's kind. -/
def Projection.kind : Projection → String
  | .single _ => "ProjSingle"
  | .onward _ => "ProjFrom"
  | .stray node => node.kind

/-- The name of a target's kind. -/
def Target.kind : Target → String
  | .name _ => "AssignName"
  | .item _ _ => "AssignProj"
  | .stray node => node.kind

/-- The name of a statement's kind. -/
def Stmt.kind : Stmt → String
  | .bind _ _ => "Let"
  | .assign _ _ => "Assign"
  | .ret _ => "Return"
  | .call _ _ => "Call"
  | .command _ _ => "BuiltInStmt"
  | .cond _ _ => "If"
  | .function _ _ _ => "Function"
  | .stray node => node.kind

/-- The name of a node's kind. -/
def Node.kind : Node → String
  | .expr e => e.kind
  | .projection p => p.kind
  | .target t => t.kind
  | .stmt s => s.kind
  | .arm _ => "CondArm"
  | .program _ => "Program"
  | .alien kind => kind

end

end Vimgen.Script
