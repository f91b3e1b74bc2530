import Vimgen.Ir.Expr

/-!
# Equality of programs

Structural equality, with floating point constants compared as numbers: the two zeros are equal,
and a constant that is no number makes its program different from every program read apart.
-/

namespace Vimgen.Ir

def sameDescriptor? : Option Descriptor → Option Descriptor → Bool
  | none, none => true
  | some a, some b => a.same b
  | _, _ => false

/-- Whether two arguments of foreign calls are the same. -/
def ForeignArg.same (a b : ForeignArg) : Bool := a.type.same b.type && a.var = b.var

def sameForeignArgs : List ForeignArg → List ForeignArg → Bool
  | [], [] => true
  | a :: as, b :: bs => a.same b && sameForeignArgs as bs
  | _, _ => false

mutual

/-- Equality of expressions. -/
def Expr.same : Expr → Expr → Bool
  | .var v, .var w => v = w
  | .app f as t, .app g bs u => f = g && as = bs && t = u
  | .bind v a b, .bind w c d => v = w && a.same c && b.same d
  | .update v a, .update w b => v = w && a.same b
  | .con t n as r, .con u m bs s => t = u && n = m && as = bs && r = s
  | .case v as c s, .case w bs d t => v = w && sameAlts as bs && c = d && s = t
  | .proj v i, .proj w j => v = w && i = j
  | .const a, .const b => a.same b
  | .foreign f as r, .foreign g bs s => f.same g && sameForeignArgs as bs && sameDescriptor? r s
  | .op p as, .op q bs => p = q && as = bs
  | .nothing, .nothing => true
  | .error a, .error b => a = b
  | _, _ => false

/-- Whether two alternatives are the same. -/
def Alt.same : Alt → Alt → Bool
  | .const a b, .const c d => a.same c && b.same d
  | .con i t n fs b, .con j u m gs c => i = j && t = u && n = m && fs = gs && b.same c
  | .default a, .default b => a.same b
  | _, _ => false

def sameAlts : List Alt → List Alt → Bool
  | [], [] => true
  | a :: as, b :: bs => a.same b && sameAlts as bs
  | _, _ => false

end

/-- Equality of definitions. -/
def Definition.same (a b : Definition) : Bool :=
  a.name = b.name && a.params = b.params && a.body.same b.body

def sameDefinitions : List Definition → List Definition → Bool
  | [], [] => true
  | a :: as, b :: bs => a.same b && sameDefinitions as bs
  | _, _ => false

/-- Equality of programs. -/
def Program.same (p q : Program) : Bool := sameDefinitions p.definitions q.definitions

/-- The number of different definitions. -/
def Program.distinct (p : Program) : Nat :=
  (p.definitions.foldl
    (fun seen d => if seen.any (·.same d) then seen else d :: seen) []).length

end Vimgen.Ir
