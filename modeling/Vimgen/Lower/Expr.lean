import Vimgen.Env
import Vimgen.Lower.Leaf

/-!
# Lowering of expressions

`lower` turns an expression into statements that end by passing its value to a continuation. A
binding runs the statements of its value, which bind the slot, before those of its body. A choice
becomes one conditional statement, with all its defaults in the last branch.

The slots of fields are computed, and it is checked that their numbers can be spelled. All other
slots stand in the program and are taken to be spellable, as they are in every program that was
read.
-/

namespace Vimgen.Lower

open Script (Arm Block ScopedName)

/-- The reference to a variable. -/
def resolve (env : Env) (v : Ir.Var) : Script.Expr := .ref (env.lookup v.name)

/-- The references to variables. -/
def resolveAll (env : Env) (vs : List Ir.Var) : List Script.Expr := vs.map (resolve env)

/-- The script variable of a slot. -/
def localName (index : Int) : ScopedName := ⟨.local, (Name.slot index).target⟩

/-- The slots for `count` fields from `first` on, as bindings. -/
def fieldSlots (first : Int) (count : Nat) : Except LowerError (List (Name × ScopedName)) :=
  (List.range count).mapM fun (k : Nat) =>
    let index : Int := first + k
    if Numeral.digitCount index ≤ Numeral.digitLimit then .ok (.slot index, localName index)
    else .error .slotDigits

/-- Loads the fields of a constructor, which follow its tag, into slots. -/
def loadFields (scrutinee : Script.Expr) (slots : List (Name × ScopedName)) : Block :=
  slots.zipIdx.map fun (slot, k) => .bind slot.2 (field scrutinee (k + 1))

/-- A lowered alternative. -/
inductive Branch where
  | tested (arm : Arm)
  | fallback (body : Block)

/-- The arm of a tested alternative. -/
def Branch.arm? : Branch → Option Arm
  | .tested arm => some arm
  | .fallback _ => none

/-- The body of a default. -/
def Branch.fallback? : Branch → Option Block
  | .tested _ => none
  | .fallback body => some body

/-- One conditional from all branches: the tested ones in order, and then the defaults in a row.
Without a tested branch only the defaults remain. -/
def joinBranches (branches : List Branch) : Block :=
  let arms := branches.filterMap Branch.arm?
  let defaults := branches.filterMap Branch.fallback?
  if arms.isEmpty then defaults.flatten
  else [.cond arms (if defaults.isEmpty then none else some defaults.flatten)]

mutual

/-- The statements of an expression whose value goes to `ret`. -/
def lower (env : Env) (ret : Continuation) : Ir.Expr → Except LowerError Block
  | .var (.loc index) => .ok [ret (resolve env (.loc index))]
  | .var (.glob name) => .ok [ret (.apply (resolve env (.glob name)) [])]
  | .app function args _ => .ok [ret (.apply (.ref (env.lookup function)) (resolveAll env args))]
  | .bind (.glob name) _ _ => .error (.bindsGlobal name)
  | .bind (.loc index) value body => do
    let value ← lower env (bindTo (localName index)) value
    let body ← lower (env.extend (.slot index) (localName index)) ret body
    return value ++ body
  | .update _ value => lower env ret value
  | .con tag _ args _ => .ok [ret (.list (.int tag :: resolveAll env args))]
  | .case scrutinee alts _ _ => do
    return joinBranches (← lowerAlts (resolve env scrutinee) env ret alts)
  | .proj v index => .ok [ret (field (resolve env v) index)]
  | .const c => do return [ret (← lowerConst c)]
  | .foreign function args _ =>
    lowerForeign function (args.map fun a => resolve env a.var) ret
  | .op op args => do return [ret (← lowerPrimitive op (resolveAll env args))]
  | .nothing => .ok [ret (.int 0)]
  | .error message => .ok [.command "throw" (.str message)]

/-- The branch of an alternative. -/
def lowerAlt (scrutinee : Script.Expr) (env : Env) (ret : Continuation) :
    Ir.Alt → Except LowerError Branch
  | .const c body => do
    let c ← lowerConst c
    let body ← lower env ret body
    return .tested (.mk (.binary .equals scrutinee c) body)
  | .con first tag _ fields body => do
    let slots ← fieldSlots first fields.length
    let body ← lower (env.extendAll slots) ret body
    return .tested
      (.mk (.binary .equals (field scrutinee 0) (.int tag)) (loadFields scrutinee slots ++ body))
  | .default body => do return .fallback (← lower env ret body)

/-- The branches of alternatives in order, up to the first that cannot be lowered. -/
def lowerAlts (scrutinee : Script.Expr) (env : Env) (ret : Continuation) :
    List Ir.Alt → Except LowerError (List Branch)
  | [] => .ok []
  | alt :: rest => do
    let branch ← lowerAlt scrutinee env ret alt
    let branches ← lowerAlts scrutinee env ret rest
    return branch :: branches

end

/-- The statements of a choice by the value of any script expression. -/
def lowerCase (scrutinee : Script.Expr) (env : Env) (ret : Continuation) (alts : List Ir.Alt) :
    Except LowerError Block := do
  return joinBranches (← lowerAlts scrutinee env ret alts)

end Vimgen.Lower
