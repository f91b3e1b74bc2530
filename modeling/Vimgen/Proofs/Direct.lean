import Vimgen.Proofs.Meaning

/-!
# The direct meaning of expressions

`eval` gives the intermediate language a meaning of its own, with lexical scope: slots are looked up
in a valuation, and a binding or the fields of an alternative change it for their body and for
nothing else. Only what has no parts is taken from the script: a call, a constant or a primitive has
the value of its script expression, with the variables in it read from the valuation. An expression
need not have a value, since showing a text or changing a list has none.
-/

namespace Vimgen.Meaning

open Lower (LowerError field localName lowerConst lowerForeign lowerPrimitive returnValue)
open Script (ScopedName)

/-- The values of the slots in scope. -/
abbrev Slots (V : Type) := Int → Option V

section

variable {V W : Type}

/-- The slots with one bound, or unbound if there is no value. -/
def Slots.bind (slots : Slots V) (index : Int) (v : Option V) : Slots V :=
  fun i => if i = index then v else slots i

/-- The slots with values bound from `first` on. -/
def Slots.bindFields (slots : Slots V) (first : Int) : List V → Slots V
  | [] => slots
  | v :: rest => (slots.bind first (some v)).bindFields (first + 1) rest

/-- The slot that a script variable is named for. -/
def slotOf? (n : ScopedName) : Option Int :=
  match n.scope, n.base.toList with
  | .local, 'l' :: 'o' :: 'c' :: '-' :: digits => some (-(Nat.ofDigitChars 10 digits 0 : Nat))
  | .local, 'l' :: 'o' :: 'c' :: digits => some (Nat.ofDigitChars 10 digits 0)
  | _, _ => none

variable (I : Leaves V W)

/-- Reads the script variable of a slot from the slots in scope, and any other variable from
outside. -/
def readSlot (slots : Slots V) (n : ScopedName) : Act W V V :=
  match slotOf? n with
  | some i => given (slots i)
  | none => I.global n

end

/-- The script variable of a slot, or of a global name through `link`. -/
def reference (link : Name → ScopedName) (v : Ir.Var) : Script.Expr :=
  match v.name with
  | .slot i => .ref (localName i)
  | n => .ref (link n)

/-- The fields of a constructor as script expressions: `count` of them, from field `k` on. -/
def fieldExprs (scrutinee : Script.Expr) (k : Int) : Nat → List Script.Expr
  | 0 => []
  | count + 1 => field scrutinee k :: fieldExprs scrutinee (k + 1) count

section

variable {V W : Type} (I : Leaves V W) (link : Name → ScopedName)

/-- The value of a script expression over slots. -/
def produce (slots : Slots V) (x : Script.Expr) : Act W V (Option V) := do
  return some (← value I (readSlot I slots) x)

/-- The value of a translation, if there is one. -/
def produceOk (slots : Slots V) : Except LowerError Script.Expr → Act W V (Option V)
  | .ok x => produce I slots x
  | .error _ => undefined

/-- A call of a global function. -/
def callNamed (slots : Slots V) (function : Name) (args : List Ir.Var) : Act W V (Option V) :=
  if function.isSlot then undefined
  else produce I slots (.apply (.ref (link function)) (args.map (reference link)))

/-- A foreign call: it has a value, or is a statement without one. -/
def callForeign (slots : Slots V) (function : Ir.Descriptor) (args : List Ir.Var) :
    Act W V (Option V) :=
  match lowerForeign function (args.map (reference link)) returnValue with
  | .ok [.ret x] => produce I slots x
  | .ok [s] => do
    effect I (readSlot I slots) s
    return none
  | _ => undefined

mutual

/-- The meaning of an expression: its value if it has one. -/
def eval (slots : Slots V) : Ir.Expr → Act W V (Option V)
  | .var (.loc i) => produce I slots (.ref (localName i))
  | .var (.glob name) => callNamed I link slots name []
  | .app function args _ => callNamed I link slots function args
  | .bind (.loc i) value body => do
    let v ← eval slots value
    eval (slots.bind i v) body
  | .bind (.glob _) _ _ => undefined
  | .update _ value => eval slots value
  | .con tag _ args _ => produce I slots (.list (.int tag :: args.map (reference link)))
  | .case scrutinee alts _ _ => evalAlts slots (reference link scrutinee) none alts
  | .proj v index => produce I slots (field (reference link v) index)
  | .const c => produceOk I slots (lowerConst c)
  | .foreign function args _ => callForeign I link slots function (args.map Ir.ForeignArg.var)
  | .op op args => produceOk I slots (lowerPrimitive op (args.map (reference link)))
  | .nothing => produce I slots (.int 0)
  | .error message => do throw (← I.str message)

/-- The meaning of the first alternative whose test passes, or else of the first default, which is
`default?` if one came before. -/
def evalAlts (slots : Slots V) (scrutinee : Script.Expr) (default? : Option (Act W V (Option V))) :
    List Ir.Alt → Act W V (Option V)
  | [] => default?.getD (pure none)
  | .const c body :: rest =>
    match lowerConst c with
    | .ok c => do
      if ← passes I (readSlot I slots) (.binary .equals scrutinee c) then eval slots body
      else evalAlts slots scrutinee default? rest
    | .error _ => undefined
  | .con first tag _ fields body :: rest => do
    if ← passes I (readSlot I slots) (.binary .equals (field scrutinee 0) (.int tag)) then
      let vs ← values I (readSlot I slots) (fieldExprs scrutinee 1 fields.length)
      eval (slots.bindFields first vs) body
    else evalAlts slots scrutinee default? rest
  | .default body :: rest =>
    evalAlts slots scrutinee (default?.or (some (eval slots body))) rest

end

end

end Vimgen.Meaning
