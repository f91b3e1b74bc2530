import Vimgen.Lower.Error

/-!
# Lowering of constants, primitives and foreign calls

The leaves of lowering: what does not contain further expressions. Arguments have been looked up
already and are script expressions.
-/

namespace Vimgen.Lower

open Script (BinOp Block)

/-- What happens to the value of an expression. -/
abbrev Continuation := Script.Expr → Script.Stmt

/-- In tail position the value is returned. -/
def returnValue : Continuation := .ret

/-- Elsewhere it is bound to a name. -/
def bindTo (name : Script.ScopedName) : Continuation := .bind name

/-- One item of a list or text. -/
def item (base index : Script.Expr) : Script.Expr := .proj base (.single index)

/-- One item by its number. -/
def field (base : Script.Expr) (index : Int) : Script.Expr := item base (.int index)

/-- A call of a builtin function. -/
def callBuiltin (name : String) (args : List Script.Expr) : Script.Expr :=
  .apply (.ref ⟨.builtin, name⟩) args

/-! ## Constants -/

/-- The least script number. -/
def numberMin : Int := -0x8000000000000000

/-- The greatest script number. -/
def numberMax : Int := 0x7FFFFFFFFFFFFFFF

/-- The literal of a constant. -/
def lowerConst : Ir.Const → Except LowerError Script.Expr
  | .int value => .ok (.int value)
  | .bigInt value =>
    if numberMin ≤ value ∧ value ≤ numberMax then .ok (.int value) else .error (.outOfRange value)
  | .char value => .ok (.str (String.singleton value))
  | .str value => .ok (.str value)
  | .world => .ok (.int 0)
  | .type _ => .ok (.int 0)
  | .float value => .error (.constant (Ir.Const.float value).display)
  | .bits width value => .error (.constant (Ir.Const.bits width value).display)

/-! ## Primitives -/

/-- The operator of a primitive on two integers. -/
def integralOp? : Ir.PrimTag → Option BinOp
  | .plus => some .add
  | .minus => some .subtract
  | .times => some .multiply
  | .eq => some .equals
  | .slt => some .lt
  | .sle => some .lte
  | .sgt => some .gt
  | .sge => some .gte
  | _ => none

/-- The operator of a primitive on two texts. -/
def textOp? : Ir.PrimTag → Option BinOp
  | .strConcat => some .concat
  | .strCons => some .concat
  | .strEq => some .equals
  | _ => none

/-- Numbers have one width, so changing it does nothing. -/
def isCoercion : Ir.PrimTag → Bool
  | .sext | .zext | .trunc => true
  | _ => false

/-- A pattern that splits a text into its characters. -/
def characterPattern : String := ".\\zs"

/-- The function that text is written with. -/
def echoHelper : String := "Idris_echo"

/-- The characters of a text in reverse. -/
def reverseText (x : Script.Expr) : Script.Expr :=
  callBuiltin "join" [callBuiltin "reverse" [callBuiltin "split" [x, .str characterPattern]], .str ""]

/-- Primitives with an expression of their own, for the number of arguments they take. -/
def builtinForm? : Ir.PrimTag → List Script.Expr → Option Script.Expr
  | .strLen, [x] => some (callBuiltin "len" [x])
  | .strHead, [x] => some (field x 0)
  | .strTail, [x] => some (.proj x (.onward (.int 1)))
  | .strIndex, [x, i] => some (item x i)
  | .strSubstr, [offset, length, s] => some (callBuiltin "strpart" [s, offset, length])
  | .strRev, [x] => some (reverseText x)
  | .intStr, [x] => some (.binary .concat x (.str ""))
  | .strInt, [x] => some (callBuiltin "str2nr" [x])
  | .chInt, [x] => some (callBuiltin "char2nr" [x])
  | .intCh, [x] => some (callBuiltin "nr2char" [x])
  | .writeStr, [_, s] => some (callBuiltin echoHelper [s])
  | _, _ => none

/-- The expression of a primitive, if it has one with these arguments. -/
def primitive? (op : Ir.PrimOp) (args : List Script.Expr) : Option Script.Expr :=
  if op.tag = .external then
    (nonempty? op.name).map (callBuiltin · args)
  else
    match isCoercion op.tag, integralOp? op.tag, textOp? op.tag, args with
    | true, _, _, [x] => some x
    | _, some b, _, [x, y] =>
      if (op.arith?.map Ir.ArithType.isIntegral).getD false then some (.binary b x y) else none
    | _, _, some b, [x, y] => some (.binary b x y)
    | _, _, _, _ => builtinForm? op.tag args

/-- Lowers a primitive. -/
def lowerPrimitive (op : Ir.PrimOp) (args : List Script.Expr) : Except LowerError Script.Expr :=
  if op.tag = .readStr then .error .readsText
  else
    match primitive? op args with
    | some e => .ok e
    | none => .error (.primitive op args.length)

/-! ## Foreign calls -/

/-- The descriptor of a builtin function that is called by name. -/
def builtinEscape : String := "VIM_BuiltIn"

/-- A call of a known foreign function. Showing a text and changing a list are statements, and have
no value to pass on. -/
def lowerTagged (tag : Ir.ForeignTag) (args : List Script.Expr) (ret : Continuation) :
    Except LowerError Block :=
  match tag, args with
  | .echo, [x] => .ok [.command "echo" x]
  | .listSetAt, [index, value, .ref name] => .ok [.assign (.item (.name name) (.single index)) value]
  | .listSetAt, [_, _, target] => .error (.notAReference target)
  | .listEmpty, [] => .ok [ret (.list [])]
  | .listIndex, [index, list] => .ok [ret (item list index)]
  | .listCons, [x, list] => .ok [ret (.binary .listConcat (.list [x]) list)]
  | .listSnoc, [list, x] => .ok [ret (.binary .listConcat list (.list [x]))]
  | .listConcat, [left, right] => .ok [ret (.binary .listConcat left right)]
  | tag, args => .error (.foreignArity tag args.length)

/-- Lowers a foreign call. -/
def lowerForeign (function : Ir.Descriptor) (args : List Script.Expr) (ret : Continuation) :
    Except LowerError Block :=
  match function with
  | .con name =>
    match Ir.ForeignTag.ofSymbol? name with
    | some tag => lowerTagged tag args ret
    | none => .error (.foreign function.display)
  | .app name [.str builtin] =>
    if name = builtinEscape then .ok [ret (callBuiltin builtin args)]
    else .error (.foreign function.display)
  | _ => .error (.foreign function.display)

end Vimgen.Lower
