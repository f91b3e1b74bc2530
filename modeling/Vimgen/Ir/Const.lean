import Vimgen.Inspect
import Vimgen.Number.Numeral
import Vimgen.Number.Shortest

/-!
# Constants of the intermediate language
-/

namespace Vimgen.Ir

open Inspect

/-- Constants. Integers have no bounds; `bits` has a width; `world` and `type` have no content when
the program runs. -/
inductive Const where
  | int (value : Int)
  | bigInt (value : Int)
  | float (value : Binary64)
  | char (value : Char)
  | str (value : String)
  | bits (width value : Int)
  | world
  | type (name : String)
  deriving DecidableEq, Repr, Inhabited

namespace Const

/-- The name of a constant's kind. -/
def kind : Const → String
  | .int _ => "IntConst"
  | .bigInt _ => "BigIntConst"
  | .float _ => "FloatConst"
  | .char _ => "CharConst"
  | .str _ => "StrConst"
  | .bits _ _ => "BitsConst"
  | .world => "WorldConst"
  | .type _ => "TypeConst"

/-- The constant as messages mention it. -/
def display : Const → String
  | .int value => Numeral.intText value
  | .bigInt value => Numeral.intText value ++ "N"
  | .float value => value.text
  | .char value => Text.quoted (String.singleton value)
  | .str value => "\"" ++ value ++ "\""
  | .bits width value => Numeral.intText value ++ "b" ++ Numeral.intText width
  | .world => "prim__TheWorld"
  | .type name => name

/-- The view of a constant for messages. -/
def shape : Const → Shape
  | .int value => .record "IntConst" [.mk "value" (.atom (Numeral.intText value))]
  | .bigInt value => .record "BigIntConst" [.mk "value" (.atom (Numeral.intText value))]
  | .float value => .record "FloatConst" [.mk "value" (.atom value.text)]
  | .char value => .record "CharConst" [.mk "value" (.text (String.singleton value))]
  | .str value => .record "StrConst" [.mk "value" (.text value)]
  | .bits width value =>
    .record "BitsConst"
      [.mk "width" (.atom (Numeral.intText width)), .mk "value" (.atom (Numeral.intText value))]
  | .world => .record "WorldConst" []
  | .type name => .record "TypeConst" [.mk "name" (.text name)]

/-- Equal constants: of one kind and of equal value, where floating point values are compared as
numbers. -/
def same : Const → Const → Bool
  | .float x, .float y => x.equals y
  | a, b => a = b

/-- A text that is not one character. -/
structure NotOneChar where
  text : String
  deriving DecidableEq, Repr

/-- The wording of the refusal. -/
def NotOneChar.message (e : NotOneChar) : String :=
  s!"CharConst needs exactly one character, got {Text.quoted e.text}"

/-- The character constant of a text of one character. -/
def ofCharText (text : String) : Except NotOneChar Const :=
  match text.toList with
  | [c] => .ok (.char c)
  | _ => .error ⟨text⟩

end Const

end Vimgen.Ir
