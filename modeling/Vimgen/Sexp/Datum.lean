import Vimgen.Number.Shortest
import Vimgen.Number.Numeral
import Vimgen.Text.Quoted

/-!
# S-expression values

`Datum` is what S-expression text denotes, together with the two values that only a caller can
supply to the printer (`false` and `null`). `Datum.spelling` is its spelling inside messages.
-/

namespace Vimgen.Sexp

/-- The two kinds of brackets. -/
inductive Bracket where
  | round
  | square
  deriving DecidableEq, Repr

/-- The character that opens a bracket. -/
def Bracket.opening : Bracket → Char
  | .round => '('
  | .square => '['

/-- The character that closes a bracket. -/
def Bracket.closing : Bracket → Char
  | .round => ')'
  | .square => ']'

/-- The characters that a backslash makes part of a symbol. -/
def isEscapable (c : Char) : Bool :=
  c = '\\' || c = '\'' || c = '\x60' || c = '"' || c = '(' || c = ')' || c = '[' || c = ']' ||
    c = ' ' || c = ',' || c = '?' || c = ';' || c = '#'

/-- An S-expression value. -/
inductive Datum where
  | list (items : List Datum)
  | bracketed (items : List Datum)
  | quoted (item : Datum)
  | text (value : String)
  | symbol (name : String)
  | integer (value : Int)
  | real (value : Binary64)
  | bool (value : Bool)
  | null
  deriving Inhabited, Repr

namespace Datum

mutual

/-- The spelling of a value inside a message. -/
def spelling : Datum → String
  | .list items => "[" ++ String.intercalate ", " (spellings items) ++ "]"
  | .bracketed items => "Brackets(I=[" ++ String.intercalate ", " (spellings items) ++ "])"
  | .quoted item => "Quoted(" ++ item.spelling ++ ")"
  | .text value => Text.quoted value
  | .symbol name => "Symbol(" ++ Text.quoted name ++ ")"
  | .integer value => Numeral.intText value
  | .real value => value.text
  | .bool value => if value then "True" else "False"
  | .null => "None"

def spellings : List Datum → List String
  | [] => []
  | item :: rest => item.spelling :: spellings rest

end

/-- The value of an atom: a name with a fixed meaning, a numeral, or else a symbol. -/
def ofAtom (token : List Char) : Datum :=
  if token = ['n', 'i', 'l'] then .list []
  else if token = ['t'] then .bool true
  else match Numeral.readInt? token with
    | some n => .integer n
    | none =>
      match Numeral.readReal? token with
      | some x => .real x
      | none => .symbol (String.ofList token)

end Datum

end Vimgen.Sexp
