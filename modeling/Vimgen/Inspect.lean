import Vimgen.Text.Wrapped

/-!
# Shapes: how structured values are shown

A syntax tree is shown through one view, its `Shape`: a record with named fields, a tuple, a quoted
text, or an atom, whose text is final. `Shape.oneLine` writes it on one line, `Shape.layout` within
a line width.
-/

namespace Vimgen.Inspect

mutual

/-- What is shown of a value. -/
inductive Shape where
  | atom (spelling : String)
  | text (content : String)
  | tuple (items : List Shape)
  | record (name : String) (fields : List Field)

/-- A named part of a record. -/
inductive Field where
  | mk (label : String) (value : Shape)

end

namespace Shape

/-- A member of an enumeration, with the value it stands for. -/
def member (kind name value : String) : Shape :=
  .atom s!"<{kind}.{name}: {Text.quoted value}>"

/-- A tuple of one item keeps a comma, which tells it from a value in parentheses. -/
def tupleEnd {α : Type} : List α → String
  | [_] => ",)"
  | _ => ")"

mutual

/-- The shape on one line. -/
def oneLine : Shape → String
  | .atom spelling => spelling
  | .text content => Text.quoted content
  | .tuple items => "(" ++ String.intercalate ", " (oneLineItems items) ++ tupleEnd items
  | .record name fields => name ++ "(" ++ String.intercalate ", " (oneLineFields fields) ++ ")"

def oneLineItems : List Shape → List String
  | [] => []
  | item :: rest => oneLine item :: oneLineItems rest

def oneLineFields : List Field → List String
  | [] => []
  | .mk label value :: rest => (label ++ "=" ++ oneLine value) :: oneLineFields rest

end

/-- A comma, a line break and `indent` spaces. -/
def breakLine (indent : Nat) : String := ",\n" ++ "".pushn ' ' indent

mutual

/-- The shape within `width` columns: it starts at column `indent`, and `allowance` characters
follow on its last line. What does not fit on its line has one part a line, and a text one piece. -/
def layout (width indent allowance : Nat) : Shape → String
  | .atom spelling => spelling
  | .text content =>
    if (Text.quoted content).length + indent + allowance ≤ width then Text.quoted content
    else
      String.intercalate ("\n" ++ "".pushn ' ' indent)
        ((Text.pieces (width - indent) allowance content).map Text.quoted)
  | .tuple items =>
    if (oneLine (.tuple items)).length + indent + allowance ≤ width then oneLine (.tuple items)
    else
      "(" ++ layoutItems width (indent + 1) (allowance + (tupleEnd items).length) items
        ++ tupleEnd items
  | .record name fields =>
    if (oneLine (.record name fields)).length + indent + allowance ≤ width then
      oneLine (.record name fields)
    else name ++ "(" ++ layoutFields width (indent + name.length + 1) allowance fields ++ ")"

def layoutItems (width indent allowance : Nat) : List Shape → String
  | [] => ""
  | [item] => layout width indent allowance item
  | item :: rest =>
    layout width indent 1 item ++ breakLine indent ++ layoutItems width indent allowance rest

def layoutFields (width indent allowance : Nat) : List Field → String
  | [] => ""
  | [.mk label value] =>
    label ++ "=" ++ layout width (indent + label.length + 1) allowance value
  | .mk label value :: rest =>
    label ++ "=" ++ layout width (indent + label.length + 1) 1 value ++ breakLine indent
      ++ layoutFields width indent allowance rest

end

end Shape

end Vimgen.Inspect
