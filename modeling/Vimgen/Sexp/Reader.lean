import Vimgen.Sexp.Token

/-!
# Reading S-expressions

`Datum.read` takes the tokens of a text through a stack of open forms. An apostrophe quotes the
value after it, and opens a form that ends where the enclosing one does: only there is it known
whether a value followed.
-/

namespace Vimgen.Sexp

/-- Why a text is not one S-expression. -/
inductive ReadError where
  | token (cause : TokenFault)
  | unclosed (bracket : Bracket) (found : Option Bracket)
  | loneApostrophe (position : Nat)
  | leftover (rest : String)
  | notOne
  deriving DecidableEq, Repr

/-- The wording of a fault. -/
def ReadError.message : ReadError → String
  | .token .unterminatedText => "'NoneType' object has no attribute 'start'"
  | .token .danglingEscape => "string index out of range"
  | .unclosed bracket found =>
    let expected := Text.quoted (String.singleton bracket.closing)
    let got := (found.map fun b => Text.quoted (String.singleton b.closing)).getD "None"
    s!"Not enough closing brackets. Expected {expected} to be the last letter in the sexp. Got: {got}"
  | .loneApostrophe position => s!"No s-exp is found after an apostrophe at position {position}"
  | .leftover rest =>
    s!"Too many closing brackets. Expected no character left in the sexp. Got: {Text.quoted rest}"
  | .notOne => ""

/-- A form that is still open, with the values read before it, last first. -/
inductive Frame where
  | bracket (kind : Bracket) (before : List Datum)
  | apostrophe (position : Nat) (before : List Datum)
  deriving Repr

/-- The value of a complete bracket. -/
def Bracket.datum : Bracket → List Datum → Datum
  | .round, items => .list items
  | .square, items => .bracketed items

/-- Ends the apostrophes on top of the stack: each quotes the first value after it. `items` are the
values of the innermost form, last first. -/
def endApostrophes (items : List Datum) : List Frame → Except ReadError (List Datum × List Frame)
  | .apostrophe position before :: frames =>
    match items.reverse with
    | [] => .error (.loneApostrophe position)
    | first :: rest => endApostrophes ((rest.reverse ++ [.quoted first]) ++ before) frames
  | frames => .ok (items, frames)

/-- Ends the innermost form at a closing bracket. -/
def close (bracket : Bracket) (rest : List Char) (items : List Datum) (frames : List Frame) :
    Except ReadError (List Datum × List Frame) :=
  match endApostrophes items frames with
  | .error e => .error e
  | .ok (items, .bracket kind before :: frames) =>
    if kind = bracket then .ok (kind.datum items.reverse :: before, frames)
    else .error (.unclosed kind (some bracket))
  | .ok _ => .error (.leftover (String.ofList rest))

/-- Ends the text: no bracket may be open. -/
def finish (items : List Datum) (frames : List Frame) : Except ReadError (List Datum) :=
  match endApostrophes items frames with
  | .error e => .error e
  | .ok (_, .bracket kind _ :: _) => .error (.unclosed kind none)
  | .ok (items, _) => .ok items.reverse

/-- Reads the values of the tokens that follow; `items` are the values of the innermost open form,
last first. -/
def readTokens (items : List Datum) (frames : List Frame) :
    List Token → Except ReadError (List Datum)
  | [] => finish items frames
  | .opening bracket :: rest => readTokens [] (.bracket bracket items :: frames) rest
  | .closing bracket text :: rest =>
    match close bracket text items frames with
    | .error e => .error e
    | .ok (items, frames) => readTokens items frames rest
  | .apostrophe position :: rest => readTokens [] (.apostrophe position items :: frames) rest
  | .text value :: rest => readTokens (.text (String.ofList value) :: items) frames rest
  | .atom value :: rest => readTokens (Datum.ofAtom value :: items) frames rest
  | .fault cause :: _ => .error (.token cause)

/-- Reads a text that holds one value. -/
def Datum.read (text : String) : Except ReadError Datum :=
  match readTokens [] [] (Token.scan text.toList) with
  | .error e => .error e
  | .ok [value] => .ok value
  | .ok _ => .error .notOne

end Vimgen.Sexp
