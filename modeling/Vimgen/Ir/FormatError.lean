import Vimgen.Sexp.Reader

/-!
# Why a text is not a program

`FormatError` lists what can be wrong with the S-expression form of a program, and `message` says
so. Two more things can stop a reader, both numbers that are too large: see `ReadFault`.
-/

namespace Vimgen.Ir

open Sexp (Datum)

/-- The parts of a program that have a form of their own. -/
inductive Part where
  | program
  | definition
  | expression
  | variable
  | alternative
  | constant
  | descriptor
  deriving DecidableEq, Repr

/-- How messages mention a part. -/
def Part.text : Part → String
  | .program => "program"
  | .definition => "definition"
  | .expression => "expression"
  | .variable => "variable"
  | .alternative => "alternative"
  | .constant => "constant"
  | .descriptor => "foreign descriptor"

/-- What a field must be. -/
inductive FieldKind where
  | integer
  | text
  | list
  deriving DecidableEq, Repr

/-- How messages mention what a field must be. -/
def FieldKind.description : FieldKind → String
  | .integer => "an integer"
  | .text => "a quoted string"
  | .list => "a list"

/-- A fault in the form of a program. -/
inductive FormatError where
  | malformed (cause : Sexp.ReadError)
  | notAForm (part : Part) (found : Datum)
  | unexpectedHead (expected : String) (head : String)
  | arity (head : String) (takes found : Nat)
  | field (role : String) (kind : FieldKind) (found : Datum)
  | noScrutinee
  | noDescriptorName
  | notAPair
  | unknownForm (kind head : String)
  | unknownSpelling (kind found : String)
  | notANumber (found : Datum)
  | notOneChar (text : String)

/-- The wording of a fault. -/
def FormatError.message : FormatError → String
  | .malformed cause => s!"not a well-formed S-expression: {cause.message}"
  | .notAForm part found => s!"expected {part.text} form, got {found.spelling}"
  | .unexpectedHead expected head => s!"expected {expected}, got ({head} ...)"
  | .arity head takes found => s!"({head} ...) takes {takes} field(s), got {found}"
  | .field role kind found => s!"{role} must be {kind.description}, got {found.spelling}"
  | .noScrutinee => "(case ...) needs a scrutinee"
  | .noDescriptorName => "(app ...) descriptor needs a name"
  | .notAPair => "foreign arguments are (fdesc var) pairs"
  | .unknownForm kind head => s!"unknown {kind} ({head} ...)"
  | .unknownSpelling kind found => s!"unknown {kind} {found}"
  | .notANumber found => s!"float constant must be a number, got {found.spelling}"
  | .notOneChar text => s!"char constant must be one character, got {Text.quoted text}"

/-- What stops a reader: a fault in the form, a number in a name with too many digits to be read,
or an integer that no floating point number is near. -/
inductive ReadFault where
  | format (error : FormatError)
  | nameDigits (count : Nat)
  | floatRange

/-- The result of reading. -/
abbrev Read := Except ReadFault

/-- Stops with a fault in the form. -/
def Read.fail {α : Type} (e : FormatError) : Read α := .error (.format e)

end Vimgen.Ir
