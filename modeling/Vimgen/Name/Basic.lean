import Vimgen.Number.Numeral

/-!
# Names

A name is global, with the modules it lives in; made up by the compiler, with a number; or a local
slot. `Name.display` writes it, `Name.parse` reads it back: a local slot is never read, and a name
that looks like a made-up one is one.
-/

namespace Vimgen

/-- A name of the intermediate language. -/
inductive Name where
  | topLevel (namespaces : List String) (base : String)
  | machine (base : String) (index : Int)
  | slot (index : Int)
  deriving DecidableEq, Repr, Inhabited

namespace Name

/-- The global name without modules. -/
def plain (base : String) : Name := .topLevel [] base

/-- What a program starts with. -/
def entryPoint : Name := .machine "runMain" 0

/-- Whether the name is a local slot. -/
def isSlot : Name → Bool
  | .slot _ => true
  | _ => false

/-- The last part of a name; a slot has none. -/
def base : Name → String
  | .topLevel _ base | .machine base _ => base
  | .slot _ => ""

/-- The modules that a name lives in. -/
def namespaces : Name → List String
  | .topLevel namespaces _ => namespaces
  | .machine _ _ | .slot _ => []

/-- The name as it is written in source text and messages. -/
def display : Name → String
  | .topLevel namespaces base => String.intercalate "." (namespaces ++ [base])
  | .machine base index => "\x7b" ++ base ++ "_" ++ Numeral.intText index ++ "\x7d"
  | .slot index => "loc" ++ Numeral.intText index

/-- Splits a text at every dot. -/
def splitDots : List Char → List (List Char)
  | [] => [[]]
  | c :: rest =>
    if c = '.' then [] :: splitDots rest
    else match splitDots rest with
      | [] => [[c]]
      | part :: parts => (c :: part) :: parts

/-- Splits a text at its last underscore. -/
def splitLastUnderscore? : List Char → Option (List Char × List Char)
  | [] => none
  | c :: rest =>
    match splitLastUnderscore? rest with
    | some (before, after) => some (c :: before, after)
    | none => if c = '_' then some ([], rest) else none

/-- The text between a brace at the start and a brace at the end. -/
def insideBraces? : List Char → Option (List Char)
  | [] => none
  | c :: rest =>
    if c = '\x7b' && rest.getLast? = some '\x7d' then some rest.dropLast else none

/-- The parts of a made-up name: a base and digits after the last underscore, in braces. -/
def machineParts? (s : List Char) : Option (List Char × List Char) :=
  match insideBraces? s with
  | none => none
  | some inner =>
    match splitLastUnderscore? inner with
    | some (base, digits) =>
      if !digits.isEmpty && digits.all Char.isDigit then some (base, digits) else none
    | none => none

/-- A number has more digits than can be read. -/
structure TooManyDigits where
  count : Nat
  deriving DecidableEq, Repr

/-- A decimal numeral is canonical if it has no superfluous zeros in front. -/
def isCanonical (digits : List Char) : Bool := Nat.toDigits 10 (Nat.ofDigitChars 10 digits 0) = digits

/-- A global name: the last part is its base, unless some part is empty and the dots are part of
the base. -/
def parseTopLevel (s : List Char) : Name :=
  let parts := splitDots s
  if 1 < parts.length && parts.all (!·.isEmpty) then
    .topLevel (parts.dropLast.map String.ofList) (String.ofList (parts.getLast?.getD []))
  else .plain (String.ofList s)

/-- The name that a text is written for. -/
def parse (s : String) : Except TooManyDigits Name :=
  match machineParts? s.toList with
  | some (base, digits) =>
    if Numeral.digitLimit < digits.length then .error ⟨digits.length⟩
    else if isCanonical digits then
      .ok (.machine (String.ofList base) (Nat.ofDigitChars 10 digits 0 : Nat))
    else .ok (parseTopLevel s.toList)
  | none => .ok (parseTopLevel s.toList)

end Name

end Vimgen
