import Vimgen.Sexp.Datum

/-!
# Writing S-expressions

Two forms of a value. `Datum.flat` is one line in which every text and symbol is escaped.
`Datum.pretty` breaks a list over several lines when it is too long for one; it writes texts as they
are, save for backslashes and quotes, and it has no spelling for some values (`unprintable?`).
-/

namespace Vimgen.Sexp

/-- The escape of a character in a flat text. -/
def flatEscape (c : Char) : List Char :=
  if c = '\\' then ['\\', '\\']
  else if c = '"' then ['\\', '"']
  else if c = '\x08' then ['\\', 'b']
  else if c = '\x0c' then ['\\', 'f']
  else if c = '\n' then ['\\', 'n']
  else if c = '\r' then ['\\', 'r']
  else if c = '\t' then ['\\', 't']
  else [c]

/-- The escape of a character in a flat symbol. -/
def symbolEscape (c : Char) : List Char :=
  if isEscapable c then ['\\', c] else [c]

/-- The escape of a character in a laid-out text. -/
def prettyEscape (c : Char) : List Char :=
  if c = '\\' || c = '"' then ['\\', c] else [c]

/-- A text in double quotes under the given escapes. -/
def inQuotes (escape : Char → List Char) (s : String) : String :=
  String.ofList ('"' :: s.toList.flatMap escape ++ ['"'])

namespace Datum

mutual

/-- The value on one line, everything escaped. -/
def flat : Datum → String
  | .list items => "(" ++ String.intercalate " " (flatAll items) ++ ")"
  | .bracketed items => "[" ++ String.intercalate " " (flatAll items) ++ "]"
  | .quoted item => "'" ++ item.flat
  | .text value => inQuotes flatEscape value
  | .symbol name => String.ofList (name.toList.flatMap symbolEscape)
  | .integer value => Numeral.intText value
  | .real value => value.text
  | .bool value => if value then "t" else "()"
  | .null => "()"

def flatAll : List Datum → List String
  | [] => []
  | item :: rest => item.flat :: flatAll rest

end

/-- A value without a laid-out form: of the wrong kind, or an integer with too many digits. -/
inductive Unprintable where
  | boolean
  | kind (name : String)
  | digits
  deriving DecidableEq, Repr

/-- The wording of the refusal. -/
def Unprintable.message : Unprintable → String
  | .boolean => "booleans have no IR spelling"
  | .kind name => s!"cannot print {name} as sexpr"
  | .digits => Numeral.limitMessage

mutual

/-- The first part of a value, from left to right, without a laid-out form. -/
def unprintable? : Datum → Option Unprintable
  | .list items => unprintableIn? items
  | .bracketed _ => some (.kind "Brackets")
  | .quoted _ => some (.kind "Quoted")
  | .bool _ => some .boolean
  | .null => some (.kind "NoneType")
  | .integer value => if Numeral.digitCount value ≤ Numeral.digitLimit then none else some .digits
  | .text _ | .symbol _ | .real _ => none

def unprintableIn? : List Datum → Option Unprintable
  | [] => none
  | item :: rest => item.unprintable?.or (unprintableIn? rest)

end

/-- How lists are laid out. -/
structure Layout where
  /-- The text of one step of indentation. -/
  indentText : String := "  "
  /-- The longest list on one line. -/
  maxLine : Int := 100
  deriving Repr

/-- `n` steps of indentation. -/
def Layout.indent (style : Layout) (n : Int) : String :=
  String.join (List.replicate n.toNat style.indentText)

/-- A list with laid-out `parts` at a depth of indentation: on one line if that is short enough and
no part has a line break, and otherwise one part a line. No line is begun for parts without text. -/
def Layout.list (style : Layout) (depth : Int) : List String → String
  | [] => "()"
  | first :: rest =>
    let line := "(" ++ String.intercalate " " (first :: rest) ++ ")"
    if (line.length : Int) ≤ style.maxLine && !line.toList.contains '\n' then line
    else
      let tail := String.intercalate "\n" (rest.map (style.indent (depth + 1) ++ ·))
      "(" ++ first ++ (if tail.isEmpty then "" else "\n" ++ tail) ++ "\n" ++ style.indent depth ++ ")"

mutual

/-- The laid-out form at a depth of indentation. -/
def layout (style : Layout) (depth : Int) : Datum → String
  | .list items => style.list depth (layoutAll style (depth + 1) items)
  | .text value => inQuotes prettyEscape value
  | .symbol name => name
  | .integer value => Numeral.intText value
  | .real value => value.text
  | .bracketed _ | .quoted _ | .bool _ | .null => ""

def layoutAll (style : Layout) (depth : Int) : List Datum → List String
  | [] => []
  | item :: rest => item.layout style depth :: layoutAll style depth rest

end

/-- The laid-out form of a value that has one. -/
def pretty (style : Layout) (depth : Int) (d : Datum) : Except Unprintable String :=
  match d.unprintable? with
  | some e => .error e
  | none => .ok (d.layout style depth)

end Datum

end Vimgen.Sexp
