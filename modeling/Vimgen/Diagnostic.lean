/-!
# Diagnostics

A `Failure` is what went wrong, of one of four families, with a code and perhaps some help. A
`Diagnostic` is what is reported about it: `Diagnostic.format` lays it out, plain or in colour, and
`formatAll` adds how many there were. Colour only adds to the text.
-/

namespace Vimgen

/-- Families of failures. -/
inductive Family where
  | general
  | unsupported
  | malformedCall
  | badFormat
  deriving DecidableEq, Repr, Inhabited

/-- The code of a failure that has none of its own. -/
def Family.defaultCode : Family → String
  | .general => "E0001"
  | .unsupported => "E0101"
  | .malformedCall => "E0201"
  | .badFormat => "E0301"

/-- What went wrong, and in which definition if that is known. -/
structure Failure where
  family : Family
  message : String
  code : String
  help : Option String
  definition : Option String
  deriving DecidableEq, Repr, Inhabited

/-- An option that holds a text, and not the empty one. -/
def nonempty? : Option String → Option String
  | some s => if s.isEmpty then none else some s
  | none => none

namespace Failure

/-- A failure outside any definition; an empty code is none. -/
def make (family : Family) (message : String) (code help : Option String) : Failure :=
  ⟨family, message, (nonempty? code).getD family.defaultCode, help, none⟩

/-- The failure in a definition. -/
def within (f : Failure) (definition : Option String) : Failure := { f with definition }

/-- The failure in short. -/
def summary (f : Failure) : String :=
  let head := s!"error[{f.code}]: {f.message}"
  match nonempty? f.definition with
  | some d => head ++ s!"\n --> in definition `{d}`"
  | none => head

end Failure

/-- What is reported. -/
structure Diagnostic where
  message : String
  definition : Option String := none
  code : Option String := none
  help : Option String := none
  note : Option String := none
  deriving DecidableEq, Repr, Inhabited

/-- The report of a failure. -/
def Failure.diagnostic (f : Failure) : Diagnostic :=
  { message := f.message, definition := f.definition, code := some f.code, help := f.help }

/-- Ways to set off a text. -/
inductive Style where
  | bold
  | red
  | blue
  | cyan
  deriving DecidableEq, Repr

/-- The number of a style in a terminal's control sequence. -/
def Style.parameter : Style → String
  | .bold => "1"
  | .red => "31"
  | .blue => "34"
  | .cyan => "36"

/-- A terminal's control sequence for a style number. -/
def controlSequence (parameter : String) : String := "\x1b[" ++ parameter ++ "m"

/-- A text in some styles, which end after it. -/
def styled (color : Bool) (styles : List Style) (text : String) : String :=
  if color then
    String.join (styles.map fun s => controlSequence s.parameter) ++ text ++ controlSequence "0"
  else text

namespace Diagnostic

/-- The first line: the code if there is one, and the message. -/
def headline (color : Bool) (d : Diagnostic) : String :=
  let code := ((nonempty? d.code).map fun c => "[" ++ c ++ "]").getD ""
  styled color [.bold, .red] ("error" ++ code) ++ styled color [.bold] (": " ++ d.message)

/-- The line that says where. -/
def place (color : Bool) (d : Diagnostic) : String :=
  let whereabouts :=
    ((nonempty? d.definition).map fun n => s!"in definition `{n}`").getD "<unknown definition>"
  styled color [.bold, .blue] " --> " ++ whereabouts

/-- A line of help or a note. -/
def remark (color : Bool) (label text : String) : String :=
  styled color [.bold, .cyan] "  = " ++ styled color [.bold] label ++ text

/-- Help and note, under a bar. -/
def remarks (color : Bool) (d : Diagnostic) : List String :=
  let lines :=
    ((nonempty? d.help).map (remark color "help: ")).toList ++
      ((nonempty? d.note).map (remark color "note: ")).toList
  if lines.isEmpty then [] else styled color [.bold, .blue] "  |" :: lines

/-- The diagnostic as text. -/
def format (color : Bool) (d : Diagnostic) : String :=
  String.intercalate "\n" (d.headline color :: d.place color :: d.remarks color)

/-- The last line: how many there were. -/
def total (color : Bool) (count : Nat) : String :=
  let plural := if count = 1 then "" else "s"
  styled color [.bold, .red] "error" ++
    styled color [.bold] s!": aborting due to {count} previous error{plural}"

/-- All diagnostics and their number. -/
def formatAll (color : Bool) (ds : List Diagnostic) : String :=
  String.intercalate "\n\n" (ds.map (format color) ++ [total color ds.length])

end Diagnostic

end Vimgen
