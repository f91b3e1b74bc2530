import Vimgen.Text.Quoted

/-!
# Paths

A path is absolute or relative, and a list of names. Empty names and single dots say nothing and
are dropped when a path is read; two dots are kept.
-/

namespace Vimgen.Files

/-- A path; the root is empty for a relative one. -/
structure Path where
  root : String := ""
  parts : List String := []
  deriving DecidableEq, Repr, Inhabited

/-- Splits a text at every slash. -/
def splitSlashes : List Char → List (List Char)
  | [] => [[]]
  | c :: rest =>
    if c = '/' then [] :: splitSlashes rest
    else match splitSlashes rest with
      | [] => [[c]]
      | part :: parts => (c :: part) :: parts

namespace Path

/-- The root of a text: exactly two slashes are a root of their own. -/
def rootOf : List Char → String
  | '/' :: '/' :: '/' :: _ => "/"
  | '/' :: '/' :: _ => "//"
  | '/' :: _ => "/"
  | _ => ""

/-- Reads a path. -/
def ofText (s : String) : Path :=
  { root := rootOf s.toList
    parts := ((splitSlashes s.toList).map String.ofList).filter fun p => p ≠ "" && p ≠ "." }

/-- Writes a path; the empty one is a dot. -/
def text (p : Path) : String :=
  let s := p.root ++ String.intercalate "/" p.parts
  if s.isEmpty then "." else s

/-- The path in quotes, for messages. -/
def quoted (p : Path) : String := Text.quoted p.text

/-- Whether the path starts at the root. -/
def isAbsolute (p : Path) : Bool := p.root ≠ ""

/-- Whether a name has a null character, which no file has. -/
def hasNull (p : Path) : Bool := p.parts.any fun name => name.toList.contains '\x00'

/-- The last name, if there is one. -/
def name? (p : Path) : Option String := p.parts.getLast?

/-- The path without its last name. -/
def parent (p : Path) : Path := { p with parts := p.parts.dropLast }

/-- Splits a name before its last dot, which is neither its first nor its last character. -/
def splitSuffix (name : List Char) : List Char × List Char :=
  let suffix := (name.reverse.takeWhile (· ≠ '.')).reverse
  let stem := name.take (name.length - suffix.length - 1)
  if stem.isEmpty || suffix.isEmpty then (name, []) else (stem, '.' :: suffix)

/-- The last name without its suffix. -/
def stem (p : Path) : String := String.ofList (splitSuffix (p.name?.getD "").toList).1

/-- The path with another last name, if it has one. -/
def withName? (p : Path) (name : String) : Option Path :=
  if p.parts.isEmpty then none else some { p with parts := p.parts.dropLast ++ [name] }

/-- The path with another suffix, if it has a last name. -/
def withSuffix? (p : Path) (suffix : String) : Option Path := p.withName? (p.stem ++ suffix)

/-- Follows names from a place, two dots leading up. -/
def follow (place : List String) : List String → List String
  | [] => place
  | part :: rest => follow (if part = ".." then place.dropLast else place ++ [part]) rest

/-- The place of a path, seen from the directory `here`, without two dots. -/
def resolve (here : List String) (p : Path) : Path :=
  ⟨"/", follow (if p.isAbsolute then [] else here) p.parts⟩

end Path

end Vimgen.Files
