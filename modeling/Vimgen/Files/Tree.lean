import Vimgen.Files.Path

/-!
# File trees

The files and directories of a system, as a map from places to what is there: `Tree`. The
operations are those a compiler needs: reading and writing a file, and making directories. Each
says why it cannot be done, with the path it was asked for. Names and paths have a greatest length,
in bytes; a name that is too long is noticed only in a directory that is there.
-/

namespace Vimgen.Files

/-- The names that lead to a file or directory from the root. -/
abbrev Place := List String

/-- A file with its bytes, or a directory. -/
inductive Entry where
  | file (bytes : List UInt8)
  | directory
  deriving DecidableEq, Repr, Inhabited

/-- Why a file operation cannot be done. -/
inductive OsErrorKind where
  | notFound
  | exists
  | notADirectory
  | isADirectory
  | nameTooLong
  | nullCharacter
  deriving DecidableEq, Repr

/-- Whether the system refuses the operation; a path with a null character does not get that far. -/
def OsErrorKind.isRefusal : OsErrorKind → Bool
  | .nullCharacter => false
  | _ => true

/-- A file operation that cannot be done, with its path. -/
structure OsError where
  kind : OsErrorKind
  path : Path
  deriving DecidableEq, Repr

/-- The number and the wording of a kind of failure. -/
def OsErrorKind.message : OsErrorKind → String
  | .notFound => "[Errno 2] No such file or directory"
  | .exists => "[Errno 17] File exists"
  | .notADirectory => "[Errno 20] Not a directory"
  | .isADirectory => "[Errno 21] Is a directory"
  | .nameTooLong => "[Errno 36] File name too long"
  | .nullCharacter => "embedded null byte"

/-- The wording of a failure, with its path if the system refused it. -/
def OsError.message (e : OsError) : String :=
  if e.kind.isRefusal then e.kind.message ++ ": " ++ e.path.quoted else e.kind.message

/-- The greatest number of bytes in a name. -/
def nameLimit : Nat := 255

/-- The greatest number of bytes in the text of a path. -/
def pathLimit : Nat := 4095

/-- Files and directories by their place, the current directory among them. -/
structure Tree where
  entries : List (Place × Entry) := []
  here : Place := []
  deriving DecidableEq, Repr, Inhabited

namespace Tree

/-- What is at a place; the root is always there. -/
def get? (t : Tree) (place : Place) : Option Entry :=
  if place.isEmpty then some .directory else t.entries.lookup place

/-- Puts a file or directory at a place. -/
def put (t : Tree) (place : Place) (entry : Entry) : Tree :=
  { t with entries := (place, entry) :: t.entries.filter fun e => e.1 ≠ place }

/-- Follows the names of a path through directories; the last one need not exist. -/
def walk (t : Tree) (place : Place) : List String → Except OsErrorKind Place
  | [] => .ok place
  | part :: rest =>
    match t.get? place with
    | none => .error .notFound
    | some (.file _) => .error .notADirectory
    | some .directory =>
      if nameLimit < part.utf8ByteSize then .error .nameTooLong
      else t.walk (if part = ".." then place.dropLast else place ++ [part]) rest

/-- The place of a path. -/
def locate (t : Tree) (p : Path) : Except OsErrorKind Place :=
  if p.hasNull then .error .nullCharacter
  else if pathLimit < p.text.utf8ByteSize then .error .nameTooLong
  else t.walk (if p.isAbsolute then [] else t.here) p.parts

/-- What is at a path. -/
def entry? (t : Tree) (p : Path) : Option Entry :=
  match t.locate p with
  | .ok place => t.get? place
  | .error _ => none

/-- What is at a path, nothing being there also where the way to it is missing; other obstacles are
errors. -/
def status (t : Tree) (p : Path) : Except OsError (Option Entry) :=
  match t.locate p with
  | .ok place => .ok (t.get? place)
  | .error .notFound | .error .notADirectory => .ok none
  | .error kind => .error ⟨kind, p⟩

/-- The bytes of a file. -/
def read (t : Tree) (p : Path) : Except OsError (List UInt8) :=
  match t.locate p with
  | .error kind => .error ⟨kind, p⟩
  | .ok place =>
    match t.get? place with
    | none => .error ⟨.notFound, p⟩
    | some .directory => .error ⟨.isADirectory, p⟩
    | some (.file bytes) => .ok bytes

/-- Writes a file into a directory that exists. -/
def write (t : Tree) (p : Path) (bytes : List UInt8) : Except OsError Tree :=
  match t.locate p with
  | .error kind => .error ⟨kind, p⟩
  | .ok place =>
    if t.get? place = some .directory then .error ⟨.isADirectory, p⟩
    else .ok (t.put place (.file bytes))

/-- Makes one directory in a directory that exists. -/
def makeDirectory (t : Tree) (p : Path) : Except OsErrorKind Tree :=
  match t.locate p with
  | .error kind => .error kind
  | .ok place =>
    if (t.get? place).isSome then .error .exists else .ok (t.put place .directory)

/-- Makes one directory, unless there is one already. -/
def ensureDirectory (t : Tree) (p : Path) : Tree × Option OsError :=
  match t.makeDirectory p with
  | .ok t' => (t', none)
  | .error kind => (t, if t.entry? p = some .directory then none else some ⟨kind, p⟩)

/-- Makes a directory, and up to `depth` missing ones above it. -/
def ensureDirectories (t : Tree) (p : Path) : Nat → Tree × Option OsError
  | 0 => t.ensureDirectory p
  | depth + 1 =>
    match t.makeDirectory p with
    | .error .notFound =>
      match t.ensureDirectories p.parent depth with
      | (above, some e) => (above, some e)
      | (above, none) => above.ensureDirectory p
    | _ => t.ensureDirectory p

/-- Writes a file, making the directories above it where they are missing. The tree comes with the
reason why the file could not be written, if it could not. -/
def save (t : Tree) (p : Path) (bytes : List UInt8) : Tree × Option OsError :=
  match t.ensureDirectories p.parent p.parent.parts.length with
  | (t', some e) => (t', some e)
  | (t', none) =>
    match t'.write p bytes with
    | .ok t'' => (t'', none)
    | .error e => (t', some e)

/-- What a tree has that another one lacks or has differently. -/
def changesSince (t before : Tree) : List (Place × Entry) :=
  t.entries.filter fun e => before.get? e.1 ≠ some e.2

end Tree

end Vimgen.Files
