import Vimgen.Command.Run

/-!
# The command line program

Loads the files that the command may touch, runs it, and carries out what it did.
-/

namespace Vimgen.Command

open Files

/-- The text of a place. -/
def placeText (place : Place) : String := "/" ++ String.intercalate "/" place

/-- The places from the root down to one. -/
def placesTo (place : Place) : List Place :=
  (List.range (place.length + 1)).map place.take

/-- What is at a place of the real file system. -/
def probe (place : Place) : IO (Option Entry) := do
  let path := (← IO.currentDir) / placeText place
  if ← path.isDir then return some .directory
  else if ← path.pathExists then return some (.file (← IO.FS.readBinFile path).toList)
  else return none

/-- The part of the real file system that the command may touch. -/
def loadTree (words : List String) : IO Tree := do
  let here := (Path.ofText (← IO.currentDir).toString).parts
  let places := (pathsOf here words).map fun p => (p.resolve here).parts
  let mut tree : Tree := { here }
  for place in (here :: places).flatMap placesTo do
    if let some entry ← probe place then tree := tree.put place entry
  return tree

/-- Carries out what changed between two trees. -/
def storeChanges (before after : Tree) : IO Unit :=
  for (place, entry) in (after.changesSince before).reverse do
    match entry with
    | .directory => IO.FS.createDirAll (placeText place)
    | .file bytes => IO.FS.writeBinFile (placeText place) ⟨bytes.toArray⟩

/-- The settings in the environment. -/
def loadSettings : IO Settings := do
  return {
    noColor := ← IO.getEnv Settings.noColorVar
    colorChoice := ← IO.getEnv Settings.colorChoiceVar
    dumpIr := ← IO.getEnv Settings.dumpIrVar }

end Vimgen.Command

open Vimgen.Command in
/-- Runs the command on the words it was given. -/
def main (words : List String) : IO UInt32 := do
  let before ← loadTree words
  let done := run (← loadSettings) words before
  storeChanges before done.tree
  IO.print done.stdout
  IO.eprint done.stderr
  match done.status with
  | .ok status => return status.toUInt32
  | .error fault =>
    IO.eprintln fault.message
    return 1
