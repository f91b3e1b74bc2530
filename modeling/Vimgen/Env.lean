import Vimgen.Name.Mangle
import Vimgen.Script.Basic

/-!
# Environments

An environment says which script name stands for a name. Bindings are kept in the order in which
names were first bound; binding a name again changes what it stands for and not its place.
`Env.lookup` takes an unbound name to be global.
-/

namespace Vimgen

open Script (ScopedName)

/-- Names with the script names they stand for, in order of first binding. -/
structure Env where
  bindings : List (Name × ScopedName) := []
  deriving DecidableEq, Repr, Inhabited

namespace Env

/-- No bindings. -/
def empty : Env := ⟨[]⟩

/-- Binds in place, or at the end. -/
def bindIn (name : Name) (target : ScopedName) :
    List (Name × ScopedName) → List (Name × ScopedName)
  | [] => [(name, target)]
  | (n, s) :: rest => if n = name then (n, target) :: rest else (n, s) :: bindIn name target rest

/-- The environment with one more binding. -/
def extend (env : Env) (name : Name) (target : ScopedName) : Env :=
  ⟨bindIn name target env.bindings⟩

/-- The environment with more bindings, the last one of a name being valid. -/
def extendAll (env : Env) (pairs : List (Name × ScopedName)) : Env :=
  ⟨pairs.foldl (fun bindings p => bindIn p.1 p.2 bindings) env.bindings⟩

/-- What a name is bound to. -/
def find? (env : Env) (name : Name) : Option ScopedName :=
  (env.bindings.find? fun p => p.1 = name).map Prod.snd

/-- What a name stands for; unbound names are global. -/
def lookup (env : Env) (name : Name) : ScopedName :=
  (env.find? name).getD ⟨.global, name.target⟩

/-- Whether a name is bound. -/
def contains (env : Env) (name : Name) : Bool := (env.find? name).isSome

/-- The number of bound names. -/
def size (env : Env) : Nat := env.bindings.length

/-- The bindings on one line, in order. -/
def inspect (env : Env) : String :=
  let entries := env.bindings.map fun p => p.1.display ++ ": " ++ p.2.text
  "Environment(\x7b" ++ String.intercalate ", " entries ++ "\x7d)"

end Env

end Vimgen
