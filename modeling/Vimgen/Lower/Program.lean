import Vimgen.Lower.Expr

/-!
# Lowering of programs

Every definition becomes a function of the script, and the script ends with a call of the entry
point. All definitions are bound before any is lowered, so their order does not matter.
-/

namespace Vimgen.Lower

open Script (Block ScopedName Stmt)

/-- The script function of a definition's name. -/
def functionName (n : Name) : ScopedName := ⟨.script, n.target⟩

/-- Binds the name of every definition. -/
def globalEnv (definitions : List Ir.Definition) : Env :=
  Env.empty.extendAll (definitions.map fun d => (d.name, functionName d.name))

/-- The parameters of a function with `arity` arguments, as bindings of its first slots. -/
def parameters (arity : Nat) : List (Name × ScopedName) :=
  (List.range arity).map fun (i : Nat) => (.slot i, ⟨.argument, (Name.slot i).target⟩)

/-- The statements of a definition's body. -/
def lowerBody (env : Env) (d : Ir.Definition) : Except LowerError Block :=
  lower (env.extendAll (parameters d.arity)) returnValue d.body

/-- The function of a definition. -/
def lowerDefinition (env : Env) (d : Ir.Definition) : Except LowerError Stmt := do
  let body ← lowerBody env d
  return .function (functionName d.name) ((parameters d.arity).map fun p => p.2.base) body

/-- A definition that cannot be lowered. -/
structure DefinitionError where
  definition : Name
  cause : LowerError

/-- The failure to report, in its definition. -/
def DefinitionError.failure? (e : DefinitionError) : Option Failure :=
  e.cause.failure?.map (·.within (some e.definition.display))

/-- The functions of definitions in order, up to the first that cannot be lowered. -/
def lowerDefinitions (env : Env) : List Ir.Definition → Except DefinitionError (List Stmt)
  | [] => .ok []
  | d :: rest =>
    match lowerDefinition env d with
    | .error cause => .error ⟨d.name, cause⟩
    | .ok function => do return function :: (← lowerDefinitions env rest)

/-- What a script starts with. -/
def entryName : ScopedName := functionName Name.entryPoint

/-- The script of a program. -/
def lowerProgram (definitions : List Ir.Definition) : Except DefinitionError Script.Program := do
  let functions ← lowerDefinitions (globalEnv definitions) definitions
  return ⟨functions ++ [.call entryName []]⟩

end Vimgen.Lower
