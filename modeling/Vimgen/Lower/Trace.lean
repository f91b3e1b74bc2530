import Vimgen.Lower.Program

/-!
# What lowering reports on the way

Lowering notes each choice with several defaults when it is done with it, each function, and the
whole script. A failure ends the notes, so they depend on where lowering stops: `Notes` keeps both.
-/

namespace Vimgen.Lower

/-- Numbers of defaults, one for each choice that has several, and whether lowering goes on. -/
structure Notes where
  merged : List Nat
  ok : Bool
  deriving DecidableEq, Repr

namespace Notes

/-- Nothing to note. -/
def none (ok : Bool) : Notes := ⟨[], ok⟩

/-- Notes of one part after another; nothing follows a failure. -/
def append (a b : Notes) : Notes := if a.ok then ⟨a.merged ++ b.merged, b.ok⟩ else a

end Notes

/-- The outcome of a step as notes. -/
def outcome {α : Type} : Except LowerError α → Notes
  | .ok _ => .none true
  | .error _ => .none false

/-- The number of defaults of a choice. -/
def countDefaults : List Ir.Alt → Nat
  | [] => 0
  | .default _ :: rest => countDefaults rest + 1
  | _ :: rest => countDefaults rest

mutual

/-- The notes of an expression. -/
def exprNotes : Ir.Expr → Notes
  | .bind (.glob _) _ _ => .none false
  | .bind (.loc _) value body => (exprNotes value).append (exprNotes body)
  | .update _ value => exprNotes value
  | .case _ alts _ _ =>
    let merged := if 1 < countDefaults alts then [countDefaults alts] else []
    (altsNotes alts).append ⟨merged, true⟩
  | .const c => outcome (lowerConst c)
  | .foreign function args result =>
    outcome (lower Env.empty returnValue (.foreign function args result))
  | .op op args => outcome (lower Env.empty returnValue (.op op args))
  | _ => .none true

/-- The notes of an alternative. -/
def altNotes : Ir.Alt → Notes
  | .const c body => (outcome (lowerConst c)).append (exprNotes body)
  | .con first _ _ fields body => (outcome (fieldSlots first fields.length)).append (exprNotes body)
  | .default body => exprNotes body

/-- The notes of alternatives in order. -/
def altsNotes : List Ir.Alt → Notes
  | [] => .none true
  | alt :: rest => (altNotes alt).append (altsNotes rest)

end

/-- What is noted while a program is lowered. -/
inductive Event where
  | merged (defaults : Nat)
  | lowered (name : Name) (arity statements : Nat)
  | assembled (functions : Nat)
  deriving DecidableEq, Repr

/-- The part of the program that an event comes from. -/
def Event.source : Event → String
  | .merged _ => "idrisvim.backends.vim_cases"
  | .lowered _ _ _ => "idrisvim.backends.vim"
  | .assembled _ => "idrisvim.backends.vim"

/-- What the log says of an event. -/
def Event.text : Event → String
  | .merged defaults => s!"[vim] case has {defaults} default arms; concatenating"
  | .lowered name arity statements =>
    s!"[vim] lowered {name.display} ({arity} args, {statements} statements)"
  | .assembled functions => s!"[vim] assembled {functions} functions, entry {entryName.text}"

/-- The events of definitions in order, and whether all of them can be lowered. -/
def definitionEvents (env : Env) : List Ir.Definition → List Event × Bool
  | [] => ([], true)
  | d :: rest =>
    let merged := (exprNotes d.body).merged.map Event.merged
    match lowerBody env d with
    | .error _ => (merged, false)
    | .ok body =>
      let (events, ok) := definitionEvents env rest
      (merged ++ .lowered d.name d.arity body.length :: events, ok)

/-- The events of a program. -/
def programEvents (definitions : List Ir.Definition) : List Event :=
  let (events, ok) := definitionEvents (globalEnv definitions) definitions
  if ok then events ++ [.assembled definitions.length] else events

end Vimgen.Lower
