import Vimgen.Proofs.Parts

/-!
# What lowering does not read

`Expr.erase` forgets what the code generator has no use for: that a value may be written over a
variable, that a call is in tail position, that a choice is checked, how constructors, fields and
parameters are called, the types of foreign arguments, and which type a type constant is. Lowering
an erased expression does the same as lowering the expression, `lower_erase`, under every
continuation and in every environment, failures included. So nothing that is erased has any
influence on a function (`lowerDefinition_depends_on_erasure`) or on a script (`lowerProgram_erase`).
-/

namespace Vimgen.Ir

/-! ## Erasure -/

/-- What stands in the place of a name that is forgotten. -/
def noName : Name := .plain ""

/-- The constant without the name of a type. -/
def Const.erase : Const → Const
  | .type _ => .type ""
  | c => c

/-- The argument without its type. -/
def ForeignArg.erase (a : ForeignArg) : ForeignArg := { a with type := .unknown }

mutual

/-- The expression without what lowering does not read. What no text can say is forgotten too: a
place to reuse, the type of a result, and sharing. -/
def Expr.erase : Expr → Expr
  | .var v => .var v
  | .app function args _ => .app function args false
  | .bind v value body => .bind v value.erase body.erase
  | .update _ value => value.erase
  | .con tag _ args _ => .con tag noName args none
  | .case scrutinee alts _ _ => .case scrutinee (altsErase alts) false true
  | .proj v index => .proj v index
  | .const c => .const c.erase
  | .foreign function args _ => .foreign function (args.map ForeignArg.erase) none
  | .op op args => .op op args
  | .nothing => .nothing
  | .error message => .error message

/-- The alternative without what lowering does not read; its fields keep their number. -/
def Alt.erase : Alt → Alt
  | .const c body => .const c.erase body.erase
  | .con first tag _ fields body =>
    .con first tag noName (List.replicate fields.length noName) body.erase
  | .default body => .default body.erase

def altsErase : List Alt → List Alt
  | [] => []
  | alt :: rest => alt.erase :: altsErase rest

end

/-- The definition with its name, the number of its parameters, and its body erased. -/
def Definition.erase (d : Definition) : Definition where
  name := d.name
  params := List.replicate d.arity noName
  body := d.body.erase

theorem Definition.arity_erase (d : Definition) : d.erase.arity = d.arity :=
  List.length_replicate

end Vimgen.Ir

namespace Vimgen.Lower

open Ir (Definition)

/-! ## Lowering what is erased -/

theorem lowerConst_erase (c : Ir.Const) : lowerConst c.erase = lowerConst c := by
  cases c with
  | int | bigInt | float | char | str | bits | world | type => rfl

/-- Arguments are looked up by their variables. -/
theorem resolve_args_erase (env : Env) (args : List Ir.ForeignArg) :
    (args.map Ir.ForeignArg.erase).map (fun a => resolve env a.var) =
      args.map fun a => resolve env a.var := by
  rw [List.map_map]
  rfl

theorem lower_erase_leaf {e : Ir.Expr} (hleaf : isLeaf e = true) (env : Env) (ret : Continuation) :
    lower env ret e.erase = lower env ret e := by
  cases e with
  | const c => rw [Ir.Expr.erase, lower, lower, lowerConst_erase]
  | foreign function args result => rw [Ir.Expr.erase, lower, lower, resolve_args_erase]
  | var | app | con | proj | op | nothing | error => rfl
  | bind | update | case => cases hleaf

/-- An alternative, if its body does so in every environment: its test does not depend on names, nor
do the slots of its fields. -/
theorem lowerAlt_erase {alt : Ir.Alt} {ret : Continuation}
    (hbody : ∀ env, lower env ret alt.body.erase = lower env ret alt.body)
    (scrutinee : Script.Expr) (env : Env) :
    lowerAlt scrutinee env ret alt.erase = lowerAlt scrutinee env ret alt := by
  cases alt with
  | const c body =>
    have hsame : lower env ret body.erase = lower env ret body := hbody env
    rw [Ir.Alt.erase, lowerAlt, lowerAlt, lowerConst_erase, hsame]
  | con first tag name fields body =>
    -- of the fields only their number is read
    have hsame : ∀ env, lower env ret body.erase = lower env ret body := hbody
    simp only [Ir.Alt.erase, lowerAlt, List.length_replicate, hsame]
  | default body =>
    have hsame : lower env ret body.erase = lower env ret body := hbody env
    rw [Ir.Alt.erase, lowerAlt, lowerAlt, hsame]

/-- Alternatives in order, up to the first that fails. -/
theorem lowerAlts_erase {alts : List Ir.Alt} {ret : Continuation}
    (hbodies : ∀ alt ∈ alts, ∀ env, lower env ret alt.body.erase = lower env ret alt.body)
    (scrutinee : Script.Expr) (env : Env) :
    lowerAlts scrutinee env ret (Ir.altsErase alts) = lowerAlts scrutinee env ret alts := by
  induction alts with
  | nil => rfl
  | cons alt rest ih =>
    obtain ⟨halt, hrest⟩ := List.forall_mem_cons.1 hbodies
    rw [Ir.altsErase, lowerAlts, lowerAlts, lowerAlt_erase halt, ih hrest]

/-- **An erased expression is lowered to the same statements**, or fails in the same way. -/
theorem lower_erase (e : Ir.Expr) : ∀ (env : Env) (ret : Continuation),
    lower env ret e.erase = lower env ret e := by
  induction e using Ir.Expr.byParts with
  | leaf e hleaf => exact lower_erase_leaf hleaf
  | bind v value body hvalue hbody =>
    intro env ret
    cases v with
    | glob n => rfl
    | loc i => rw [Ir.Expr.erase, lower, lower, hvalue, hbody]
  | update v value hvalue =>
    -- erasure takes the wrapper away, and lowering passes through it
    exact hvalue
  | case v alts checked shared halts =>
    intro env ret
    rw [Ir.Expr.erase, lower, lower, lowerAlts_erase fun alt hmem env => halts alt hmem env ret]

theorem lowerDefinition_erase (env : Env) (d : Definition) :
    lowerDefinition env d.erase = lowerDefinition env d := by
  have hbody : lowerBody env d.erase = lowerBody env d := by
    rw [lowerBody, lowerBody, d.arity_erase]
    exact lower_erase d.body _ _
  rw [lowerDefinition, lowerDefinition, hbody, d.arity_erase]
  rfl

/-! ## Definitions and programs -/

/-- **What is erased has no influence on a function.** Two definitions with the same erasure, and so
with the same name and the same number of parameters, are lowered to the same function in every
environment, or fail there with the same error. -/
theorem lowerDefinition_depends_on_erasure {d e : Definition} (h : d.erase = e.erase) (env : Env) :
    lowerDefinition env d = lowerDefinition env e :=
  calc lowerDefinition env d
    _ = lowerDefinition env d.erase := (lowerDefinition_erase env d).symm
    _ = lowerDefinition env e.erase := by rw [h]
    _ = lowerDefinition env e := lowerDefinition_erase env e

/-- A definition with something to forget in every place. -/
def annotated : Definition where
  name := .plain "f"
  params := [.plain "list"]
  body := .update (.loc 0) (.case (.loc 0)
    [.con 1 0 (.plain "Nil") [] (.app (.plain "g") [.loc 0] true),
      .con 1 1 (.plain "Cons") [.plain "head", .plain "tail"]
        (.bind (.loc 3) (.update (.loc 1) (.con 2 (.plain "Pair") [.loc 1, .loc 2] none))
          (.foreign (.app "VIM_BuiltIn" [.str "len"]) [⟨.con "List", .loc 3⟩] none)),
      .const (.type "Int") (.update (.loc 0) (.update (.loc 0) .nothing))] true true)

/-- The same function, written with other names and without annotations. -/
def unannotated : Definition where
  name := .plain "f"
  params := [.plain "xs"]
  body := .case (.loc 0)
    [.con 1 0 (.plain "Empty") [] (.app (.plain "g") [.loc 0] false),
      .con 1 1 (.plain "More") [.plain "x", .plain "rest"]
        (.bind (.loc 3) (.con 2 (.plain "Two") [.loc 1, .loc 2] none)
          (.foreign (.app "VIM_BuiltIn" [.str "len"]) [⟨.unknown, .loc 3⟩] none)),
      .const (.type "Type") .nothing] false true

theorem lowerDefinition_depends_on_erasure_annotated :
    annotated.erase = unannotated.erase ∧ annotated.body ≠ unannotated.body ∧
    ∃ function, lowerDefinition (globalEnv [annotated]) annotated = .ok function ∧
      lowerDefinition (globalEnv [annotated]) unannotated = .ok function := by
  have herase : annotated.erase = unannotated.erase := rfl
  have hsame := lowerDefinition_depends_on_erasure herase (globalEnv [annotated])
  refine ⟨herase, fun h => (by cases h), _, rfl, ?_⟩
  rw [← hsame]
  rfl

theorem lowerDefinitions_erase (env : Env) (ds : List Definition) :
    lowerDefinitions env (ds.map Definition.erase) = lowerDefinitions env ds := by
  induction ds with
  | nil => rfl
  | cons d ds ih =>
    rw [List.map_cons, lowerDefinitions, lowerDefinitions, lowerDefinition_erase, ih]
    rfl

/-- **An erased program has the same script.** All its names are bound as before. -/
theorem lowerProgram_erase (ds : List Definition) :
    lowerProgram (ds.map Definition.erase) = lowerProgram ds := by
  have henv : globalEnv (ds.map Definition.erase) = globalEnv ds := by
    rw [globalEnv, globalEnv, List.map_map]
    rfl
  rw [lowerProgram, lowerProgram, henv, lowerDefinitions_erase]

end Vimgen.Lower
