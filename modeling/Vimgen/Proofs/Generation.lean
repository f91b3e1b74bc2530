import Vimgen.Compile.Basic
import Vimgen.Proofs.Linking
import Vimgen.Proofs.Renderable
import Vimgen.Proofs.Unsupported

/-!
# Generating scripts

* `lower_renderable`: **lowering gives renderable scripts only**, whatever rules of expressions,
  choices, primitives and foreign calls meet in an expression.
* `generate_renderable`: so there is an outcome for every program that was read, a script with its
  text or one diagnostic.

The integers of a script can be spelled, except for the positions of fields: these are bounded by
the numbers of fields (`IsScriptInt`), which can be spelled if the program has `SpellableCounts`.
-/

namespace Vimgen.Ir

/-- The number of fields of every alternative can be spelled. -/
def Expr.SpellableCounts (e : Expr) : Prop :=
  ∀ (first : Int) (count : Nat), .fields first count ∈ e.constructs → Numeral.Spellable count

end Vimgen.Ir

namespace Vimgen.Lower

open Ir (fieldRange)
open Numeral (Spellable)
open Script (Block ScopedName armsRenderable armsRenderable_iff blockRenderable
  blockRenderable_append blockRenderable_iff exprsRenderable exprsRenderable_iff)

variable {fits : Int → Prop}

/-! ## Leaves -/

/-- A continuation that keeps values renderable. -/
def KeepsRenderable (fits : Int → Prop) (ret : Continuation) : Prop :=
  ∀ x, x.Renderable fits → (ret x).Renderable fits

theorem keepsRenderable_returnValue : KeepsRenderable fits returnValue := fun _ hx => hx

theorem keepsRenderable_bindTo (name : ScopedName) : KeepsRenderable fits (bindTo name) :=
  fun _ hx => hx

theorem renderable_value {ret : Continuation} (hret : KeepsRenderable fits ret) {x : Script.Expr}
    (hx : x.Renderable fits) : blockRenderable fits [ret x] := ⟨hret x hx, trivial⟩

theorem renderable_resolveAll (env : Env) (vs : List Ir.Var) :
    exprsRenderable fits (resolveAll env vs) := by
  refine exprsRenderable_iff.2 fun x hx => ?_
  obtain ⟨v, -, rfl⟩ := List.mem_map.1 hx
  trivial

section
variable (hspell : ∀ n, Spellable n → fits n)
include hspell

theorem fits_zero : fits 0 := hspell 0 (by decide)

theorem fits_one : fits 1 := hspell 1 (by decide)

theorem lowerConst_renderable {c : Ir.Const} (hc : c.IsWritable) {x : Script.Expr}
    (h : lowerConst c = .ok x) : x.Renderable fits := by
  cases c with
  | int n => cases h; exact hspell n hc
  | bigInt n =>
    rw [lowerConst] at h
    split at h
    · cases h; exact hspell n hc
    · cases h
  | char c => cases h; trivial
  | str s => cases h; trivial
  | world => cases h; exact fits_zero hspell
  | type name => cases h; exact fits_zero hspell
  | float x => cases h
  | bits width n => cases h

/-- The expressions that primitives have of their own are made of their arguments, calls and the
integers 0 and 1. -/
theorem builtinForm_renderable {tag : Ir.PrimTag} {xs : List Script.Expr} {x : Script.Expr}
    (hxs : exprsRenderable fits xs) (h : builtinForm? tag xs = some x) : x.Renderable fits := by
  have hzero := fits_zero hspell
  have hone := fits_one hspell
  rcases xs with _ | ⟨a, _ | ⟨b, _ | ⟨c, _ | ⟨d, rest⟩⟩⟩⟩
  · cases tag <;> cases h
  · obtain ⟨ha, -⟩ := hxs
    cases tag <;> cases h <;>
      simp [callBuiltin, field, item, reverseText, Script.Expr.Renderable,
        Script.Projection.Renderable, exprsRenderable, ha, hzero, hone]
  · obtain ⟨ha, hb, -⟩ := hxs
    cases tag <;> cases h
    · exact ⟨ha, hb⟩
    · exact ⟨trivial, hb, trivial⟩
  · obtain ⟨ha, hb, hc, -⟩ := hxs
    cases tag <;> cases h
    exact ⟨trivial, hc, ha, hb, trivial⟩
  · cases tag <;> cases h

theorem primitive_renderable {op : Ir.PrimOp} {xs : List Script.Expr} {x : Script.Expr}
    (hxs : exprsRenderable fits xs) (h : primitive? op xs = some x) : x.Renderable fits := by
  unfold primitive? at h
  split at h
  · obtain ⟨name, -, rfl⟩ := Option.map_eq_some_iff.1 h
    exact ⟨trivial, hxs⟩
  · split at h
    · cases h; exact hxs.1
    · split at h
      · cases h; exact ⟨hxs.1, hxs.2.1⟩
      · cases h
    · cases h; exact ⟨hxs.1, hxs.2.1⟩
    · exact builtinForm_renderable hspell hxs h

theorem lowerPrimitive_renderable {op : Ir.PrimOp} {xs : List Script.Expr} {x : Script.Expr}
    (hxs : exprsRenderable fits xs) (h : lowerPrimitive op xs = .ok x) : x.Renderable fits := by
  unfold lowerPrimitive at h
  split at h
  · cases h
  · cases hform : primitive? op xs with
    | some y =>
      rw [hform] at h
      cases h
      exact primitive_renderable hspell hxs hform
    | none =>
      rw [hform] at h
      cases h

end

theorem lowerTagged_renderable {ret : Continuation} (hret : KeepsRenderable fits ret)
    {tag : Ir.ForeignTag} {xs : List Script.Expr} (hxs : exprsRenderable fits xs) {block : Block}
    (h : lowerTagged tag xs ret = .ok block) : blockRenderable fits block := by
  unfold lowerTagged at h
  split at h
  · cases h; exact ⟨hxs.1, trivial⟩
  · cases h; exact ⟨⟨⟨trivial, hxs.1⟩, hxs.2.1⟩, trivial⟩
  · cases h
  · cases h; exact renderable_value hret trivial
  · cases h; exact renderable_value hret ⟨hxs.2.1, hxs.1⟩
  · cases h; exact renderable_value hret ⟨⟨hxs.1, trivial⟩, hxs.2.1⟩
  · cases h; exact renderable_value hret ⟨hxs.1, hxs.2.1, trivial⟩
  · cases h; exact renderable_value hret ⟨hxs.1, hxs.2.1⟩
  · cases h

theorem lowerForeign_renderable {ret : Continuation} (hret : KeepsRenderable fits ret)
    {function : Ir.Descriptor} {xs : List Script.Expr} (hxs : exprsRenderable fits xs)
    {block : Block} (h : lowerForeign function xs ret = .ok block) :
    blockRenderable fits block := by
  unfold lowerForeign at h
  split at h
  · split at h
    · exact lowerTagged_renderable hret hxs h
    · cases h
  · split at h
    · cases h; exact renderable_value hret ⟨trivial, hxs⟩
    · cases h
  · cases h

/-! ## Expressions -/

theorem renderable_loads {x : Script.Expr} (hx : x.Renderable fits) {is : List Int} {k : Nat}
    (hk : ∀ j : Nat, k ≤ j → j < k + is.length → fits j) : blockRenderable fits (loads x k is) := by
  induction is generalizing k with
  | nil => trivial
  | cons i is ih =>
    rw [List.length_cons] at hk
    refine ⟨⟨hx, hk k (Nat.le_refl k) (by omega)⟩, ?_⟩
    exact ih (k := k + 1) fun j hle hlt => hk j (by omega) (by omega)

/-- The test and the body of a branch can be rendered. -/
def Branch.Renderable (fits : Int → Prop) : Branch → Prop
  | .tested (.mk test body) => test.Renderable fits ∧ blockRenderable fits body
  | .fallback body => blockRenderable fits body

/-- **A choice is joined into a condition that has an arm**, or into its defaults if no alternative
is tested. -/
theorem joinBranches_renderable {branches : List Branch}
    (h : ∀ b ∈ branches, b.Renderable fits) : blockRenderable fits (joinBranches branches) := by
  have hdefaults : blockRenderable fits (branches.filterMap Branch.fallback?).flatten := by
    refine blockRenderable_iff.2 fun s hs => ?_
    obtain ⟨body, hbody, hs⟩ := List.mem_flatten.1 hs
    obtain ⟨b, hb, hfallback⟩ := List.mem_filterMap.1 hbody
    cases b with
    | tested arm => cases hfallback
    | fallback block =>
      cases hfallback
      exact blockRenderable_iff.1 (h _ hb) s hs
  have harms : armsRenderable fits (branches.filterMap Branch.arm?) := by
    refine armsRenderable_iff.2 fun test body hmem => ?_
    obtain ⟨b, hb, harm⟩ := List.mem_filterMap.1 hmem
    cases b with
    | tested arm =>
      cases harm
      exact h _ hb
    | fallback block => cases harm
  refine joinBranches_cases (motive := blockRenderable fits) branches (fun _ => hdefaults)
    (fun hne _ => ?_) (fun hne _ => ?_)
  · exact ⟨⟨hne, harms, trivial⟩, trivial⟩
  · exact ⟨⟨hne, harms, hdefaults⟩, trivial⟩

/-- The positions of all fields that are loaded fit. -/
def FieldsFit (fits : Int → Prop) (cs : List Ir.Construct) : Prop :=
  ∀ first count, .fields first count ∈ cs → ∀ k : Nat, k ≤ count → fits k

theorem FieldsFit.of_subset {cs cs' : List Ir.Construct} (h : FieldsFit fits cs) (hsub : cs' ⊆ cs) :
    FieldsFit fits cs' :=
  fun first count hmem => h first count (hsub hmem)

mutual

/-- **Lowering gives statements that can be rendered.** -/
theorem lower_renderable (hspell : ∀ n, Spellable n → fits n) :
    ∀ (e : Ir.Expr) {env : Env} {ret : Continuation} {block : Block}, e.IsWritable →
      FieldsFit fits e.constructs → KeepsRenderable fits ret → lower env ret e = .ok block →
      blockRenderable fits block
  | .var (.loc i), env, ret, block, _, _, hret, h => by
    rw [lower] at h
    cases h
    exact renderable_value hret trivial
  | .var (.glob n), env, ret, block, _, _, hret, h => by
    rw [lower] at h
    cases h
    exact renderable_value hret ⟨trivial, trivial⟩
  | .app function args tailCall, env, ret, block, _, _, hret, h => by
    rw [lower] at h
    cases h
    exact renderable_value hret ⟨trivial, renderable_resolveAll env args⟩
  | .bind (.glob n) value body, env, ret, block, _, _, _, h => by
    rw [lower] at h
    cases h
  | .bind (.loc i) value body, env, ret, block, hwrite, hfields, hret, h => by
    obtain ⟨first, second, hfirst, hsecond, rfl⟩ := lower_bind_ok.1 h
    have hvalue : FieldsFit fits value.constructs :=
      hfields.of_subset fun _ hc => List.mem_cons_of_mem _ (List.mem_append_left _ hc)
    have hbody : FieldsFit fits body.constructs :=
      hfields.of_subset fun _ hc => List.mem_cons_of_mem _ (List.mem_append_right _ hc)
    refine blockRenderable_append.2 ⟨?_, ?_⟩
    · exact lower_renderable hspell value hwrite.2.1 hvalue (keepsRenderable_bindTo _) hfirst
    · exact lower_renderable hspell body hwrite.2.2 hbody hret hsecond
  | .update v value, env, ret, block, hwrite, hfields, hret, h => by
    rw [lower] at h
    exact lower_renderable hspell value hwrite.2 hfields hret h
  | .con tag name args reuse, env, ret, block, hwrite, _, hret, h => by
    rw [lower] at h
    cases h
    exact renderable_value hret ⟨hspell tag hwrite.1, renderable_resolveAll env args⟩
  | .case v alts checked shared, env, ret, block, hwrite, hfields, hret, h => by
    obtain ⟨branches, hbranches, rfl⟩ := lower_case_ok.1 h
    have hv : (resolve env v).Renderable fits := trivial
    exact joinBranches_renderable
      (lowerAlts_renderable hspell alts hv hwrite.2.1 hfields hret hbranches)
  | .proj v index, env, ret, block, hwrite, _, hret, h => by
    rw [lower] at h
    cases h
    exact renderable_value hret ⟨trivial, hspell index hwrite.2⟩
  | .const c, env, ret, block, hwrite, _, hret, h => by
    simp only [lower, bind_eq_ok, pure_eq_ok] at h
    obtain ⟨literal, hliteral, rfl⟩ := h
    exact renderable_value hret (lowerConst_renderable hspell hwrite hliteral)
  | .foreign function args result, env, ret, block, _, _, hret, h => by
    rw [lower] at h
    refine lowerForeign_renderable hret (exprsRenderable_iff.2 fun x hx => ?_) h
    obtain ⟨a, -, rfl⟩ := List.mem_map.1 hx
    trivial
  | .op op args, env, ret, block, _, _, hret, h => by
    simp only [lower, bind_eq_ok, pure_eq_ok] at h
    obtain ⟨x, hx, rfl⟩ := h
    have hargs : exprsRenderable fits (resolveAll env args) := renderable_resolveAll env args
    exact renderable_value hret (lowerPrimitive_renderable hspell hargs hx)
  | .nothing, env, ret, block, _, _, hret, h => by
    rw [lower] at h
    cases h
    exact renderable_value hret (fits_zero hspell)
  | .error message, env, ret, block, _, _, _, h => by
    rw [lower] at h
    cases h
    exact ⟨trivial, trivial⟩

theorem lowerAlt_renderable (hspell : ∀ n, Spellable n → fits n) :
    ∀ (alt : Ir.Alt) {x : Script.Expr} {env : Env} {ret : Continuation} {branch : Branch},
      x.Renderable fits → alt.IsWritable → FieldsFit fits alt.constructs → KeepsRenderable fits ret →
      lowerAlt x env ret alt = .ok branch → branch.Renderable fits
  | .const c body, x, env, ret, branch, hx, hwrite, hfields, hret, h => by
    obtain ⟨literal, block, hliteral, hblock, rfl⟩ := lowerAlt_const_ok.1 h
    have hbody := hfields.of_subset fun _ hc => List.mem_cons_of_mem _ hc
    refine ⟨⟨hx, lowerConst_renderable hspell hwrite.1 hliteral⟩, ?_⟩
    exact lower_renderable hspell body hwrite.2 hbody hret hblock
  | .con first tag name fields body, x, env, ret, branch, hx, hwrite, hfields, hret, h => by
    obtain ⟨block, hblock, rfl⟩ := lowerAlt_con_ok h
    have hbody := hfields.of_subset fun _ hc => List.mem_cons_of_mem _ hc
    have hcount := hfields first fields.length List.mem_cons_self
    refine ⟨⟨⟨hx, fits_zero hspell⟩, hspell tag hwrite.2.1⟩, ?_⟩
    refine blockRenderable_append.2 ⟨?_, ?_⟩
    · refine renderable_loads (k := 1) hx fun j _ hj => hcount j ?_
      rw [length_fieldRange] at hj
      omega
    · exact lower_renderable hspell body hwrite.2.2.2.2 hbody hret hblock
  | .default body, x, env, ret, branch, _, hwrite, hfields, hret, h => by
    obtain ⟨block, hblock, rfl⟩ := lowerAlt_default_ok.1 h
    exact lower_renderable hspell body hwrite hfields hret hblock

theorem lowerAlts_renderable (hspell : ∀ n, Spellable n → fits n) :
    ∀ (alts : List Ir.Alt) {x : Script.Expr} {env : Env} {ret : Continuation}
      {branches : List Branch}, x.Renderable fits → Ir.altsWritable alts →
      FieldsFit fits (Ir.altsConstructs alts) → KeepsRenderable fits ret →
      lowerAlts x env ret alts = .ok branches → ∀ b ∈ branches, b.Renderable fits
  | [], x, env, ret, branches, _, _, _, _, h => by
    rw [lowerAlts] at h
    cases h
    exact List.forall_mem_nil _
  | alt :: rest, x, env, ret, branches, hx, hwrite, hfields, hret, h => by
    obtain ⟨branch, more, hbranch, hmore, rfl⟩ := lowerAlts_cons_ok.1 h
    have halt := hfields.of_subset fun _ hc => List.mem_append_left _ hc
    have hrest := hfields.of_subset fun _ hc => List.mem_append_right _ hc
    refine List.forall_mem_cons.2 ⟨?_, ?_⟩
    · exact lowerAlt_renderable hspell alt hx hwrite.1 halt hret hbranch
    · exact lowerAlts_renderable hspell rest hx hwrite.2 hrest hret hmore

end

/-! ## Programs -/

/-- The integers in the script of some definitions: those that can be spelled, and the positions of
fields. -/
def IsScriptInt (definitions : List Ir.Definition) (n : Int) : Prop :=
  Spellable n ∨ ∃ d ∈ definitions, ∃ (first : Int) (count : Nat),
    .fields first count ∈ d.body.constructs ∧ 0 ≤ n ∧ n ≤ count

/-- The integers of a script can be spelled if the numbers of fields can. -/
theorem IsScriptInt.spellable {definitions : List Ir.Definition}
    (hcounts : ∀ d ∈ definitions, d.body.SpellableCounts) {n : Int}
    (h : IsScriptInt definitions n) : Spellable n := by
  rcases h with hspell | ⟨d, hd, first, count, hmem, hnonneg, hle⟩
  · exact hspell
  · obtain ⟨k, rfl⟩ := Int.eq_ofNat_of_zero_le hnonneg
    exact (hcounts d hd first count hmem).of_le (Int.ofNat_le.1 hle)

/-- **The script of a program is renderable.** -/
theorem lowerProgram_renderable {definitions : List Ir.Definition}
    (hwrite : ∀ d ∈ definitions, d.IsWritable) {script : Script.Program}
    (h : lowerProgram definitions = .ok script) :
    ∃ functions, script.items = functions ++ [.call entryName []] ∧
      blockRenderable (IsScriptInt definitions) functions := by
  obtain ⟨functions, hfunctions, h⟩ := bind_eq_ok.1 h
  cases h
  rw [lowerDefinitions_eq_ok_iff] at hfunctions
  refine ⟨functions, rfl, blockRenderable_iff.2 fun s hs => ?_⟩
  obtain ⟨d, hd, hs⟩ := exists_of_forall₂ hfunctions s hs
  obtain ⟨body, hbody, rfl⟩ := lowerDefinition_eq_ok.1 hs
  have hfields : FieldsFit (IsScriptInt definitions) d.body.constructs := by
    intro first count hmem k hk
    exact .inr ⟨d, hd, first, count, hmem, by omega, by omega⟩
  have hspell : ∀ n, Spellable n → IsScriptInt definitions n := fun n hn => .inl hn
  exact lower_renderable hspell d.body (hwrite d hd).2.2 hfields keepsRenderable_returnValue hbody

/-- A definition with slots that can be spelled is refused for a reason that is reported. -/
theorem failure?_of_definitionRefusal? {d : Ir.Definition} (hfields : d.body.SpellableFields)
    {error : DefinitionError} (h : definitionRefusal? d = some error) :
    ∃ failure, error.failure? = some failure ∧ failure.definition = some d.name.display := by
  obtain ⟨cause, hcause, rfl⟩ := Option.map_eq_some_iff.1 h
  obtain ⟨c, hc, hrefusal⟩ := List.exists_of_findSome?_eq_some hcause
  have hverdict := verdict_of_mem hfields hc
  rw [hrefusal] at hverdict
  cases hverdict with
  | refused _ hreport =>
    exact ⟨_, by rw [DefinitionError.failure?, hreport, Option.map_some], rfl⟩

end Vimgen.Lower

namespace Vimgen.Compile

open Lower (IsScriptInt entryName lowerProgram)
open Script (blockDraft defaultIndent joinLines)

/-- The last line of a script. -/
def lastLine : String := "call s:Idris__123_runMain_95_0_125_()"

theorem write_entryCall (indentText : String) :
    (blockDraft [.call entryName []]).lines.map (·.write indentText 0) = [lastLine] := by
  have hlines : (blockDraft [.call entryName []]).lines = [.text 0 lastLine] := by decide
  rw [hlines]
  simp [Script.Line.write, Script.indentation]

/-- An outcome that is a script: it can be rendered, it was, and its text ends in the call of the
entry point. -/
structure IsScript (definitions : List Ir.Definition) (script : Script.Program)
    (outcome : Outcome) : Prop where
  renderable : script.Renderable (IsScriptInt definitions)
  success : outcome.isSuccess = true
  text : ∃ lines text, script.render defaultIndent = .ok text ∧ outcome.text? = some text ∧
    text = joinLines (lines ++ [lastLine])

/-- An outcome without a script: one diagnostic in one of the definitions. -/
structure IsReport (definitions : List Ir.Definition) (outcome : Outcome) : Prop where
  failure : outcome.isSuccess = false
  noText : outcome.text? = none
  report : ∃ diagnostic, outcome.diagnostics = [diagnostic] ∧
    ∃ d ∈ definitions, diagnostic.definition = some d.name.display

variable {definitions : List Ir.Definition}

/-- A script that ends in the call of the entry point has its text end so. -/
theorem render_entryCall {script : Script.Program} {functions : List Script.Stmt}
    (hitems : script.items = functions ++ [.call entryName []]) {text : String}
    (h : script.render defaultIndent = .ok text) :
    ∃ lines, text = joinLines (lines ++ [lastLine]) := by
  obtain ⟨hhalt, rfl⟩ := Script.render_eq_ok_iff.1 h
  rw [hitems, Script.blockDraft_append] at hhalt ⊢
  rw [Script.Draft.append_eq (Script.Draft.halt_append.1 hhalt).1, List.map_append, write_entryCall]
  exact ⟨_, rfl⟩

/-- **What is lowered is rendered**, unless a position has too many digits. -/
theorem generate_of_lowered (hwrite : ∀ d ∈ definitions, d.IsWritable) {script : Script.Program}
    (hlower : lowerProgram definitions = .ok script) :
    (∃ outcome, generate definitions = .ok outcome ∧ IsScript definitions script outcome) ∨
      generate definitions = .error (.render .digits) ∧
        ∃ n, IsScriptInt definitions n ∧ ¬Numeral.Spellable n := by
  obtain ⟨functions, hitems, hfunctions⟩ := Lower.lowerProgram_renderable hwrite hlower
  have hrenderable : script.Renderable (IsScriptInt definitions) := by
    rw [Script.Program.Renderable, hitems, Script.blockRenderable_append]
    exact ⟨hfunctions, trivial, trivial⟩
  rcases hrenderable.render_cases defaultIndent with ⟨-, text, hrender⟩ | ⟨hlong, hrender⟩
  · obtain ⟨lines, htext⟩ := render_entryCall hitems hrender
    refine .inl ⟨.success script text, ?_, hrenderable, rfl, lines, text, hrender, rfl, htext⟩
    simp only [generate, hlower, hrender]
  · refine .inr ⟨?_, hlong⟩
    simp only [generate, hlower, hrender]

theorem generate_of_refused (hfields : ∀ d ∈ definitions, d.body.SpellableFields)
    {error : Lower.DefinitionError} (hlower : lowerProgram definitions = .error error) :
    ∃ outcome, generate definitions = .ok outcome ∧ IsReport definitions outcome := by
  have hrefusal := Lower.lowerProgram_error definitions
  rw [hlower] at hrefusal
  obtain ⟨d, hd, hrefused⟩ := List.exists_of_findSome?_eq_some hrefusal.symm
  obtain ⟨failure, hfailure, hdefinition⟩ :=
    Lower.failure?_of_definitionRefusal? (hfields d hd) hrefused
  refine ⟨.failure failure.diagnostic, ?_, rfl, rfl, _, rfl, d, hd, hdefinition⟩
  simp only [generate, hlower, hfailure]

/-- **Whatever is lowered can be rendered.** Generating the script of a program that was read, with
slots and numbers of fields that can be spelled, always gives an outcome: a script with its text if
lowering succeeds, and otherwise one diagnostic in one of the definitions. -/
theorem generate_renderable {source : String} {p : Ir.Program}
    (hread : Ir.Program.read source = .ok p)
    (hfields : ∀ d ∈ p.definitions, d.body.SpellableFields)
    (hcounts : ∀ d ∈ p.definitions, d.body.SpellableCounts) :
    ∃ outcome, generate p.definitions = .ok outcome ∧
      (∀ script, lowerProgram p.definitions = .ok script →
        IsScript p.definitions script outcome) ∧
      ∀ error, lowerProgram p.definitions = .error error → IsReport p.definitions outcome := by
  cases hlower : lowerProgram p.definitions with
  | ok script =>
    rcases generate_of_lowered (Ir.isWritable_of_read hread) hlower with
      ⟨outcome, hgenerate, hscript⟩ | ⟨-, n, hn, hlong⟩
    · refine ⟨outcome, hgenerate, fun other h => ?_, fun error h => ?_⟩
      · cases h
        exact hscript
      · cases h
    · exact absurd (hn.spellable hcounts) hlong
  | error error =>
    obtain ⟨outcome, hgenerate, hreport⟩ := generate_of_refused hfields hlower
    exact ⟨outcome, hgenerate, nofun, fun _ _ => hreport⟩

/-- A single alternative of the program loads fields: one of them, into slot 1. -/
theorem fields_parityProgram {d : Ir.Definition} (hd : d ∈ Lower.parityProgram.definitions)
    {first : Int} {count : Nat} (h : .fields first count ∈ d.body.constructs) :
    first = 1 ∧ count = 1 := by
  simp only [Lower.parityProgram, List.mem_cons, List.not_mem_nil, or_false] at hd
  rcases hd with rfl | rfl | rfl
  · simp [Ir.Expr.constructs] at h
  · simpa [Ir.Expr.constructs, Ir.altsConstructs, Ir.Alt.constructs] using h
  · simp [Ir.Expr.constructs] at h

/-- The script of two functions, with conditions on literals and on constructors. -/
theorem generate_renderable_parity :
    Ir.Program.read Lower.parityProgram.flat = .ok Lower.parityProgram ∧
      (∀ d ∈ Lower.parityProgram.definitions, d.body.SpellableFields) ∧
      (∀ d ∈ Lower.parityProgram.definitions, d.body.SpellableCounts) ∧
      ∃ outcome script, generate Lower.parityProgram.definitions = .ok outcome ∧
        IsScript Lower.parityProgram.definitions script outcome := by
  have hread : Ir.Program.read Lower.parityProgram.flat = .ok Lower.parityProgram :=
    Lower.parityProgram_isWritable.read_flat
  have hone : Numeral.Spellable 1 := by decide
  have hfields : ∀ d ∈ Lower.parityProgram.definitions, d.body.SpellableFields := by
    intro d hd first count hmem i hi
    obtain ⟨rfl, rfl⟩ := fields_parityProgram hd hmem
    rw [List.mem_singleton.1 hi]
    exact hone
  have hcounts : ∀ d ∈ Lower.parityProgram.definitions, d.body.SpellableCounts := by
    intro d hd first count hmem
    rw [(fields_parityProgram hd hmem).2]
    exact hone
  obtain ⟨script, hlower⟩ : ∃ script, lowerProgram Lower.parityProgram.definitions = .ok script :=
    ⟨_, rfl⟩
  obtain ⟨outcome, hgenerate, hscript, -⟩ := generate_renderable hread hfields hcounts
  exact ⟨hread, hfields, hcounts, outcome, script, hgenerate, hscript script hlower⟩

end Vimgen.Compile
