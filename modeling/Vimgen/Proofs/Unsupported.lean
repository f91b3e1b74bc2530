import Vimgen.Proofs.Alike
import Vimgen.Proofs.Lowering
import Vimgen.Proofs.Writable

/-!
# When lowering fails

`Expr.constructs` lists the parts of an expression that lowering may refuse, in the order in which it
comes to them: a binding before its value and body, a literal before the body of its alternative, and
alternatives from left to right. Which of them are `Unsupported`, and what is `reported` about them,
is said without lowering anything.

* `lower_error`: lowering fails as the first part that is refused, and for no other reason.
* `verdict_refusal?`: apart from slots that cannot be spelled, what is refused is exactly what is
  unsupported.
* `lower_fails_iff_unsupported`: an expression is lowered if and only if all of its parts are
  supported, and otherwise the first one that is not is reported.
* `lowerProgram_error`: a program fails as the first definition that is refused.
-/

namespace Vimgen.Ir

open Numeral (Spellable)

/-- A part of an expression that lowering may refuse: a bound variable, a literal, the slots of
fields, or an application to some number of arguments. -/
inductive Construct where
  | binding (v : Var)
  | const (c : Const)
  | fields (first : Int) (count : Nat)
  | op (op : PrimOp) (args : Nat)
  | foreign (function : Descriptor) (args : Nat)

mutual

/-- The parts that lowering comes to, in order. -/
def Expr.constructs : Expr → List Construct
  | .bind v value body => .binding v :: (value.constructs ++ body.constructs)
  | .update _ value => value.constructs
  | .case _ alts _ _ => altsConstructs alts
  | .const c => [.const c]
  | .foreign function args _ => [.foreign function args.length]
  | .op op args => [.op op args.length]
  | .var _ | .app _ _ _ | .con _ _ _ _ | .proj _ _ | .nothing | .error _ => []

/-- The parts of an alternative: what is tested or loaded comes before the body. -/
def Alt.constructs : Alt → List Construct
  | .const c body => .const c :: body.constructs
  | .con first _ _ fields body => .fields first fields.length :: body.constructs
  | .default body => body.constructs

def altsConstructs : List Alt → List Construct
  | [] => []
  | alt :: rest => alt.constructs ++ altsConstructs rest

end

/-- All slots that fields are loaded into can be spelled. -/
def Expr.SpellableFields (e : Expr) : Prop :=
  ∀ first count, .fields first count ∈ e.constructs → ∀ i ∈ fieldRange first count, Spellable i

end Vimgen.Ir

namespace Vimgen.Lower

open Ir (Construct fieldRange)
open Numeral (Spellable)
open Script (Alike AllAlike)

/-! ## What is supported -/

/-- Primitives on two numbers. -/
def integralTags : List Ir.PrimTag := [.plus, .minus, .times, .eq, .slt, .sle, .sgt, .sge]

/-- Primitives that do not look at types, with the number of their arguments. -/
def untypedUses : List (Ir.PrimTag × Nat) :=
  [(.sext, 1), (.zext, 1), (.trunc, 1), (.strConcat, 2), (.strCons, 2), (.strEq, 2), (.strLen, 1),
   (.strHead, 1), (.strTail, 1), (.strIndex, 2), (.strSubstr, 3), (.strRev, 1), (.intStr, 1),
   (.strInt, 1), (.chInt, 1), (.intCh, 1), (.writeStr, 2)]

/-- The supported uses of a primitive, by its tag, its first type and the number of arguments. -/
inductive SupportedPrimitive (op : Ir.PrimOp) : Nat → Prop
  | external {name : String} (htag : op.tag = .external) (hname : op.name = some name)
    (hne : name ≠ "") (args : Nat) : SupportedPrimitive op args
  | integral {type : Ir.ArithType} (htag : op.tag ∈ integralTags)
    (htype : op.types.head? = some type) (hne : type ≠ .float) : SupportedPrimitive op 2
  | untyped {args : Nat} (huse : (op.tag, args) ∈ untypedUses) : SupportedPrimitive op args

/-- The descriptors of functions that can be called. -/
inductive KnownFunction : Ir.Descriptor → Prop
  | tagged (tag : Ir.ForeignTag) : KnownFunction (.con tag.symbol)
  | builtin (name : String) : KnownFunction (.app "VIM_BuiltIn" [.str name])

/-- Parts of an expression that have no script. -/
inductive Unsupported : Construct → Prop
  | globalBinding (n : Name) : Unsupported (.binding (.glob n))
  | float (x : Binary64) : Unsupported (.const (.float x))
  | bits (width n : Int) : Unsupported (.const (.bits width n))
  | bigInt {n : Int} (h : n < -0x8000000000000000 ∨ 0x7FFFFFFFFFFFFFFF < n) :
    Unsupported (.const (.bigInt n))
  | primitive {op : Ir.PrimOp} {args : Nat} (h : ¬SupportedPrimitive op args) :
    Unsupported (.op op args)
  | unknownFunction {function : Ir.Descriptor} (h : ¬KnownFunction function) (args : Nat) :
    Unsupported (.foreign function args)
  | arity {tag : Ir.ForeignTag} {args : Nat} (h : args ≠ tag.arity) :
    Unsupported (.foreign (.con tag.symbol) args)

/-- The known function that a descriptor is the symbol of. -/
def tagOf? : Ir.Descriptor → Option Ir.ForeignTag
  | .con name => Ir.ForeignTag.ofSymbol? name
  | _ => none

/-- What is reported about an unsupported part. Slots that cannot be spelled are not reported. -/
def reported : Construct → Option Failure
  | .binding v =>
    some ⟨.unsupported, s!"let binding global {v.name.display} not supported", "E0101", none, none⟩
  | .const (.bigInt n) =>
    some ⟨.unsupported, s!"integer literal {Numeral.intText n} does not fit a Vim Number", "E0102",
      some "arbitrary-precision integers are not supported", none⟩
  | .const c =>
    some ⟨.unsupported, s!"constant {c.display} not compilable yet", "E0102", none, none⟩
  | .fields _ _ => none
  | .op op args =>
    let message :=
      if op.tag = .readStr then "cannot read strings using the Vimscript backend"
      else s!"primitive {op.display} with {args} argument(s) not implemented"
    some ⟨.unsupported, message, "E0103", none, none⟩
  | .foreign function args =>
    match tagOf? function with
    | some tag =>
      let message := s!"{tag.symbol} expects {tag.arity} argument(s), got {args}"
      some ⟨.malformedCall, message, "E0201", none, none⟩
    | none =>
      some ⟨.unsupported, s!"foreign function not supported: {function.display}", "E0104", none,
        none⟩

/-! ## The first refusal -/

/-- Arguments about which nothing is known but their number. -/
def unknownArgs (count : Nat) : List Script.Expr := List.replicate count (.ref ⟨.builtin, ""⟩)

theorem length_unknownArgs (count : Nat) : (unknownArgs count).length = count :=
  List.length_replicate

/-- How a part of an expression is refused, if it is: by what it comes to on unknown arguments. -/
def refusal? : Construct → Option LowerError
  | .binding (.loc _) => none
  | .binding (.glob n) => some (.bindsGlobal n)
  | .const c => errorOf? (lowerConst c)
  | .fields first count => errorOf? (fieldSlots first count)
  | .op op args => errorOf? (lowerPrimitive op (unknownArgs args))
  | .foreign function args => errorOf? (lowerForeign function (unknownArgs args) returnValue)

theorem SameResult.errorOf?_eq {ε α β : Type} {P : α → β → Prop} {x : Except ε α} {y : Except ε β}
    (h : SameResult P x y) : errorOf? x = errorOf? y := by
  cases h with
  | ok _ => rfl
  | error e => rfl

/-- Whether a primitive is refused does not depend on what its arguments stand for. -/
theorem lowerPrimitive_error (env : Env) (op : Ir.PrimOp) (args : List Ir.Var) :
    errorOf? (lowerPrimitive op (resolveAll env args)) = refusal? (.op op args.length) := by
  have hargs : AllAlike (fun _ _ => True) (fun _ _ => True) (resolveAll env args)
      (unknownArgs args.length) := by
    rw [unknownArgs, ← List.map_const']
    exact .map fun _ _ => .ref trivial
  exact (lowerPrimitive_alike (fun _ => trivial) op hargs).errorOf?_eq

/-- Nor whether a foreign call is refused, which does not depend on the continuation either. -/
theorem lowerForeign_error (env : Env) (ret : Continuation) (function : Ir.Descriptor)
    (args : List Ir.ForeignArg) :
    errorOf? (lowerForeign function (args.map fun a => resolve env a.var) ret) =
      refusal? (.foreign function args.length) := by
  have hargs : RefPairs (fun _ _ => True) (args.map fun a => resolve env a.var)
      (unknownArgs args.length) := by
    rw [unknownArgs, ← List.map_const', RefPairs, List.forall₂_map_left_iff,
      List.forall₂_map_right_iff, List.forall₂_same]
    exact fun _ _ => ⟨_, _, trivial, rfl, rfl⟩
  rw [refusal?]
  cases lowerForeign_pair (Q := fun _ _ => True) (fun _ => trivial) function hargs with
  | value _ hf hg => rw [hf, hg]; rfl
  | echo _ hf hg => rw [hf, hg]; rfl
  | setItem _ _ _ hf hg => rw [hf, hg]; rfl
  | failure e hf hg => rw [hf, hg]

mutual

/-- **Lowering fails as the first part that is refused**, in every environment and for every
continuation. -/
theorem lower_error : ∀ (e : Ir.Expr) (env : Env) (ret : Continuation),
    errorOf? (lower env ret e) = e.constructs.findSome? refusal?
  | .var (.loc _), _, _ => rfl
  | .var (.glob _), _, _ => rfl
  | .app _ _ _, _, _ => rfl
  | .bind (.glob n) value body, env, ret => rfl
  | .bind (.loc i) value body, env, ret => by
    have hvalue := lower_error value env (bindTo (localName i))
    have hbody := lower_error body (env.extend (.slot i) (localName i)) ret
    rw [lower, Ir.Expr.constructs, List.findSome?_cons, List.findSome?_append, ← hvalue, ← hbody]
    exact errorOf?_bind fun _ => errorOf?_map _ _
  | .update _ value, env, ret => by
    rw [lower, lower_error value env ret, Ir.Expr.constructs]
  | .con _ _ _ _, _, _ => rfl
  | .case v alts _ _, env, ret => by
    rw [lower, errorOf?_map, lowerAlts_error alts, Ir.Expr.constructs]
  | .proj _ _, _, _ => rfl
  | .const c, env, ret => by
    rw [lower, errorOf?_map, Ir.Expr.constructs, List.findSome?_singleton]
    rfl
  | .foreign function args _, env, ret => by
    rw [lower, lowerForeign_error, Ir.Expr.constructs, List.findSome?_singleton]
  | .op op args, env, ret => by
    rw [lower, errorOf?_map, lowerPrimitive_error, Ir.Expr.constructs, List.findSome?_singleton]
  | .nothing, _, _ => rfl
  | .error _, _, _ => rfl

theorem lowerAlt_error : ∀ (alt : Ir.Alt) (scrutinee : Script.Expr) (env : Env)
    (ret : Continuation),
    errorOf? (lowerAlt scrutinee env ret alt) = alt.constructs.findSome? refusal?
  | .const c body, scrutinee, env, ret => by
    have hbody := lower_error body env ret
    rw [lowerAlt, Ir.Alt.constructs, ← List.singleton_append, List.findSome?_append,
      List.findSome?_singleton, ← hbody]
    exact errorOf?_bind fun _ => errorOf?_map _ _
  | .con first _ _ fields body, scrutinee, env, ret => by
    -- the body is lowered in an environment that depends on the slots, but its failure does not
    have hbody := fun slots => lower_error body (env.extendAll slots) ret
    rw [lowerAlt, Ir.Alt.constructs, ← List.singleton_append, List.findSome?_append,
      List.findSome?_singleton]
    exact errorOf?_bind fun slots => (errorOf?_map _ _).trans (hbody slots)
  | .default body, scrutinee, env, ret => by
    rw [lowerAlt, errorOf?_map, lower_error body, Ir.Alt.constructs]

theorem lowerAlts_error : ∀ (alts : List Ir.Alt) (scrutinee : Script.Expr) (env : Env)
    (ret : Continuation),
    errorOf? (lowerAlts scrutinee env ret alts) = (Ir.altsConstructs alts).findSome? refusal?
  | [], _, _, _ => rfl
  | alt :: rest, scrutinee, env, ret => by
    have hrest := lowerAlts_error rest scrutinee env ret
    have halt := lowerAlt_error alt scrutinee env ret
    rw [lowerAlts, Ir.altsConstructs, List.findSome?_append, ← halt, ← hrest]
    exact errorOf?_bind fun _ => errorOf?_map _ _

end

/-! ## What is refused is unsupported -/

/-- **The uses of primitives that have an expression**, primitives outside the language apart. -/
theorem primitive?_isSome {op : Ir.PrimOp} (htag : op.tag ≠ .external) (args : List Script.Expr) :
    (primitive? op args).isSome =
      (decide (op.tag ∈ integralTags ∧ args.length = 2) &&
          (op.arith?.map Ir.ArithType.isIntegral).getD false ||
        decide ((op.tag, args.length) ∈ untypedUses)) := by
  obtain ⟨tag, types, name⟩ := op
  unfold primitive?
  rw [if_neg htag]
  dsimp only
  generalize ((Ir.PrimOp.arith? ⟨tag, types, name⟩).map Ir.ArithType.isIntegral).getD false =
    integral
  -- with the number of arguments and the tag known, both sides are computed
  rcases args with _ | ⟨x, _ | ⟨y, _ | ⟨z, _ | ⟨w, rest⟩⟩⟩⟩
  · cases tag <;> rfl
  · cases tag <;> rfl
  · cases tag <;> cases integral <;> rfl
  · cases tag <;> rfl
  · cases tag <;> rfl

theorem primitive?_isSome_iff {op : Ir.PrimOp} {args : List Script.Expr} {count : Nat}
    (hcount : args.length = count) :
    (primitive? op args).isSome = true ↔ SupportedPrimitive op count := by
  by_cases htag : op.tag = .external
  · have hnone : primitive? op args = (nonempty? op.name).map (callBuiltin · args) := by
      unfold primitive?
      rw [if_pos htag]
    rw [hnone, Option.isSome_map]
    constructor
    · intro hname
      cases hop : op.name with
      | none => rw [hop] at hname; cases hname
      | some name =>
        refine .external htag hop ?_ count
        rintro rfl
        rw [hop] at hname
        cases hname
    · intro hsupported
      cases hsupported with
      | external _ hname hne => rw [hname, nonempty?, if_neg (by simpa using hne)]; rfl
      | integral htag' => rw [htag] at htag'; exact absurd htag' (by decide)
      | untyped huse =>
        have hnever : ∀ use ∈ untypedUses, use.1 ≠ .external := by decide
        exact absurd htag (hnever _ huse)
  · rw [primitive?_isSome htag, hcount]
    simp only [Bool.or_eq_true, Bool.and_eq_true, decide_eq_true_eq]
    constructor
    · rintro (⟨⟨hmem, rfl⟩, htype⟩ | huse)
      · cases htypes : op.types.head? with
        | none => simp [Ir.PrimOp.arith?, htypes] at htype
        | some type =>
          refine .integral hmem htypes ?_
          simpa [Ir.PrimOp.arith?, htypes, Ir.ArithType.isIntegral] using htype
      · exact .untyped huse
    · intro hsupported
      cases hsupported with
      | external htag' => exact absurd htag' htag
      | integral hmem htypes hne =>
        refine .inl ⟨⟨hmem, rfl⟩, ?_⟩
        simpa [Ir.PrimOp.arith?, htypes, Ir.ArithType.isIntegral] using hne
      | untyped huse => exact .inr huse

theorem ofSymbol?_symbol (tag : Ir.ForeignTag) : Ir.ForeignTag.ofSymbol? tag.symbol = some tag := by
  cases tag <;> decide

theorem symbol_of_ofSymbol? {name : String} {tag : Ir.ForeignTag}
    (h : Ir.ForeignTag.ofSymbol? name = some tag) : tag.symbol = name := by
  simpa using List.find?_some h

/-- A known function is refused exactly with a wrong number of arguments. -/
theorem refusal?_tagged (tag : Ir.ForeignTag) (args : Nat) :
    refusal? (.foreign (.con tag.symbol) args) =
      if args = tag.arity then none else some (.foreignArity tag args) := by
  have hcall : refusal? (.foreign (.con tag.symbol) args) =
      errorOf? (lowerTagged tag (unknownArgs args) returnValue) := by
    simp only [refusal?, lowerForeign, ofSymbol?_symbol]
  rw [hcall]
  -- no function takes more than three arguments
  rcases args with _ | _ | _ | _ | more
  · cases tag <;> rfl
  · cases tag <;> rfl
  · cases tag <;> rfl
  · cases tag <;> rfl
  · cases tag <;> simp [unknownArgs, List.replicate_succ, lowerTagged, errorOf?, Ir.ForeignTag.arity]

theorem refusal?_unknownFunction {function : Ir.Descriptor} (h : ¬KnownFunction function)
    (args : Nat) :
    tagOf? function = none ∧
      refusal? (.foreign function args) = some (.foreign function.display) := by
  match function with
  | .con name =>
    have hnone : Ir.ForeignTag.ofSymbol? name = none := by
      cases hname : Ir.ForeignTag.ofSymbol? name with
      | none => rfl
      | some tag =>
        rw [← symbol_of_ofSymbol? hname] at h
        exact absurd (.tagged tag) h
    exact ⟨hnone, by simp only [refusal?, lowerForeign, hnone, errorOf?]⟩
  | .app name [.str builtin] =>
    have hname : name ≠ builtinEscape := by
      rintro rfl
      exact h (.builtin builtin)
    exact ⟨rfl, by simp only [refusal?, lowerForeign, if_neg hname, errorOf?]⟩
  | .app name [] => exact ⟨rfl, rfl⟩
  | .app name [.con _] => exact ⟨rfl, rfl⟩
  | .app name [.app _ _] => exact ⟨rfl, rfl⟩
  | .app name [.unknown] => exact ⟨rfl, rfl⟩
  | .app name (a :: _ :: _) => exact ⟨rfl, by cases a <;> rfl⟩
  | .str value => exact ⟨rfl, rfl⟩
  | .unknown => exact ⟨rfl, rfl⟩

/-- Slots that can be spelled are not refused. -/
theorem refusal?_fields {first : Int} {count : Nat} (h : ∀ i ∈ fieldRange first count, Spellable i) :
    refusal? (.fields first count) = none := by
  have hslots : fieldSlots first count =
      .ok ((List.range count).map fun (k : Nat) => (.slot (first + k), localName (first + k))) := by
    rw [fieldSlots, mapM_eq_ok, List.forall₂_map_right_iff, List.forall₂_same]
    intro k hk
    have hmem : first + k ∈ fieldRange first count := by
      rw [Ir.mem_fieldRange]
      have := List.mem_range.1 hk
      omega
    exact if_pos (h _ hmem)
  rw [refusal?, hslots]
  rfl

/-- What becomes of a part of an expression: it is accepted, or unsupported and reported. -/
inductive Verdict (c : Construct) : Option LowerError → Prop
  | accepted (h : ¬Unsupported c) : Verdict c none
  | refused {error : LowerError} {failure : Failure} (h : Unsupported c)
    (hcause : error.failure? = some failure) (hreport : reported c = some failure)
    (hreference : ∀ target, error ≠ .notAReference target) : Verdict c (some error)

theorem verdict_const (c : Ir.Const) : Verdict (.const c) (refusal? (.const c)) := by
  cases c with
  | bigInt n =>
    by_cases hrange : numberMin ≤ n ∧ n ≤ numberMax
    · rw [refusal?, lowerConst, if_pos hrange]
      refine .accepted fun h => ?_
      cases h with
      | bigInt h => unfold numberMin numberMax at hrange; omega
    · rw [refusal?, lowerConst, if_neg hrange]
      refine .refused (.bigInt ?_) rfl rfl fun _ h => by cases h
      unfold numberMin numberMax at hrange
      omega
  | float x => exact .refused (.float x) rfl rfl fun _ h => by cases h
  | bits width n => exact .refused (.bits width n) rfl rfl fun _ h => by cases h
  | int n => exact .accepted fun h => by cases h
  | char c => exact .accepted fun h => by cases h
  | str s => exact .accepted fun h => by cases h
  | world => exact .accepted fun h => by cases h
  | type name => exact .accepted fun h => by cases h

theorem verdict_op (op : Ir.PrimOp) (args : Nat) :
    Verdict (.op op args) (refusal? (.op op args)) := by
  have hsupported : (primitive? op (unknownArgs args)).isSome = true ↔ SupportedPrimitive op args :=
    primitive?_isSome_iff (length_unknownArgs args)
  rw [refusal?, lowerPrimitive]
  by_cases htag : op.tag = .readStr
  · rw [if_pos htag]
    refine .refused (.primitive fun h => ?_) rfl ?_ fun _ h => by cases h
    · cases h with
      | external htag' => rw [htag] at htag'; cases htag'
      | integral hmem => rw [htag] at hmem; exact absurd hmem (by decide)
      | untyped huse =>
        have hnever : ∀ use ∈ untypedUses, use.1 ≠ .readStr := by decide
        exact hnever _ huse htag
    · rw [reported, if_pos htag]
      rfl
  · rw [if_neg htag]
    cases hform : primitive? op (unknownArgs args) with
    | some x =>
      rw [hform] at hsupported
      refine .accepted fun h => ?_
      cases h with
      | primitive h => exact h (hsupported.1 rfl)
    | none =>
      rw [hform] at hsupported
      refine .refused (.primitive fun h => ?_) rfl ?_ fun _ h => by cases h
      · cases hsupported.2 h
      · rw [reported, if_neg htag, length_unknownArgs]
        rfl

theorem verdict_foreign (function : Ir.Descriptor) (args : Nat) :
    Verdict (.foreign function args) (refusal? (.foreign function args)) := by
  by_cases hknown : KnownFunction function
  · cases hknown with
    | tagged tag =>
      rw [refusal?_tagged]
      by_cases harity : args = tag.arity
      · rw [if_pos harity]
        refine .accepted fun h => ?_
        generalize hfunction : Ir.Descriptor.con tag.symbol = function at h
        cases h with
        | unknownFunction h => exact h (hfunction ▸ .tagged tag)
        | arity hne =>
          -- symbols tell known functions apart
          have htag := congrArg tagOf? hfunction
          simp only [tagOf?, ofSymbol?_symbol, Option.some.injEq] at htag
          exact hne (htag ▸ harity)
      · rw [if_neg harity]
        refine .refused (.arity harity) rfl ?_ fun _ h => by cases h
        simp only [reported, tagOf?, ofSymbol?_symbol]
        rfl
    | builtin name =>
      refine .accepted fun h => ?_
      cases h with
      | unknownFunction h => exact h (.builtin name)
  · obtain ⟨htag, hrefusal⟩ := refusal?_unknownFunction hknown args
    rw [hrefusal]
    refine .refused (.unknownFunction hknown args) rfl ?_ fun _ h => by cases h
    simp only [reported, htag]
    rfl

/-- **What is refused is unsupported**, and it is reported as such; slots that cannot be spelled
apart. -/
theorem verdict_refusal? (c : Construct)
    (hfields : ∀ first count, c = .fields first count → ∀ i ∈ fieldRange first count, Spellable i) :
    Verdict c (refusal? c) := by
  cases c with
  | binding v =>
    cases v with
    | loc i => exact .accepted fun h => by cases h
    | glob n => exact .refused (.globalBinding n) rfl rfl fun _ h => by cases h
  | const c => exact verdict_const c
  | fields first count =>
    rw [refusal?_fields (hfields first count rfl)]
    exact .accepted fun h => by cases h
  | op op args => exact verdict_op op args
  | foreign function args => exact verdict_foreign function args

theorem Verdict.eq_none_iff {c : Construct} {judged : Option LowerError} (h : Verdict c judged) :
    judged = none ↔ ¬Unsupported c := by
  cases h with
  | accepted h => exact ⟨fun _ => h, fun _ => rfl⟩
  | refused h =>
    constructor
    · intro hnone; cases hnone
    · intro hnot; exact absurd h hnot

theorem verdict_of_mem {e : Ir.Expr} (hfields : e.SpellableFields) {c : Construct}
    (hc : c ∈ e.constructs) : Verdict c (refusal? c) := by
  refine verdict_refusal? c fun first count heq => ?_
  rw [heq] at hc
  exact hfields first count hc

/-! ## Expressions that fail -/

/-- The first part that is refused, with what comes before and after it. -/
theorem lower_eq_error_iff {e : Ir.Expr} {env : Env} {ret : Continuation} {error : LowerError} :
    lower env ret e = .error error ↔ ∃ before c after, e.constructs = before ++ c :: after ∧
      refusal? c = some error ∧ ∀ b ∈ before, refusal? b = none := by
  rw [← errorOf?_eq_some, lower_error, List.findSome?_eq_some_iff]

theorem lower_eq_ok_iff {e : Ir.Expr} {env : Env} {ret : Continuation} :
    (∃ block, lower env ret e = .ok block) ↔ ∀ c ∈ e.constructs, refusal? c = none := by
  rw [← errorOf?_eq_none, lower_error, List.findSome?_eq_none_iff]

/-- **When lowering fails.** An expression with slots that can be spelled is refused exactly if some
part of it is unsupported. The first of these, in the order of lowering, is what is reported, in
every environment and for every continuation. That the target of an assignment is no reference is
never the reason. -/
theorem lower_fails_iff_unsupported (e : Ir.Expr) (hfields : e.SpellableFields) :
    (∀ env ret, (∃ error, lower env ret e = .error error) ↔ ∃ c ∈ e.constructs, Unsupported c) ∧
    (∀ before c after, e.constructs = before ++ c :: after → (∀ b ∈ before, ¬Unsupported b) →
      Unsupported c →
        ∃ error failure, (∀ env ret, lower env ret e = .error error) ∧
          error.failure? = some failure ∧ reported c = some failure) ∧
    ∀ env ret target, lower env ret e ≠ .error (.notAReference target) := by
  refine ⟨fun env ret => ⟨?_, ?_⟩, ?_, ?_⟩
  · rintro ⟨error, herror⟩
    obtain ⟨before, c, after, hsplit, hc, -⟩ := lower_eq_error_iff.1 herror
    have hmem : c ∈ e.constructs := by rw [hsplit]; simp
    refine ⟨c, hmem, ?_⟩
    by_contra hnot
    rw [(verdict_of_mem hfields hmem).eq_none_iff.2 hnot] at hc
    cases hc
  · rintro ⟨c, hmem, hc⟩
    cases hlower : lower env ret e with
    | error error => exact ⟨error, rfl⟩
    | ok block =>
      have hnone : refusal? c = none := lower_eq_ok_iff.1 ⟨block, hlower⟩ c hmem
      exact absurd hc ((verdict_of_mem hfields hmem).eq_none_iff.1 hnone)
  · intro before c after hsplit hbefore hc
    have hmem : ∀ b ∈ before ++ c :: after, Verdict b (refusal? b) :=
      fun b hb => verdict_of_mem hfields (hsplit ▸ hb)
    have hbefore' : ∀ b ∈ before, refusal? b = none := fun b hb =>
      (hmem b (List.mem_append_left _ hb)).eq_none_iff.2 (hbefore b hb)
    generalize hjudged : refusal? c = judged
    have hverdict := hmem c (by simp)
    rw [hjudged] at hverdict
    cases hverdict with
    | accepted hnot => exact absurd hc hnot
    | refused _ hcause hreport =>
      refine ⟨_, _, fun env ret => ?_, hcause, hreport⟩
      exact lower_eq_error_iff.2 ⟨before, c, after, hsplit, hjudged, hbefore'⟩
  · intro env ret target herror
    obtain ⟨before, c, after, hsplit, hc, -⟩ := lower_eq_error_iff.1 herror
    have hverdict : Verdict c (refusal? c) := verdict_of_mem hfields (by rw [hsplit]; simp)
    rw [hc] at hverdict
    cases hverdict with
    | refused _ _ _ hreference => exact hreference target rfl

/-- Three unsupported parts: a literal that is too large, in the value of a binding, a primitive in a
later alternative, and a binding of a global name in the body. -/
def faultyExpr : Ir.Expr :=
  .bind (.loc 0)
    (.case (.loc 1)
      [.con 2 0 (.plain "Just") [.plain "x"]
          (.update (.loc 2) (.const (.bigInt 0x8000000000000000))),
        .default (.op ⟨.readStr, [], none⟩ [])] false true)
    (.bind (.glob (.plain "g")) .nothing .nothing)

theorem lower_fails_iff_unsupported_literal :
    faultyExpr.SpellableFields ∧
      ∃ error failure, (∀ env ret, lower env ret faultyExpr = .error error) ∧
        error.failure? = some failure ∧
        failure.message = "integer literal 9223372036854775808 does not fit a Vim Number" := by
  have hfields : faultyExpr.SpellableFields := by
    intro first count hmem i hi
    have hconstructs : faultyExpr.constructs =
        [.binding (.loc 0), .fields 2 1, .const (.bigInt 0x8000000000000000),
          .op ⟨.readStr, [], none⟩ 0, .binding (.glob (.plain "g"))] := rfl
    simp only [hconstructs, List.mem_cons, Construct.fields.injEq, reduceCtorEq, false_or, or_false,
      List.not_mem_nil] at hmem
    obtain ⟨rfl, rfl⟩ := hmem
    rw [List.mem_singleton.1 hi]
    exact (by decide : Spellable 2)
  have hsupported : ∀ b ∈ [Construct.binding (.loc 0), .fields 2 1], ¬Unsupported b := by
    intro b hb h
    rcases List.mem_cons.1 hb with rfl | hb
    · cases h
    · rw [List.mem_singleton.1 hb] at h
      cases h
  have hliteral : Unsupported (.const (.bigInt 0x8000000000000000)) := .bigInt (.inr (by decide))
  obtain ⟨error, failure, hlower, hcause, hreport⟩ :=
    (lower_fails_iff_unsupported faultyExpr hfields).2.1 [.binding (.loc 0), .fields 2 1] _ _ rfl
      hsupported hliteral
  refine ⟨hfields, error, failure, hlower, hcause, ?_⟩
  cases hreport
  rfl

/-! ## Programs that fail -/

/-- How a definition is refused, if it is. -/
def definitionRefusal? (d : Ir.Definition) : Option DefinitionError :=
  (d.body.constructs.findSome? refusal?).map fun cause => ⟨d.name, cause⟩

theorem lowerDefinitions_error (env : Env) (ds : List Ir.Definition) :
    errorOf? (lowerDefinitions env ds) = ds.findSome? definitionRefusal? := by
  induction ds with
  | nil => rfl
  | cons d ds ih =>
    have hd : errorOf? (lowerDefinition env d) = d.body.constructs.findSome? refusal? := by
      rw [lowerDefinition, errorOf?_map]
      exact lower_error d.body _ _
    rw [lowerDefinitions, List.findSome?_cons, definitionRefusal?, ← hd]
    cases lowerDefinition env d with
    | error cause => rfl
    | ok function => exact (errorOf?_map _ _).trans ih

/-- **A program fails as the first definition that is refused**, whatever the others define. -/
theorem lowerProgram_error (ds : List Ir.Definition) :
    errorOf? (lowerProgram ds) = ds.findSome? definitionRefusal? := by
  rw [lowerProgram, errorOf?_map]
  exact lowerDefinitions_error _ ds

end Vimgen.Lower
