import Vimgen.Proofs.Renaming
import Vimgen.Proofs.Scoping

/-!
# Lowering part by part

What lowering does with an expression, told without its thirteen rules. An expression without parts
is a leaf, and `leafCode` says what can become of one: a value for the continuation, one of three
statements that have no value, or a failure. An alternative is a test with fields to load, or a
default, or fails: `altCode`. None of this depends on the continuation. `Expr.byParts` is the
induction that goes with it.
-/

namespace Vimgen.Ir

/-! ## Expressions by their parts -/

/-- The expression of an alternative. -/
def Alt.body : Alt → Expr
  | .const _ body | .con _ _ _ _ body | .default body => body

/-- Whether an alternative is a default. -/
def Alt.isDefault : Alt → Bool
  | .default _ => true
  | _ => false

/-- Foreign functions that are statements of the script: they show a text or change a list, and have
no value. -/
def Descriptor.isStatement : Descriptor → Bool
  | .con name =>
    ForeignTag.ofSymbol? name = some .echo || ForeignTag.ofSymbol? name = some .listSetAt
  | _ => false

/-- What running a leaf comes to. -/
inductive LeafKind where
  | value
  | statement
  | failure
  deriving DecidableEq, Repr

/-- The kind of a leaf. -/
def Expr.leafKind : Expr → LeafKind
  | .foreign function _ _ => if function.isStatement then .statement else .value
  | .error _ => .failure
  | _ => .value

/-- What a recursion over alternatives says of all their bodies. -/
theorem forall_body {f : Expr → Prop} {g : List Alt → Prop}
    (hcons : ∀ alt rest, g (alt :: rest) → f alt.body ∧ g rest) {alts : List Alt} (h : g alts) :
    ∀ alt ∈ alts, f alt.body := by
  induction alts with
  | nil => exact List.forall_mem_nil _
  | cons alt rest ih =>
    obtain ⟨halt, hrest⟩ := hcons alt rest h
    exact List.forall_mem_cons.2 ⟨halt, ih hrest⟩

/-- **Induction by parts.** -/
@[elab_as_elim]
theorem Expr.byParts {motive : Expr → Prop}
    (leaf : ∀ e, Lower.isLeaf e = true → motive e)
    (bind : ∀ v value body, motive value → motive body → motive (.bind v value body))
    (update : ∀ v value, motive value → motive (.update v value))
    (case : ∀ v alts checked shared, (∀ alt ∈ alts, motive alt.body) →
      motive (.case v alts checked shared)) (e : Expr) : motive e :=
  @Expr.rec motive (fun alt => motive alt.body) (fun alts => ∀ alt ∈ alts, motive alt.body)
    (fun v => leaf (.var v) rfl)
    (fun function args tailCall => leaf (.app function args tailCall) rfl)
    bind update
    (fun tag name args reuse => leaf (.con tag name args reuse) rfl)
    case
    (fun v index => leaf (.proj v index) rfl)
    (fun c => leaf (.const c) rfl)
    (fun function args result => leaf (.foreign function args result) rfl)
    (fun op args => leaf (.op op args) rfl)
    (leaf .nothing rfl)
    (fun message => leaf (.error message) rfl)
    (fun _ _ hbody => hbody) (fun _ _ _ _ _ hbody => hbody) (fun _ hbody => hbody)
    (List.forall_mem_nil _) (fun _ _ halt hrest => List.forall_mem_cons.2 ⟨halt, hrest⟩) e

end Vimgen.Ir

namespace Vimgen.Lower

open Ir (fieldRange)
open Script (Alike AllAlike Block ScopedName)

/-! ## Leaves -/

/-- A name that an environment has for one of some names, or a function of the editor. -/
def FoundIn (env : Env) (names : List Name) (n : ScopedName) : Prop :=
  n.scope = .builtin ∨ ∃ m ∈ names, n = env.lookup m

/-- What becomes of a leaf under every continuation. -/
inductive LeafCode (env : Env) (e : Ir.Expr) : Prop
  /-- It has a value, which goes to the continuation. -/
  | value (x : Script.Expr) (hkind : e.leafKind = .value)
    (hlower : ∀ ret, lower env ret e = .ok [ret x])
    (hnames : ∀ n ∈ x.names, FoundIn env e.references n)
  /-- It shows a text. -/
  | echo (x : Script.Expr) (hkind : e.leafKind = .statement)
    (hlower : ∀ ret, lower env ret e = .ok [.command "echo" x])
    (hnames : ∀ n ∈ x.names, FoundIn env e.references n)
  /-- It changes a list. -/
  | setItem (list : ScopedName) (index x : Script.Expr) (hkind : e.leafKind = .statement)
    (hlower : ∀ ret, lower env ret e = .ok [.assign (.item (.name list) (.single index)) x])
    (hnames : ∀ n ∈ list :: (index.names ++ x.names), FoundIn env e.references n)
  /-- It fails when it is run. -/
  | throw (message : String) (hkind : e.leafKind = .failure)
    (hlower : ∀ ret, lower env ret e = .ok [.command "throw" (.str message)])
  /-- It cannot be lowered. -/
  | refused (error : LowerError) (hlower : ∀ ret, lower env ret e = .error error)

section

variable {env : Env} {names : List Name}

/-- Names that are found, as a relation between names that are the same. -/
abbrev FoundPair (env : Env) (names : List Name) (n _m : ScopedName) : Prop := FoundIn env names n

theorem foundIn_lookup {m : Name} (h : m ∈ names) : FoundIn env names (env.lookup m) :=
  .inr ⟨m, h, rfl⟩

theorem foundPair_builtin (name : String) :
    FoundPair env names ⟨.builtin, name⟩ ⟨.builtin, name⟩ := .inl rfl

theorem foundIn_of_alike {x y : Script.Expr}
    (h : Alike (FoundPair env names) (FoundPair env names) x y) :
    ∀ n ∈ x.names, FoundIn env names n :=
  Alike.forall_names (P := FoundIn env names) (fun _ _ hn => hn) (fun _ _ hn => hn) h

theorem foundIn_of_allAlike {xs ys : List Script.Expr}
    (h : AllAlike (FoundPair env names) (FoundPair env names) xs ys) :
    ∀ n ∈ Script.exprsNames xs, FoundIn env names n :=
  AllAlike.forall_names (P := FoundIn env names) (fun _ _ hn => hn) (fun _ _ hn => hn) h

theorem alike_resolveAll {vs : List Ir.Var} (h : ∀ v ∈ vs, v.name ∈ names) :
    AllAlike (FoundPair env names) (FoundPair env names) (resolveAll env vs) (resolveAll env vs) :=
  .map fun v hv => .ref (foundIn_lookup (h v hv))

end

theorem leafCode_op (env : Env) (op : Ir.PrimOp) (args : List Ir.Var) :
    LeafCode env (.op op args) := by
  have hargs : AllAlike (FoundPair env (args.map Ir.Var.name))
      (FoundPair env (args.map Ir.Var.name)) (resolveAll env args) (resolveAll env args) :=
    alike_resolveAll fun v hv => List.mem_map_of_mem hv
  have hsame := lowerPrimitive_alike foundPair_builtin op hargs
  cases hresult : lowerPrimitive op (resolveAll env args) with
  | error e =>
    refine .refused e fun ret => ?_
    rw [lower, hresult]
    rfl
  | ok x =>
    rw [hresult] at hsame
    have hlower : ∀ ret, lower env ret (.op op args) = .ok [ret x] := by
      intro ret
      rw [lower, hresult]
      rfl
    cases hsame with
    | ok hlike => exact .value x rfl hlower (foundIn_of_alike hlike)

theorem leafCode_const (env : Env) (c : Ir.Const) : LeafCode env (.const c) := by
  cases hresult : lowerConst c with
  | error e =>
    refine .refused e fun ret => ?_
    rw [lower, hresult]
    rfl
  | ok x =>
    have hlower : ∀ ret, lower env ret (.const c) = .ok [ret x] := by
      intro ret
      rw [lower, hresult]
      rfl
    exact .value x rfl hlower (foundIn_of_alike (alike_literal hresult))

/-- A known function that is no statement passes its value on. -/
theorem lowerTagged_kind {tag : Ir.ForeignTag} {xs : List Script.Expr} {s : Script.Stmt}
    (h : lowerTagged tag xs returnValue = .ok [s]) :
    (tag = .echo ∨ tag = .listSetAt) ↔ ∀ x, s ≠ .ret x := by
  unfold lowerTagged at h
  split at h <;> cases h
  · simp
  · simp
  · simp [returnValue]
  · simp [returnValue]
  · simp [returnValue]
  · simp [returnValue]
  · simp [returnValue]

theorem lowerForeign_kind {function : Ir.Descriptor} {xs : List Script.Expr} {s : Script.Stmt}
    (h : lowerForeign function xs returnValue = .ok [s]) :
    function.isStatement = true ↔ ∀ x, s ≠ .ret x := by
  cases function with
  | con name =>
    cases htag : Ir.ForeignTag.ofSymbol? name with
    | none =>
      simp only [lowerForeign, htag] at h
      cases h
    | some tag =>
      simp only [lowerForeign, htag] at h
      rw [← lowerTagged_kind h]
      simp [Ir.Descriptor.isStatement, htag]
  | app name args =>
    -- only the call of a named function is lowered, and it has a value
    unfold lowerForeign at h
    split at h
    · rename_i heq; cases heq
    · split at h
      · cases h
        simp [Ir.Descriptor.isStatement, returnValue]
      · cases h
    · cases h
  | str value => cases h
  | unknown => cases h

theorem leafCode_foreign (env : Env) (function : Ir.Descriptor) (args : List Ir.ForeignArg)
    (result : Option Ir.Descriptor) : LeafCode env (.foreign function args result) := by
  have hargs : RefPairs (FoundPair env (args.map fun a => a.var.name))
      (args.map fun a => resolve env a.var) (args.map fun a => resolve env a.var) := by
    rw [RefPairs, List.forall₂_map_left_iff, List.forall₂_map_right_iff, List.forall₂_same]
    intro a ha
    exact ⟨_, _, foundIn_lookup (List.mem_map_of_mem ha), rfl, rfl⟩
  cases lowerForeign_pair foundPair_builtin function hargs with
  | value hlike hf _ =>
    have hvalue : ¬ function.isStatement = true := by
      rw [lowerForeign_kind (hf returnValue)]
      simp [returnValue]
    exact .value _ (if_neg hvalue) hf (foundIn_of_alike hlike)
  | echo hlike hf _ =>
    have hstatement : function.isStatement = true :=
      (lowerForeign_kind (hf returnValue)).2 (by simp)
    exact .echo _ (if_pos hstatement) hf (foundIn_of_alike hlike)
  | setItem hindex hvalue hlist hf _ =>
    have hstatement : function.isStatement = true :=
      (lowerForeign_kind (hf returnValue)).2 (by simp)
    refine .setItem _ _ _ (if_pos hstatement) hf (List.forall_mem_cons.2 ⟨hlist, ?_⟩)
    exact List.forall_mem_append.2 ⟨foundIn_of_alike hindex, foundIn_of_alike hvalue⟩
  | failure e hf _ => exact .refused e hf

/-- **What becomes of a leaf** does not depend on the continuation. -/
theorem leafCode (env : Env) {e : Ir.Expr} (hleaf : isLeaf e = true) : LeafCode env e := by
  cases e with
  | var v =>
    have hname : FoundIn env [v.name] (env.lookup v.name) := foundIn_lookup List.mem_cons_self
    cases v with
    | loc i => exact .value _ rfl (fun _ => rfl) (List.forall_mem_singleton.2 hname)
    | glob n => exact .value _ rfl (fun _ => rfl) (List.forall_mem_singleton.2 hname)
  | app function args tailCall =>
    refine .value _ rfl (fun _ => rfl) (List.forall_mem_cons.2 ⟨?_, ?_⟩)
    · exact foundIn_lookup List.mem_cons_self
    · exact foundIn_of_allAlike
        (alike_resolveAll fun v hv => List.mem_cons_of_mem _ (List.mem_map_of_mem hv))
  | con tag name args reuse =>
    have hargs : AllAlike (FoundPair env (args.map Ir.Var.name))
        (FoundPair env (args.map Ir.Var.name)) (resolveAll env args) (resolveAll env args) :=
      alike_resolveAll fun v hv => List.mem_map_of_mem hv
    exact .value _ rfl (fun _ => rfl) (foundIn_of_allAlike (.cons (.int tag) hargs))
  | proj v index =>
    refine .value _ rfl (fun _ => rfl) (List.forall_mem_append.2 ⟨?_, List.forall_mem_nil _⟩)
    exact List.forall_mem_singleton.2 (foundIn_lookup List.mem_cons_self)
  | const c => exact leafCode_const env c
  | foreign function args result => exact leafCode_foreign env function args result
  | op op args => exact leafCode_op env op args
  | nothing => exact .value _ rfl (fun _ => rfl) (List.forall_mem_nil _)
  | error message => exact .throw message rfl (fun _ => rfl)
  | bind v value body => cases hleaf
  | update v value => cases hleaf
  | case v alts checked shared => cases hleaf

/-! ## Alternatives -/

/-- What becomes of an alternative under every continuation. -/
inductive AltCode (scrutinee : Script.Expr) (env : Env) (alt : Ir.Alt) : Prop
  /-- A test, and before the body the fields are loaded, which are slots in it. -/
  | tested (test : Script.Expr) (is : List Int) (hkind : alt.isDefault = false)
    (hlower : ∀ ret, lowerAlt scrutinee env ret alt =
      (lower (enter env is) ret alt.body).map fun body =>
        .tested (.mk test (loads scrutinee 1 is ++ body)))
    (hnames : ∀ n ∈ test.names, n ∈ scrutinee.names)
  /-- The body alone. -/
  | fallback (hkind : alt.isDefault = true)
    (hlower : ∀ ret, lowerAlt scrutinee env ret alt = (lower env ret alt.body).map .fallback)
  /-- It cannot be lowered. -/
  | refused (error : LowerError) (hlower : ∀ ret, lowerAlt scrutinee env ret alt = .error error)

/-- **What becomes of an alternative** does not depend on the continuation. -/
theorem altCode (scrutinee : Script.Expr) (env : Env) (alt : Ir.Alt) :
    AltCode scrutinee env alt := by
  cases alt with
  | const c body =>
    cases hliteral : lowerConst c with
    | error e =>
      refine .refused e fun ret => ?_
      rw [lowerAlt, hliteral]
      rfl
    | ok literal =>
      have hno : ∀ n ∈ literal.names, n ∈ scrutinee.names :=
        Alike.forall_names (P := (· ∈ scrutinee.names)) (R := fun _ _ => False)
          (Q := fun _ _ => False) (fun _ _ h => h.elim) (fun _ _ h => h.elim)
          (alike_literal hliteral)
      refine .tested (.binary .equals scrutinee literal) [] rfl (fun ret => ?_)
        (List.forall_mem_append.2 ⟨fun _ hn => hn, hno⟩)
      rw [lowerAlt, hliteral]
      rfl
  | con first tag name fields body =>
    cases hslots : fieldSlots first fields.length with
    | error e =>
      refine .refused e fun ret => ?_
      rw [lowerAlt, hslots]
      rfl
    | ok slots =>
      refine .tested (.binary .equals (field scrutinee 0) (.int tag))
        (fieldRange first fields.length) rfl (fun ret => ?_) ?_
      · rw [lowerAlt, hslots, fieldSlots_eq hslots, ← loadFields_eq]
        rfl
      · simp [Script.Expr.names, field, item, Script.Projection.names]
  | default body => exact .fallback rfl (fun _ => rfl)

/-- The two ways to lower an alternative. -/
theorem lowerAlt_eq_ok {scrutinee : Script.Expr} {env : Env} {ret : Continuation} {alt : Ir.Alt}
    {branch : Branch} (h : lowerAlt scrutinee env ret alt = .ok branch) :
    (∃ test is body, alt.isDefault = false ∧ (∀ n ∈ test.names, n ∈ scrutinee.names) ∧
      lower (enter env is) ret alt.body = .ok body ∧
      branch = .tested (.mk test (loads scrutinee 1 is ++ body))) ∨
    ∃ body, alt.isDefault = true ∧ lower env ret alt.body = .ok body ∧ branch = .fallback body := by
  cases altCode scrutinee env alt with
  | tested test is hkind hlower hnames =>
    rw [hlower] at h
    cases hbody : lower (enter env is) ret alt.body with
    | error e => rw [hbody] at h; cases h
    | ok body =>
      rw [hbody] at h
      cases h
      exact .inl ⟨test, is, body, hkind, hnames, hbody, rfl⟩
  | fallback hkind hlower =>
    rw [hlower] at h
    cases hbody : lower env ret alt.body with
    | error e => rw [hbody] at h; cases h
    | ok body =>
      rw [hbody] at h
      cases h
      exact .inr ⟨body, hkind, rfl, rfl⟩
  | refused error hlower => rw [hlower] at h; cases h

/-- Every arm comes from an alternative: its fields are loaded, and its body follows. -/
theorem exists_of_mem_arms {scrutinee : Script.Expr} {env : Env} {ret : Continuation}
    {alts : List Ir.Alt} {branches : List Branch}
    (h : List.Forall₂ (fun alt b => lowerAlt scrutinee env ret alt = .ok b) alts branches)
    {test : Script.Expr} {body : Block}
    (hmem : Script.Arm.mk test body ∈ branches.filterMap Branch.arm?) :
    ∃ alt ∈ alts, ∃ is block, (∀ n ∈ test.names, n ∈ scrutinee.names) ∧
      lower (enter env is) ret alt.body = .ok block ∧ body = loads scrutinee 1 is ++ block := by
  obtain ⟨branch, hbranch, harm⟩ := List.mem_filterMap.1 hmem
  obtain ⟨alt, halt, hlower⟩ := exists_of_forall₂ h branch hbranch
  rcases lowerAlt_eq_ok hlower with ⟨test, is, block, -, htest, hblock, rfl⟩ | ⟨block, -, -, rfl⟩
  · cases harm
    exact ⟨alt, halt, is, block, htest, hblock, rfl⟩
  · cases harm

/-- Every default branch comes from a default. -/
theorem exists_of_mem_fallbacks {scrutinee : Script.Expr} {env : Env} {ret : Continuation}
    {alts : List Ir.Alt} {branches : List Branch}
    (h : List.Forall₂ (fun alt b => lowerAlt scrutinee env ret alt = .ok b) alts branches)
    {body : Block} (hmem : body ∈ branches.filterMap Branch.fallback?) :
    ∃ alt ∈ alts, alt.isDefault = true ∧ lower env ret alt.body = .ok body := by
  obtain ⟨branch, hbranch, hfallback⟩ := List.mem_filterMap.1 hmem
  obtain ⟨alt, halt, hlower⟩ := exists_of_forall₂ h branch hbranch
  rcases lowerAlt_eq_ok hlower with ⟨test, is, block, -, -, -, rfl⟩ | ⟨block, hkind, hblock, rfl⟩
  · cases hfallback
  · cases hfallback
    exact ⟨alt, halt, hkind, hblock⟩

theorem lowerAlts_eq_mapM (scrutinee : Script.Expr) (env : Env) (ret : Continuation)
    (alts : List Ir.Alt) :
    lowerAlts scrutinee env ret alts = alts.mapM (lowerAlt scrutinee env ret) := by
  induction alts with
  | nil => rfl
  | cons alt alts ih => rw [lowerAlts, ih, List.mapM_cons]

/-- A choice is lowered by lowering its alternatives. -/
theorem lowerCase_eq_join_iff {scrutinee : Script.Expr} {env : Env} {ret : Continuation}
    {alts : List Ir.Alt} {block : Block} :
    lowerCase scrutinee env ret alts = .ok block ↔
      ∃ branches,
        List.Forall₂ (fun alt b => lowerAlt scrutinee env ret alt = .ok b) alts branches ∧
        block = joinBranches branches := by
  rw [lowerCase, lowerAlts_eq_mapM, bind_eq_ok]
  refine exists_congr fun branches => and_congr mapM_eq_ok ?_
  rw [pure_eq_ok, eq_comm]

theorem lower_case_eq_ok {env : Env} {ret : Continuation} {v : Ir.Var} {alts : List Ir.Alt}
    {checked shared : Bool} {block : Block}
    (h : lower env ret (.case v alts checked shared) = .ok block) :
    ∃ branches,
      List.Forall₂ (fun alt b => lowerAlt (resolve env v) env ret alt = .ok b) alts branches ∧
      block = joinBranches branches :=
  lowerCase_eq_join_iff.1 h

end Vimgen.Lower
