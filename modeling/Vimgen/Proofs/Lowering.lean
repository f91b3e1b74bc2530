import Vimgen.Lower.Program
import Vimgen.Proofs.Env
import Vimgen.Proofs.Result
import Vimgen.Proofs.Slots

/-!
# What lowering does, case by case

Lowering of an expression with parts succeeds exactly when it succeeds on the parts, and puts their
statements together: one lemma for each of these cases, so that no proof has to open the
definitions. `enter` is the environment inside bindings and alternatives, where new slots are local
variables.
-/

namespace Vimgen.Lower

open Ir (fieldRange)
open Script (Block ScopedName)

variable {env : Env} {ret : Continuation} {scrutinee : Script.Expr}

/-! ## New slots -/

/-- The environment in which some slots are local variables. -/
def enter (env : Env) (is : List Int) : Env :=
  env.extendAll (is.map fun i => (Name.slot i, localName i))

theorem enter_eq (env : Env) (is : List Int) :
    enter env is = env.extendAll ((is.map Name.slot).map fun n => (n, ⟨.local, n.target⟩)) := by
  rw [List.map_map]; rfl

theorem notMem_map_slot {n : Name} (hn : n.isSlot = false) (is : List Int) :
    n ∉ is.map Name.slot := by
  intro hmem
  obtain ⟨i, -, rfl⟩ := List.mem_map.1 hmem
  cases hn

theorem lookup_enter_slot (env : Env) (is : List Int) (j : Int) :
    (enter env is).lookup (.slot j) = if j ∈ is then localName j else env.lookup (.slot j) := by
  rw [enter_eq, Env.lookup_extendAll]
  simp [localName]

theorem lookup_enter_name (env : Env) (is : List Int) {n : Name} (hn : n.isSlot = false) :
    (enter env is).lookup n = env.lookup n := by
  rw [enter_eq, Env.lookup_extendAll, if_neg (notMem_map_slot hn is)]

/-! ## Fields -/

/-- The statements that load fields into slots, from field `k` on. -/
def loads (scrutinee : Script.Expr) (k : Int) : List Int → Block
  | [] => []
  | i :: rest => .bind (localName i) (field scrutinee k) :: loads scrutinee (k + 1) rest

theorem loadFields_eq (scrutinee : Script.Expr) (is : List Int) :
    loadFields scrutinee (is.map fun i => (Name.slot i, localName i)) = loads scrutinee 1 is := by
  have key : ∀ k : Nat, ((is.map fun i => (Name.slot i, localName i)).zipIdx k).map
      (fun (p : (Name × ScopedName) × Nat) => Script.Stmt.bind p.1.2 (field scrutinee (p.2 + 1))) =
        loads scrutinee (k + 1) is := by
    induction is with
    | nil => intro k; rfl
    | cons i rest ih =>
      intro k
      have := ih (k + 1)
      push_cast at this
      simp only [List.map_cons, List.zipIdx_cons, loads, this]
  exact key 0

theorem fieldRange_eq (first : Int) (count : Nat) :
    fieldRange first count = (List.range count).map fun (k : Nat) => first + k := by
  induction count generalizing first with
  | zero => rfl
  | succ count ih =>
    rw [List.range_succ_eq_map, List.map_cons, List.map_map, fieldRange, ih]
    congr 1
    · simp
    · apply List.map_congr_left
      intro k _
      simp only [Function.comp_apply, Nat.succ_eq_add_one]
      push_cast
      omega

/-- Slots that can all be spelled are bound to the variables of their names. -/
theorem fieldSlots_eq {first : Int} {count : Nat} {bindings : List (Name × ScopedName)}
    (h : fieldSlots first count = .ok bindings) :
    bindings = (fieldRange first count).map fun i => (Name.slot i, localName i) := by
  rw [fieldSlots, mapM_eq_ok] at h
  rw [fieldRange_eq, List.map_map]
  generalize List.range count = ks at h
  induction h with
  | nil => rfl
  | cons hk _ ih =>
    rw [List.map_cons, ← ih]
    dsimp only at hk
    split at hk
    · cases hk; rfl
    · cases hk

/-! ## Expressions -/

theorem lower_bind_ok {i : Int} {value body : Ir.Expr} {block : Block} :
    lower env ret (.bind (.loc i) value body) = .ok block ↔
      ∃ first second, lower env (bindTo (localName i)) value = .ok first ∧
        lower (enter env [i]) ret body = .ok second ∧ block = first ++ second := by
  simp only [lower, bind_eq_ok, pure_eq_ok]
  constructor
  · rintro ⟨first, h₁, second, h₂, rfl⟩; exact ⟨first, second, h₁, h₂, rfl⟩
  · rintro ⟨first, second, h₁, h₂, rfl⟩; exact ⟨first, h₁, second, h₂, rfl⟩

theorem lower_case_ok {v : Ir.Var} {alts : List Ir.Alt} {checked shared : Bool} {block : Block} :
    lower env ret (.case v alts checked shared) = .ok block ↔
      ∃ branches, lowerAlts (resolve env v) env ret alts = .ok branches ∧
        block = joinBranches branches := by
  simp only [lower, bind_eq_ok, pure_eq_ok]
  constructor <;> rintro ⟨branches, h, rfl⟩ <;> exact ⟨branches, h, rfl⟩

theorem lowerAlts_cons_ok {alt : Ir.Alt} {rest : List Ir.Alt} {branches : List Branch} :
    lowerAlts scrutinee env ret (alt :: rest) = .ok branches ↔
      ∃ b bs, lowerAlt scrutinee env ret alt = .ok b ∧ lowerAlts scrutinee env ret rest = .ok bs ∧
        branches = b :: bs := by
  simp only [lowerAlts, bind_eq_ok, pure_eq_ok]
  constructor
  · rintro ⟨b, h₁, bs, h₂, rfl⟩; exact ⟨b, bs, h₁, h₂, rfl⟩
  · rintro ⟨b, bs, h₁, h₂, rfl⟩; exact ⟨b, h₁, bs, h₂, rfl⟩

theorem lowerAlt_const_ok {c : Ir.Const} {body : Ir.Expr} {branch : Branch} :
    lowerAlt scrutinee env ret (.const c body) = .ok branch ↔
      ∃ literal block, lowerConst c = .ok literal ∧ lower env ret body = .ok block ∧
        branch = .tested (.mk (.binary .equals scrutinee literal) block) := by
  simp only [lowerAlt, bind_eq_ok, pure_eq_ok]
  constructor
  · rintro ⟨x, h₁, b, h₂, rfl⟩; exact ⟨x, b, h₁, h₂, rfl⟩
  · rintro ⟨x, b, h₁, h₂, rfl⟩; exact ⟨x, h₁, b, h₂, rfl⟩

theorem lowerAlt_con_ok {first tag : Int} {name : Name} {fields : List Name} {body : Ir.Expr}
    {branch : Branch}
    (h : lowerAlt scrutinee env ret (.con first tag name fields body) = .ok branch) :
    ∃ block, lower (enter env (fieldRange first fields.length)) ret body = .ok block ∧
      branch = .tested (.mk (.binary .equals (field scrutinee 0) (.int tag))
        (loads scrutinee 1 (fieldRange first fields.length) ++ block)) := by
  simp only [lowerAlt, bind_eq_ok, pure_eq_ok] at h
  obtain ⟨bindings, hb, block, hbody, rfl⟩ := h
  rw [fieldSlots_eq hb] at hbody ⊢
  exact ⟨block, hbody, by rw [loadFields_eq]⟩

theorem lowerAlt_default_ok {body : Ir.Expr} {branch : Branch} :
    lowerAlt scrutinee env ret (.default body) = .ok branch ↔
      ∃ block, lower env ret body = .ok block ∧ branch = .fallback block := by
  simp only [lowerAlt, bind_eq_ok, pure_eq_ok]
  constructor <;> rintro ⟨block, h, rfl⟩ <;> exact ⟨block, h, rfl⟩

/-- **What joining comes to**: the defaults alone, or one conditional, with or without them. -/
theorem joinBranches_cases {motive : Block → Prop} (branches : List Branch)
    (defaults : branches.filterMap Branch.arm? = [] →
      motive (branches.filterMap Branch.fallback?).flatten)
    (tested : branches.filterMap Branch.arm? ≠ [] → branches.filterMap Branch.fallback? = [] →
      motive [.cond (branches.filterMap Branch.arm?) none])
    (both : branches.filterMap Branch.arm? ≠ [] → branches.filterMap Branch.fallback? ≠ [] →
      motive [.cond (branches.filterMap Branch.arm?)
        (some (branches.filterMap Branch.fallback?).flatten)]) :
    motive (joinBranches branches) := by
  unfold joinBranches
  dsimp only
  split
  · rename_i h
    exact defaults (List.isEmpty_iff.1 h)
  · rename_i h
    have harms : branches.filterMap Branch.arm? ≠ [] := fun hnil => h (List.isEmpty_iff.2 hnil)
    split
    · rename_i h
      exact tested harms (List.isEmpty_iff.1 h)
    · rename_i h
      exact both harms fun hnil => h (List.isEmpty_iff.2 hnil)

/-- **Joining commutes with a change of statements** that goes on into the branches of
conditions. -/
theorem joinBranches_map {f : Script.Stmt → Script.Stmt} {g : Script.Arm → Script.Arm}
    {h : Branch → Branch}
    (hcond : ∀ arms default,
      f (.cond arms default) = .cond (arms.map g) (default.map (List.map f)))
    (harm : ∀ b, (h b).arm? = b.arm?.map g)
    (hfallback : ∀ b, (h b).fallback? = b.fallback?.map (List.map f)) (branches : List Branch) :
    joinBranches (branches.map h) = (joinBranches branches).map f := by
  have harms : (branches.map h).filterMap Branch.arm? =
      (branches.filterMap Branch.arm?).map g := by
    rw [List.filterMap_map, List.map_filterMap]
    exact List.filterMap_congr fun b _ => harm b
  have hdefaults : (branches.map h).filterMap Branch.fallback? =
      (branches.filterMap Branch.fallback?).map (List.map f) := by
    rw [List.filterMap_map, List.map_filterMap]
    exact List.filterMap_congr fun b _ => hfallback b
  unfold joinBranches
  simp only [harms, hdefaults, List.isEmpty_map]
  split
  · rw [List.map_flatten]
  · rw [List.map_singleton, hcond]
    split
    · rfl
    · rw [Option.map_some, List.map_flatten]

/-! ## Functions -/

/-- The environment of a definition's body. -/
def bodyEnv (definitions : List Ir.Definition) (arity : Nat) : Env :=
  (globalEnv definitions).extendAll (parameters arity)

theorem lookup_globalEnv (definitions : List Ir.Definition) (n : Name) :
    (globalEnv definitions).lookup n =
      if n ∈ definitions.map Ir.Definition.name then functionName n else ⟨.global, n.target⟩ := by
  have hbind : globalEnv definitions = Env.empty.extendAll
      ((definitions.map Ir.Definition.name).map fun n => (n, functionName n)) := by
    rw [List.map_map]; rfl
  rw [hbind, Env.lookup_extendAll]
  rfl

theorem parameters_eq (arity : Nat) :
    parameters arity =
      ((fieldRange 0 arity).map Name.slot).map fun n => (n, ⟨.argument, n.target⟩) := by
  rw [fieldRange_eq, List.map_map, List.map_map]
  apply List.map_congr_left
  intro i _
  simp

theorem parameters_names (arity : Nat) :
    (parameters arity).map (fun p => p.2.base) =
      (fieldRange 0 arity).map fun i => (Name.slot i).target := by
  rw [parameters_eq, List.map_map, List.map_map]; rfl

theorem lookup_bodyEnv_slot (definitions : List Ir.Definition) (arity : Nat) (i : Int) :
    (bodyEnv definitions arity).lookup (.slot i) =
      if 0 ≤ i ∧ i < arity then ⟨.argument, (Name.slot i).target⟩
      else (globalEnv definitions).lookup (.slot i) := by
  rw [bodyEnv, parameters_eq, Env.lookup_extendAll]
  simp [Ir.mem_fieldRange]

theorem lookup_bodyEnv_name (definitions : List Ir.Definition) (arity : Nat) {n : Name}
    (hn : n.isSlot = false) :
    (bodyEnv definitions arity).lookup n = (globalEnv definitions).lookup n := by
  rw [bodyEnv, parameters_eq, Env.lookup_extendAll, if_neg (notMem_map_slot hn _)]

end Vimgen.Lower
