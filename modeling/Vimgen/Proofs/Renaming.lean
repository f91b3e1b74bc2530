import Vimgen.Proofs.Alike
import Vimgen.Proofs.Lowering

/-!
# Renaming scripts

`Stmt.rename f` puts `f n` in place of every name `n` of a statement, whether it is read, bound,
assigned to or called, and leaves everything else as it is.

Lowering asks its environment for names and never looks at the answer. So where one environment
answers with the renamed names of another, lowering in it gives the renamed script, and it fails
where the other does: `lower_rename`. With the identity for `f`, lowering depends on an environment
only through what it looks up: `lower_congr`.
-/

namespace Vimgen.Script

/-! ## Putting names in place of names -/

mutual

/-- The expression with other names. -/
def Expr.rename (f : ScopedName → ScopedName) : Expr → Expr
  | .int value => .int value
  | .str value => .str value
  | .list items => .list (exprsRename f items)
  | .ref name => .ref (f name)
  | .apply function args => .apply (function.rename f) (exprsRename f args)
  | .binary op left right => .binary op (left.rename f) (right.rename f)
  | .proj base projection => .proj (base.rename f) (projection.rename f)
  | .stray node => .stray (node.rename f)

def exprsRename (f : ScopedName → ScopedName) : List Expr → List Expr
  | [] => []
  | e :: rest => e.rename f :: exprsRename f rest

def Projection.rename (f : ScopedName → ScopedName) : Projection → Projection
  | .single index => .single (index.rename f)
  | .onward start => .onward (start.rename f)
  | .stray node => .stray (node.rename f)

def Target.rename (f : ScopedName → ScopedName) : Target → Target
  | .name name => .name (f name)
  | .item base projection => .item (base.rename f) (projection.rename f)
  | .stray node => .stray (node.rename f)

/-- The statement with other names. -/
def Stmt.rename (f : ScopedName → ScopedName) : Stmt → Stmt
  | .bind name value => .bind (f name) (value.rename f)
  | .assign target value => .assign (target.rename f) (value.rename f)
  | .ret value => .ret (value.rename f)
  | .call name args => .call (f name) (exprsRename f args)
  | .command command arg => .command command (arg.rename f)
  | .cond arms default => .cond (armsRename f arms) (defaultRename f default)
  | .function name params body => .function (f name) params (blockRename f body)
  | .stray node => .stray (node.rename f)

def blockRename (f : ScopedName → ScopedName) : List Stmt → List Stmt
  | [] => []
  | s :: rest => s.rename f :: blockRename f rest

def Arm.rename (f : ScopedName → ScopedName) : Arm → Arm
  | .mk test body => .mk (test.rename f) (blockRename f body)

def armsRename (f : ScopedName → ScopedName) : List Arm → List Arm
  | [] => []
  | arm :: rest => arm.rename f :: armsRename f rest

def defaultRename (f : ScopedName → ScopedName) : Option (List Stmt) → Option (List Stmt)
  | none => none
  | some default => some (blockRename f default)

def Node.rename (f : ScopedName → ScopedName) : Node → Node
  | .expr e => .expr (e.rename f)
  | .projection p => .projection (p.rename f)
  | .target t => .target (t.rename f)
  | .stmt s => .stmt (s.rename f)
  | .arm a => .arm (a.rename f)
  | .program items => .program (blockRename f items)
  | .alien kind => .alien kind

end

variable {f : ScopedName → ScopedName}

theorem blockRename_eq_map (b : Block) : blockRename f b = b.map (Stmt.rename f) := by
  induction b with
  | nil => rfl
  | cons s b ih => rw [blockRename, ih, List.map_cons]

theorem armsRename_eq_map (arms : List Arm) : armsRename f arms = arms.map (Arm.rename f) := by
  induction arms with
  | nil => rfl
  | cons arm arms ih => rw [armsRename, ih, List.map_cons]

theorem defaultRename_eq_map (default : Option (List Stmt)) :
    defaultRename f default = default.map (List.map (Stmt.rename f)) := by
  cases default with
  | none => rfl
  | some default => rw [defaultRename, blockRename_eq_map]; rfl

mutual

theorem Expr.rename_id : ∀ e : Expr, e.rename id = e
  | .int _ | .str _ | .ref _ => rfl
  | .list items => by rw [Expr.rename, exprsRename_id items]
  | .apply function args => by rw [Expr.rename, function.rename_id, exprsRename_id args]
  | .binary _ left right => by rw [Expr.rename, left.rename_id, right.rename_id]
  | .proj base projection => by rw [Expr.rename, base.rename_id, projection.rename_id]
  | .stray node => by rw [Expr.rename, node.rename_id]

theorem exprsRename_id : ∀ es : List Expr, exprsRename id es = es
  | [] => rfl
  | e :: rest => by rw [exprsRename, e.rename_id, exprsRename_id rest]

theorem Projection.rename_id : ∀ p : Projection, p.rename id = p
  | .single index => by rw [Projection.rename, index.rename_id]
  | .onward start => by rw [Projection.rename, start.rename_id]
  | .stray node => by rw [Projection.rename, node.rename_id]

theorem Target.rename_id (t : Target) : t.rename id = t := by
  cases t with
  | name _ => rfl
  | item base projection => rw [Target.rename, base.rename_id, projection.rename_id]
  | stray node => rw [Target.rename, node.rename_id]

theorem Stmt.rename_id : ∀ s : Stmt, s.rename id = s
  | .bind _ value => by rw [Stmt.rename, value.rename_id]; rfl
  | .assign target value => by rw [Stmt.rename, target.rename_id, value.rename_id]
  | .ret value => by rw [Stmt.rename, value.rename_id]
  | .call _ args => by rw [Stmt.rename, exprsRename_id args]; rfl
  | .command _ arg => by rw [Stmt.rename, arg.rename_id]
  | .cond arms none => by rw [Stmt.rename, armsRename_id arms]; rfl
  | .cond arms (some default) => by
    rw [Stmt.rename, armsRename_id arms, defaultRename, blockRename_id default]
  | .function _ _ body => by rw [Stmt.rename, blockRename_id body]; rfl
  | .stray node => by rw [Stmt.rename, node.rename_id]

theorem blockRename_id : ∀ b : List Stmt, blockRename id b = b
  | [] => rfl
  | s :: rest => by rw [blockRename, s.rename_id, blockRename_id rest]

theorem Arm.rename_id : ∀ arm : Arm, arm.rename id = arm
  | .mk test body => by rw [Arm.rename, test.rename_id, blockRename_id body]

theorem armsRename_id : ∀ arms : List Arm, armsRename id arms = arms
  | [] => rfl
  | arm :: rest => by rw [armsRename, arm.rename_id, armsRename_id rest]

theorem Node.rename_id : ∀ node : Node, node.rename id = node
  | .expr e => by rw [Node.rename, e.rename_id]
  | .projection p => by rw [Node.rename, p.rename_id]
  | .target t => by rw [Node.rename, t.rename_id]
  | .stmt s => by rw [Node.rename, s.rename_id]
  | .arm a => by rw [Node.rename, a.rename_id]
  | .program items => by rw [Node.rename, blockRename_id items]
  | .alien _ => rfl

end

/-- The second name is the first one renamed. -/
abbrev RenamedBy (f : ScopedName → ScopedName) (n m : ScopedName) : Prop := m = f n

mutual

/-- **Alike up to a renaming** is renamed. -/
theorem Alike.eq_rename : ∀ {x y : Expr}, Alike (RenamedBy f) (RenamedBy f) x y → y = x.rename f
  | _, _, .int _ => rfl
  | _, _, .str _ => rfl
  | _, _, .list h => by rw [h.eq_rename, Expr.rename]
  | _, _, .ref h => by rw [h, Expr.rename]
  | _, _, .call hname hargs => by rw [hname, hargs.eq_rename, Expr.rename, Expr.rename]
  | _, _, .binary _ hleft hright => by rw [hleft.eq_rename, hright.eq_rename, Expr.rename]
  | _, _, .single hbase hindex => by
    rw [hbase.eq_rename, hindex.eq_rename, Expr.rename, Projection.rename]
  | _, _, .onward hbase hstart => by
    rw [hbase.eq_rename, hstart.eq_rename, Expr.rename, Projection.rename]

theorem AllAlike.eq_rename : ∀ {xs ys : List Expr},
    AllAlike (RenamedBy f) (RenamedBy f) xs ys → ys = exprsRename f xs
  | _, _, .nil => rfl
  | _, _, .cons h hs => by rw [h.eq_rename, hs.eq_rename, exprsRename]

end

end Vimgen.Script

namespace Vimgen.Ir

mutual

/-- The names that an expression refers to. -/
def Expr.references : Expr → List Name
  | .var v => [v.name]
  | .app function args _ => function :: args.map Var.name
  | .bind _ value body => value.references ++ body.references
  | .update _ value => value.references
  | .con _ _ args _ => args.map Var.name
  | .case scrutinee alts _ _ => scrutinee.name :: altsReferences alts
  | .proj v _ => [v.name]
  | .foreign _ args _ => args.map fun a => a.var.name
  | .op _ args => args.map Var.name
  | .const _ | .nothing | .error _ => []

def Alt.references : Alt → List Name
  | .const _ body | .con _ _ _ _ body | .default body => body.references

def altsReferences : List Alt → List Name
  | [] => []
  | alt :: rest => alt.references ++ altsReferences rest

end

end Vimgen.Ir

namespace Vimgen.Lower

open Ir (fieldRange)
open Script (Alike AllAlike Block RenamedBy ScopedName exprsRename)

/-! ## Lowering and renaming -/

/-- A renaming that leaves local variables and functions of the editor alone. -/
structure KeepsLocals (f : ScopedName → ScopedName) : Prop where
  slot : ∀ i, f (localName i) = localName i
  builtin : ∀ name, f ⟨.builtin, name⟩ = ⟨.builtin, name⟩

/-- The branch with other names. -/
def Branch.rename (f : ScopedName → ScopedName) : Branch → Branch
  | .tested arm => .tested (arm.rename f)
  | .fallback body => .fallback (body.map (Script.Stmt.rename f))

section

variable {f : ScopedName → ScopedName}

theorem tested_rename (test : Script.Expr) (body : Block) :
    Branch.rename f (.tested (.mk test body)) =
      .tested (.mk (test.rename f) (body.map (Script.Stmt.rename f))) := by
  rw [Branch.rename, Script.Arm.rename, Script.blockRename_eq_map]

theorem joinBranches_rename (branches : List Branch) :
    joinBranches (branches.map (Branch.rename f)) =
      (joinBranches branches).map (Script.Stmt.rename f) := by
  refine joinBranches_map (g := Script.Arm.rename f) (fun arms default => ?_) (fun b => ?_)
    (fun b => ?_) branches
  · rw [Script.Stmt.rename, Script.armsRename_eq_map, Script.defaultRename_eq_map]
  · cases b <;> rfl
  · cases b <;> rfl

theorem loads_rename (hf : KeepsLocals f) (scrutinee : Script.Expr) (is : List Int) (k : Int) :
    loads (scrutinee.rename f) k is = (loads scrutinee k is).map (Script.Stmt.rename f) := by
  induction is generalizing k with
  | nil => rfl
  | cons i is ih =>
    rw [loads, loads, ih, List.map_cons, Script.Stmt.rename, hf.slot]
    rfl

variable {env env' : Env} {ret ret' : Continuation}

/-- Names that stand for renamed names still do so under new slots. -/
theorem lookup_enter_rename (hf : KeepsLocals f) {n : Name}
    (h : env'.lookup n = f (env.lookup n)) (is : List Int) :
    (enter env' is).lookup n = f ((enter env is).lookup n) := by
  rw [enter_eq, enter_eq, Env.lookup_extendAll, Env.lookup_extendAll]
  split
  · rename_i hmem
    obtain ⟨i, -, rfl⟩ := List.mem_map.1 hmem
    exact (hf.slot i).symm
  · exact h

theorem resolve_rename {v : Ir.Var} (h : env'.lookup v.name = f (env.lookup v.name)) :
    resolve env' v = (resolve env v).rename f := by
  rw [resolve, h]
  rfl

theorem resolveAll_alike {vs : List Ir.Var}
    (h : ∀ n ∈ vs.map Ir.Var.name, env'.lookup n = f (env.lookup n)) :
    AllAlike (RenamedBy f) (RenamedBy f) (resolveAll env vs) (resolveAll env' vs) :=
  .map fun _ hv => .ref (h _ (List.mem_map_of_mem hv))

theorem resolveAll_rename {vs : List Ir.Var}
    (h : ∀ n ∈ vs.map Ir.Var.name, env'.lookup n = f (env.lookup n)) :
    resolveAll env' vs = exprsRename f (resolveAll env vs) :=
  (resolveAll_alike h).eq_rename

theorem literal_rename {c : Ir.Const} {literal : Script.Expr} (h : lowerConst c = .ok literal) :
    literal = literal.rename f :=
  (alike_literal h).eq_rename

/-- A script with other names. -/
abbrev renamed (f : ScopedName → ScopedName) (result : Except LowerError Block) :
    Except LowerError Block := result.map (List.map (Script.Stmt.rename f))

/-- What is passed on is renamed with what comes of it. -/
theorem value_rename (hret : ∀ x, ret' (x.rename f) = (ret x).rename f) (x : Script.Expr) :
    (.ok [ret' (x.rename f)] : Except LowerError Block) = renamed f (.ok [ret x]) := by
  rw [hret]
  rfl

theorem op_rename (hf : KeepsLocals f) (hret : ∀ x, ret' (x.rename f) = (ret x).rename f)
    (op : Ir.PrimOp) {args : List Ir.Var}
    (h : ∀ n ∈ args.map Ir.Var.name, env'.lookup n = f (env.lookup n)) :
    lower env' ret' (.op op args) = renamed f (lower env ret (.op op args)) := by
  have hsame := lowerPrimitive_alike (Q := RenamedBy f) (fun s => (hf.builtin s).symm) op
    (resolveAll_alike h)
  rw [lower, lower]
  revert hsame
  generalize lowerPrimitive op (resolveAll env args) = x
  generalize lowerPrimitive op (resolveAll env' args) = y
  intro hsame
  cases hsame with
  | ok hlike =>
    rw [hlike.eq_rename]
    exact value_rename hret _
  | error e => rfl

theorem foreign_rename (hf : KeepsLocals f) (hret : ∀ x, ret' (x.rename f) = (ret x).rename f)
    (function : Ir.Descriptor) {args : List Ir.ForeignArg} (result : Option Ir.Descriptor)
    (h : ∀ n ∈ args.map fun a => a.var.name, env'.lookup n = f (env.lookup n)) :
    lower env' ret' (.foreign function args result) =
      renamed f (lower env ret (.foreign function args result)) := by
  have hargs : RefPairs (RenamedBy f) (args.map fun a => resolve env a.var)
      (args.map fun a => resolve env' a.var) := by
    rw [RefPairs, List.forall₂_map_left_iff, List.forall₂_map_right_iff, List.forall₂_same]
    intro a ha
    exact ⟨_, _, h _ (List.mem_map_of_mem ha), rfl, rfl⟩
  rw [lower, lower]
  cases lowerForeign_pair (Q := RenamedBy f) (fun s => (hf.builtin s).symm) function hargs with
  | value hlike hx hy =>
    rw [hx, hy, hlike.eq_rename]
    exact value_rename hret _
  | echo hlike hx hy =>
    rw [hx, hy, hlike.eq_rename]
    rfl
  | setItem hindex hvalue hlist hx hy =>
    rw [hx, hy, hindex.eq_rename, hvalue.eq_rename, hlist]
    rfl
  | failure e hx hy =>
    rw [hx, hy]
    rfl

end

mutual

/-- **Lowering with renamed names gives the renamed script**, or fails in the same way. -/
theorem lower_rename {f : ScopedName → ScopedName} (hf : KeepsLocals f) :
    ∀ (e : Ir.Expr) {env env' : Env} {ret ret' : Continuation},
    (∀ n ∈ e.references, env'.lookup n = f (env.lookup n)) →
    (∀ x, ret' (x.rename f) = (ret x).rename f) →
      lower env' ret' e = renamed f (lower env ret e)
  | .var (.loc i), env, env', ret, ret', henv, hret => by
    rw [lower, lower, resolve_rename (henv _ List.mem_cons_self)]
    exact value_rename hret _
  | .var (.glob n), env, env', ret, ret', henv, hret => by
    rw [lower, lower, resolve_rename (henv _ List.mem_cons_self)]
    exact value_rename hret (.apply (resolve env (.glob n)) [])
  | .app function args _, env, env', ret, ret', henv, hret => by
    have hargs := resolveAll_rename fun n hn => henv n (List.mem_cons_of_mem _ hn)
    rw [lower, lower, henv _ List.mem_cons_self, hargs]
    exact value_rename hret (.apply (.ref (env.lookup function)) (resolveAll env args))
  | .bind (.glob n) value body, env, env', ret, ret', henv, hret => rfl
  | .bind (.loc i) value body, env, env', ret, ret', henv, hret => by
    obtain ⟨hvalue, hbody⟩ := List.forall_mem_append.1 henv
    have hbind : ∀ x : Script.Expr,
        bindTo (localName i) (x.rename f) = (bindTo (localName i) x).rename f := by
      intro x
      rw [bindTo, Script.Stmt.rename, hf.slot]
    have hfirst : lower env' (bindTo (localName i)) value =
        renamed f (lower env (bindTo (localName i)) value) := lower_rename hf value hvalue hbind
    have hsecond : lower (env'.extend (.slot i) (localName i)) ret' body =
        renamed f (lower (env.extend (.slot i) (localName i)) ret body) :=
      lower_rename hf body (fun n hn => lookup_enter_rename hf (hbody n hn) [i]) hret
    rw [lower, lower, hfirst, hsecond]
    cases lower env (bindTo (localName i)) value with
    | error e => rfl
    | ok first =>
      cases lower (env.extend (.slot i) (localName i)) ret body with
      | error e => rfl
      | ok second => exact congrArg Except.ok List.map_append.symm
  | .update _ value, env, env', ret, ret', henv, hret => by
    rw [lower, lower]
    exact lower_rename hf value henv hret
  | .con tag _ args _, env, env', ret, ret', henv, hret => by
    rw [lower, lower, resolveAll_rename henv]
    exact value_rename hret (.list (.int tag :: resolveAll env args))
  | .case v alts _ _, env, env', ret, ret', henv, hret => by
    obtain ⟨hv, halts⟩ := List.forall_mem_cons.1 henv
    rw [lower, lower, resolve_rename hv, lowerAlts_rename hf alts (resolve env v) halts hret]
    cases lowerAlts (resolve env v) env ret alts with
    | error e => rfl
    | ok branches => exact congrArg Except.ok (joinBranches_rename branches)
  | .proj v index, env, env', ret, ret', henv, hret => by
    rw [lower, lower, resolve_rename (henv _ List.mem_cons_self)]
    exact value_rename hret (field (resolve env v) index)
  | .const c, env, env', ret, ret', henv, hret => by
    rw [lower, lower]
    cases hliteral : lowerConst c with
    | error e => rfl
    | ok literal =>
      have hpassed := value_rename hret literal
      rw [← literal_rename hliteral] at hpassed
      exact hpassed
  | .foreign function args result, env, env', ret, ret', henv, hret =>
    foreign_rename hf hret function result henv
  | .op op args, env, env', ret, ret', henv, hret => op_rename hf hret op henv
  | .nothing, env, env', ret, ret', henv, hret => by
    rw [lower, lower]
    exact value_rename hret (.int 0)
  | .error message, env, env', ret, ret', henv, hret => by
    rw [lower, lower]
    rfl

theorem lowerAlt_rename {f : ScopedName → ScopedName} (hf : KeepsLocals f) :
    ∀ (alt : Ir.Alt) (scrutinee : Script.Expr) {env env' : Env} {ret ret' : Continuation},
    (∀ n ∈ alt.references, env'.lookup n = f (env.lookup n)) →
    (∀ x, ret' (x.rename f) = (ret x).rename f) →
      lowerAlt (scrutinee.rename f) env' ret' alt =
        (lowerAlt scrutinee env ret alt).map (Branch.rename f)
  | .const c body, scrutinee, env, env', ret, ret', henv, hret => by
    rw [lowerAlt, lowerAlt, lower_rename hf body henv hret]
    cases hliteral : lowerConst c with
    | error e => rfl
    | ok literal =>
      cases lower env ret body with
      | error e => rfl
      | ok block =>
        have htested := tested_rename (f := f) (.binary .equals scrutinee literal) block
        rw [Script.Expr.rename, ← literal_rename hliteral] at htested
        exact congrArg Except.ok htested.symm
  | .con first tag _ fields body, scrutinee, env, env', ret, ret', henv, hret => by
    rw [lowerAlt, lowerAlt]
    cases hslots : fieldSlots first fields.length with
    | error e => rfl
    | ok slots =>
      have hbody : lower (env'.extendAll slots) ret' body =
          renamed f (lower (env.extendAll slots) ret body) := by
        rw [fieldSlots_eq hslots]
        exact lower_rename hf body (fun n hn => lookup_enter_rename hf (henv n hn) _) hret
      have hload : loadFields (scrutinee.rename f) slots =
          (loadFields scrutinee slots).map (Script.Stmt.rename f) := by
        rw [fieldSlots_eq hslots, loadFields_eq, loadFields_eq, loads_rename hf]
      show (lower (env'.extendAll slots) ret' body >>= _) =
        (lower (env.extendAll slots) ret body >>= _).map (Branch.rename f)
      rw [hbody]
      cases lower (env.extendAll slots) ret body with
      | error e => rfl
      | ok block =>
        have htested := tested_rename (f := f)
          (.binary .equals (field scrutinee 0) (.int tag)) (loadFields scrutinee slots ++ block)
        rw [List.map_append, ← hload] at htested
        exact congrArg Except.ok htested.symm
  | .default body, scrutinee, env, env', ret, ret', henv, hret => by
    rw [lowerAlt, lowerAlt, lower_rename hf body henv hret]
    cases lower env ret body with
    | error e => rfl
    | ok block => rfl

theorem lowerAlts_rename {f : ScopedName → ScopedName} (hf : KeepsLocals f) :
    ∀ (alts : List Ir.Alt) (scrutinee : Script.Expr) {env env' : Env} {ret ret' : Continuation},
    (∀ n ∈ Ir.altsReferences alts, env'.lookup n = f (env.lookup n)) →
    (∀ x, ret' (x.rename f) = (ret x).rename f) →
      lowerAlts (scrutinee.rename f) env' ret' alts =
        (lowerAlts scrutinee env ret alts).map (List.map (Branch.rename f))
  | [], scrutinee, env, env', ret, ret', henv, hret => rfl
  | alt :: rest, scrutinee, env, env', ret, ret', henv, hret => by
    obtain ⟨hfirst, hrest⟩ := List.forall_mem_append.1 henv
    rw [lowerAlts, lowerAlts, lowerAlt_rename hf alt scrutinee hfirst hret,
      lowerAlts_rename hf rest scrutinee hrest hret]
    cases lowerAlt scrutinee env ret alt with
    | error e => rfl
    | ok branch =>
      cases lowerAlts scrutinee env ret rest with
      | error e => rfl
      | ok branches => rfl

end

theorem renamed_id (result : Except LowerError Block) : renamed id result = result := by
  cases result with
  | error e => rfl
  | ok block => rw [renamed, Except.map, ← Script.blockRename_eq_map, Script.blockRename_id]

/-- **Lowering depends on an environment only through what it looks up.** -/
theorem lower_congr {env env' : Env} {ret : Continuation} {e : Ir.Expr}
    (h : ∀ n ∈ e.references, env'.lookup n = env.lookup n) :
    lower env' ret e = lower env ret e := by
  have hret : ∀ x : Script.Expr, ret (x.rename id) = (ret x).rename id := by
    intro x
    rw [x.rename_id, Script.Stmt.rename_id]
  rw [lower_rename ⟨fun _ => rfl, fun _ => rfl⟩ e h hret, renamed_id]

end Vimgen.Lower
