import Vimgen.Proofs.Parts

/-!
# Continuations

Lowering hands the value of an expression to a continuation. `Stmt.deliver f` puts `f v` in the
place of every `return v`, in the branches of conditions too, and leaves everything else as it is.
Lowering commutes with that, `lower_deliver`: bindings inside an expression have continuations of
their own, which return nothing.

So all there is to know about a continuation is in the script of the tail position,
`lower_eq_deliver`: lowering fails or succeeds alike under all continuations, and where the tail
position has `return v`, another one does what it does with `v`.
-/

namespace Vimgen.Script

mutual

/-- The statement with `f v` in the place of every `return v`. -/
def Stmt.deliver (f : Expr → Stmt) : Stmt → Stmt
  | .ret value => f value
  | .cond arms default => .cond (armsDeliver f arms) (defaultDeliver f default)
  | s => s

def blockDeliver (f : Expr → Stmt) : List Stmt → List Stmt
  | [] => []
  | s :: rest => s.deliver f :: blockDeliver f rest

def Arm.deliver (f : Expr → Stmt) : Arm → Arm
  | .mk test body => .mk test (blockDeliver f body)

def armsDeliver (f : Expr → Stmt) : List Arm → List Arm
  | [] => []
  | arm :: rest => arm.deliver f :: armsDeliver f rest

def defaultDeliver (f : Expr → Stmt) : Option (List Stmt) → Option (List Stmt)
  | none => none
  | some default => some (blockDeliver f default)

end

mutual

/-- The values that a statement returns, in order. -/
def Stmt.returns : Stmt → List Expr
  | .ret value => [value]
  | .cond arms default => armsReturns arms ++ defaultReturns default
  | _ => []

def blockReturns : List Stmt → List Expr
  | [] => []
  | s :: rest => s.returns ++ blockReturns rest

def Arm.returns : Arm → List Expr
  | .mk _ body => blockReturns body

def armsReturns : List Arm → List Expr
  | [] => []
  | arm :: rest => arm.returns ++ armsReturns rest

def defaultReturns : Option (List Stmt) → List Expr
  | none => []
  | some default => blockReturns default

end

theorem blockDeliver_eq_map (f : Expr → Stmt) (b : Block) :
    blockDeliver f b = b.map (Stmt.deliver f) := by
  induction b with
  | nil => rfl
  | cons s b ih => rw [blockDeliver, ih, List.map_cons]

theorem armsDeliver_eq_map (f : Expr → Stmt) (arms : List Arm) :
    armsDeliver f arms = arms.map (Arm.deliver f) := by
  induction arms with
  | nil => rfl
  | cons arm arms ih => rw [armsDeliver, ih, List.map_cons]

theorem defaultDeliver_eq_map (f : Expr → Stmt) (default : Option (List Stmt)) :
    defaultDeliver f default = default.map (List.map (Stmt.deliver f)) := by
  cases default with
  | none => rfl
  | some default => rw [defaultDeliver, blockDeliver_eq_map]; rfl

mutual

/-- **What is returned after a delivery**: what comes of each value that was returned before. -/
theorem Stmt.returns_deliver (f : Expr → Stmt) : ∀ s : Stmt,
    (s.deliver f).returns = s.returns.flatMap fun v => (f v).returns
  | .ret value => by simp [Stmt.deliver, Stmt.returns]
  | .cond arms none => by
    simp only [Stmt.deliver, Stmt.returns, defaultDeliver, defaultReturns, List.append_nil,
      armsReturns_deliver f arms]
  | .cond arms (some default) => by
    simp only [Stmt.deliver, Stmt.returns, defaultDeliver, defaultReturns, List.flatMap_append,
      armsReturns_deliver f arms, blockReturns_deliver f default]
  | .bind _ _ | .assign _ _ | .call _ _ | .command _ _ | .function _ _ _ | .stray _ => rfl

theorem blockReturns_deliver (f : Expr → Stmt) : ∀ b : List Stmt,
    blockReturns (blockDeliver f b) = (blockReturns b).flatMap fun v => (f v).returns
  | [] => rfl
  | s :: rest => by
    rw [blockDeliver, blockReturns, blockReturns, s.returns_deliver f, blockReturns_deliver f rest,
      List.flatMap_append]

theorem Arm.returns_deliver (f : Expr → Stmt) : ∀ arm : Arm,
    (arm.deliver f).returns = arm.returns.flatMap fun v => (f v).returns
  | .mk _ body => by rw [Arm.deliver, Arm.returns, Arm.returns, blockReturns_deliver f body]

theorem armsReturns_deliver (f : Expr → Stmt) : ∀ arms : List Arm,
    armsReturns (armsDeliver f arms) = (armsReturns arms).flatMap fun v => (f v).returns
  | [] => rfl
  | arm :: rest => by
    rw [armsDeliver, armsReturns, armsReturns, arm.returns_deliver f, armsReturns_deliver f rest,
      List.flatMap_append]

end

end Vimgen.Script

namespace Vimgen.Lower

open Script (Arm Block Stmt blockReturns)

/-! ## Lowering commutes with delivery -/

/-- The branch with other statements for what it returns. -/
def Branch.deliver (f : Continuation) : Branch → Branch
  | .tested arm => .tested (arm.deliver f)
  | .fallback body => .fallback (body.map (Stmt.deliver f))

theorem joinBranches_deliver (f : Continuation) (branches : List Branch) :
    joinBranches (branches.map (Branch.deliver f)) =
      (joinBranches branches).map (Stmt.deliver f) := by
  refine joinBranches_map (g := Arm.deliver f) (fun arms default => ?_) (fun b => ?_) (fun b => ?_)
    branches
  · rw [Stmt.deliver, Script.armsDeliver_eq_map, Script.defaultDeliver_eq_map]
  · cases b <;> rfl
  · cases b <;> rfl

/-- Loading fields returns nothing. -/
theorem loads_deliver (f : Continuation) (scrutinee : Script.Expr) (is : List Int) (k : Int) :
    (loads scrutinee k is).map (Stmt.deliver f) = loads scrutinee k is := by
  induction is generalizing k with
  | nil => rfl
  | cons i is ih => rw [loads, List.map_cons, ih]; rfl

theorem lower_deliver_leaf {e : Ir.Expr} (hleaf : isLeaf e = true) (env : Env)
    (ret f : Continuation) :
    lower env (fun v => (ret v).deliver f) e =
      (lower env ret e).map (List.map (Stmt.deliver f)) := by
  cases leafCode env hleaf with
  | value x _ hlower _ => rw [hlower, hlower]; rfl
  | echo x _ hlower _ => rw [hlower, hlower]; rfl
  | setItem list index x _ hlower _ => rw [hlower, hlower]; rfl
  | throw message _ hlower => rw [hlower, hlower]; rfl
  | refused error hlower => rw [hlower, hlower]; rfl

/-- An alternative, if its body does so in every environment. -/
theorem lowerAlt_deliver {alt : Ir.Alt} {ret f : Continuation}
    (hbody : ∀ env, lower env (fun v => (ret v).deliver f) alt.body =
      (lower env ret alt.body).map (List.map (Stmt.deliver f))) (scrutinee : Script.Expr)
    (env : Env) :
    lowerAlt scrutinee env (fun v => (ret v).deliver f) alt =
      (lowerAlt scrutinee env ret alt).map (Branch.deliver f) := by
  cases altCode scrutinee env alt with
  | tested test is _ hlower _ =>
    rw [hlower, hlower, hbody]
    cases lower (enter env is) ret alt.body with
    | error e => rfl
    | ok body =>
      have hload := loads_deliver f scrutinee is 1
      simp only [Except.map, Branch.deliver, Arm.deliver, Script.blockDeliver_eq_map,
        List.map_append, hload]
  | fallback _ hlower =>
    rw [hlower, hlower, hbody]
    cases lower env ret alt.body with
    | error e => rfl
    | ok body => rfl
  | refused error hlower => rw [hlower, hlower]; rfl

/-- **Lowering commutes with delivery.** -/
theorem lower_deliver (f : Continuation) (e : Ir.Expr) : ∀ (env : Env) (ret : Continuation),
    lower env (fun v => (ret v).deliver f) e =
      (lower env ret e).map (List.map (Stmt.deliver f)) := by
  induction e using Ir.Expr.byParts with
  | leaf e hleaf => intro env ret; exact lower_deliver_leaf hleaf env ret f
  | bind v value body hvalue hbody =>
    intro env ret
    cases v with
    | glob n => rfl
    | loc i =>
      -- the value has a continuation of its own, which a delivery leaves as it is
      have hfirst : lower env (bindTo (localName i)) value =
          (lower env (bindTo (localName i)) value).map (List.map (Stmt.deliver f)) :=
        hvalue env (bindTo (localName i))
      rw [lower, lower, hbody]
      generalize lower env (bindTo (localName i)) value = first at hfirst
      cases first with
      | error e => rfl
      | ok first =>
        injection hfirst with hfirst
        cases lower (env.extend (.slot i) (localName i)) ret body with
        | error e => rfl
        | ok second => exact congrArg Except.ok (by rw [List.map_append, ← hfirst])
  | update v value hvalue => intro env ret; exact hvalue env ret
  | case v alts checked shared halts =>
    intro env ret
    have hbranches := mapM_eq_map fun alt hmem =>
      lowerAlt_deliver (fun env => halts alt hmem env ret) (resolve env v) env
    rw [lower, lower, lowerAlts_eq_mapM, lowerAlts_eq_mapM, hbranches]
    cases alts.mapM (lowerAlt (resolve env v) env ret) with
    | error e => rfl
    | ok branches => exact congrArg Except.ok (joinBranches_deliver f branches)

theorem lower_eq_deliver (env : Env) (ret : Continuation) (e : Ir.Expr) :
    lower env ret e = (lower env returnValue e).map (Script.blockDeliver ret) := by
  -- to deliver `return v` is to do what the continuation does with `v`
  have hdeliver := lower_deliver ret e env returnValue
  rw [show Script.blockDeliver ret = List.map (Stmt.deliver ret) from
    funext (Script.blockDeliver_eq_map ret), ← hdeliver]
  rfl

/-- **A bound value returns nothing.** -/
theorem blockReturns_of_bindTo {env : Env} {name : Script.ScopedName} {e : Ir.Expr} {block : Block}
    (h : lower env (bindTo name) e = .ok block) : blockReturns block = [] := by
  rw [lower_eq_deliver] at h
  cases htail : lower env returnValue e with
  | error e => rw [htail] at h; cases h
  | ok tail =>
    rw [htail] at h
    cases h
    rw [Script.blockReturns_deliver]
    exact List.flatMap_eq_nil_iff.2 fun v _ => rfl

/-- **Lowering is parametric in its continuation.** It fails as it does in tail position, and where
it succeeds the statements are those of the tail position with the continuation in the place of
every return; so all they return comes from the continuation, and a bound value returns nothing. -/
theorem lower_parametric (env : Env) (ret : Continuation) (e : Ir.Expr) :
    (∀ error, lower env ret e = .error error ↔ lower env returnValue e = .error error) ∧
    (∀ block, lower env ret e = .ok block ↔
      ∃ tail, lower env returnValue e = .ok tail ∧ block = Script.blockDeliver ret tail) ∧
    (∀ block tail, lower env ret e = .ok block → lower env returnValue e = .ok tail →
      blockReturns block = (blockReturns tail).flatMap fun v => (ret v).returns) ∧
    ∀ i body block, lower env ret (.bind (.loc i) e body) = .ok block →
      ∃ first second, block = first ++ second ∧
        lower env (bindTo (localName i)) e = .ok first ∧ blockReturns first = [] := by
  have hdeliver := lower_eq_deliver env ret e
  refine ⟨fun error => ?_, fun block => ?_, fun block tail hblock htail => ?_, ?_⟩
  · rw [hdeliver]
    cases lower env returnValue e with
    | error e => exact Iff.rfl
    | ok tail => exact ⟨fun h => (by cases h), fun h => (by cases h)⟩
  · rw [hdeliver]
    cases lower env returnValue e with
    | error e => exact ⟨fun h => (by cases h), fun ⟨_, h, _⟩ => (by cases h)⟩
    | ok tail =>
      constructor
      · intro h; cases h; exact ⟨tail, rfl, rfl⟩
      · rintro ⟨_, h, rfl⟩; cases h; rfl
  · rw [hdeliver, htail] at hblock
    cases hblock
    exact Script.blockReturns_deliver ret tail
  · intro i body block h
    obtain ⟨first, second, hfirst, -, rfl⟩ := lower_bind_ok.1 h
    exact ⟨first, second, rfl, hfirst, blockReturns_of_bindTo hfirst⟩

end Vimgen.Lower
