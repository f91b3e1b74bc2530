import Vimgen.Proofs.Continuations
import Vimgen.Proofs.Numeral
import Vimgen.Proofs.Preservation

/-!
# Tail position and the value of a binding

An expression in tail position ends with returns, which leave the function; as the value of a
binding it has bindings in their place, after which its block goes on. The two do the same where
nothing stands behind a return, `ReturnsLast`. Lowering puts the defaults of a choice in a row, so
that depends on them: `Expr.yieldsLast` says that in no choice a default comes after one that may
have a value.

`letAgrees_of_yieldsLast`: then `let x = e in x` returns whatever `e` returns. Two defaults with
values show that the condition is needed, `not_letAgrees_defaults`. The slot of `x` has a number
that can be spelled; those in `e` outside of loaded fields are taken to have one, as lowering does.
-/

namespace Vimgen.Ir

/-! ## Expressions that end with their value -/

mutual

/-- Whether an expression may have a value for its continuation. -/
def Expr.yields : Expr → Bool
  | .bind _ _ body => body.yields
  | .update _ value => value.yields
  | .case _ alts _ _ => altsYield alts
  | e => e.leafKind = .value

def Alt.yields : Alt → Bool
  | .const _ body | .con _ _ _ _ body | .default body => body.yields

def altsYield : List Alt → Bool
  | [] => false
  | alt :: rest => alt.yields || altsYield rest

end

mutual

/-- Whether nothing is left to do once an expression has its value: in all choices of tail position,
a default that may have a value is the last default. -/
def Expr.yieldsLast : Expr → Bool
  | .bind _ _ body => body.yieldsLast
  | .update _ value => value.yieldsLast
  | .case _ alts _ _ => altsYieldLast alts
  | _ => true

def Alt.yieldsLast : Alt → Bool
  | .const _ body | .con _ _ _ _ body | .default body => body.yieldsLast

def altsYieldLast : List Alt → Bool
  | [] => true
  | alt :: rest =>
    alt.yieldsLast && !(alt.isDefault && alt.yields && rest.any Alt.isDefault) && altsYieldLast rest

end

theorem Alt.yields_eq (alt : Alt) : alt.yields = alt.body.yields := by
  cases alt <;> rfl

theorem not_yields_of_mem {alts : List Alt} (h : altsYield alts = false) :
    ∀ alt ∈ alts, alt.body.yields = false := by
  refine forall_body (f := (·.yields = false)) (g := (altsYield · = false)) (fun alt rest h => ?_) h
  rw [← alt.yields_eq]
  exact Bool.or_eq_false_iff.1 h

theorem yieldsLast_of_mem {alts : List Alt} (h : altsYieldLast alts = true) :
    ∀ alt ∈ alts, alt.body.yieldsLast = true := by
  refine forall_body (f := (·.yieldsLast = true)) (g := (altsYieldLast · = true))
    (fun alt rest h => ?_) h
  obtain ⟨hhead, hrest⟩ := Bool.and_eq_true_iff.1 h
  have hbody : alt.yieldsLast = alt.body.yieldsLast := by cases alt <;> rfl
  exact ⟨hbody ▸ (Bool.and_eq_true_iff.1 hhead).1, hrest⟩

end Vimgen.Ir

namespace Vimgen.Script

/-! ## Blocks that end with their returns -/

/-- **Nothing stands behind a return**, in the block or in a branch of it. -/
inductive ReturnsLast : Block → Prop
  | quiet {b : Block} (h : blockReturns b = []) : ReturnsLast b
  | ret (value : Expr) : ReturnsLast [.ret value]
  | cond {arms : List Arm} {default : Option Block}
    (harms : ∀ test body, Arm.mk test body ∈ arms → ReturnsLast body)
    (hdefault : ∀ body, default = some body → ReturnsLast body) : ReturnsLast [.cond arms default]
  | after {a b : Block} (ha : blockReturns a = []) (hb : ReturnsLast b) : ReturnsLast (a ++ b)

theorem blockReturns_append (a b : Block) :
    blockReturns (a ++ b) = blockReturns a ++ blockReturns b := by
  induction a with
  | nil => rfl
  | cons s a ih => rw [List.cons_append, blockReturns, blockReturns, ih, List.append_assoc]

theorem blockReturns_flatten {bs : List Block} (h : ∀ b ∈ bs, blockReturns b = []) :
    blockReturns bs.flatten = [] := by
  induction bs with
  | nil => rfl
  | cons b bs ih =>
    obtain ⟨hb, hbs⟩ := List.forall_mem_cons.1 h
    rw [List.flatten_cons, blockReturns_append, hb, ih hbs]
    rfl

theorem armsReturns_eq_nil {arms : List Arm}
    (h : ∀ test body, Arm.mk test body ∈ arms → blockReturns body = []) :
    armsReturns arms = [] := by
  induction arms with
  | nil => rfl
  | cons arm arms ih =>
    cases arm with
    | mk test body =>
      have hbody := h test body List.mem_cons_self
      have harms := ih fun test body hmem => h test body (List.mem_cons_of_mem _ hmem)
      rw [armsReturns, Arm.returns, hbody, harms]
      rfl

mutual

/-- What returns nothing is delivered as it is. -/
theorem Stmt.deliver_of_returns (f : Expr → Stmt) : ∀ {s : Stmt}, s.returns = [] → s.deliver f = s
  | .ret _, h => by cases h
  | .cond arms none, h => by
    have harms : armsReturns arms = [] := (List.append_eq_nil_iff.1 h).1
    rw [Stmt.deliver, armsDeliver_of_returns f harms, defaultDeliver]
  | .cond arms (some default), h => by
    obtain ⟨harms, hdefault⟩ := List.append_eq_nil_iff.1 h
    rw [Stmt.deliver, armsDeliver_of_returns f harms, defaultDeliver,
      blockDeliver_of_returns f hdefault]
  | .bind _ _, _ | .assign _ _, _ | .call _ _, _ | .command _ _, _ | .function _ _ _, _
  | .stray _, _ => rfl

theorem blockDeliver_of_returns (f : Expr → Stmt) :
    ∀ {b : List Stmt}, blockReturns b = [] → blockDeliver f b = b
  | [], _ => rfl
  | s :: rest, h => by
    obtain ⟨hs, hrest⟩ := List.append_eq_nil_iff.1 h
    rw [blockDeliver, Stmt.deliver_of_returns f hs, blockDeliver_of_returns f hrest]

theorem armsDeliver_of_returns (f : Expr → Stmt) :
    ∀ {arms : List Arm}, armsReturns arms = [] → armsDeliver f arms = arms
  | [], _ => rfl
  | .mk test body :: rest, h => by
    obtain ⟨hbody, hrest⟩ := List.append_eq_nil_iff.1 h
    rw [armsDeliver, Arm.deliver, blockDeliver_of_returns f hbody, armsDeliver_of_returns f hrest]

end

end Vimgen.Script

namespace Vimgen.Lower

open Script (Arm Block ReturnsLast blockReturns)

variable {env : Env}

/-! ## Where lowering returns -/

theorem returns_loads (scrutinee : Script.Expr) (is : List Int) (k : Int) :
    blockReturns (loads scrutinee k is) = [] := by
  induction is generalizing k with
  | nil => rfl
  | cons i is ih => rw [loads, blockReturns, ih]; rfl

theorem yields_of_isLeaf {e : Ir.Expr} (h : isLeaf e = true) :
    e.yields = decide (e.leafKind = .value) := by
  cases e with
  | bind v value body => cases h
  | update v value => cases h
  | case v alts checked shared => cases h
  | _ => rfl

/-- **What yields nothing returns nothing.** -/
theorem returns_of_not_yields (e : Ir.Expr) : ∀ (env : Env) (block : Block), e.yields = false →
    lower env returnValue e = .ok block → blockReturns block = [] := by
  induction e using Ir.Expr.byParts with
  | leaf e hleaf =>
    intro env block hyields hlow
    rw [yields_of_isLeaf hleaf] at hyields
    cases leafCode env hleaf with
    | value x hkind _ _ => rw [hkind] at hyields; cases hyields
    | echo x _ hlower _ => rw [hlower] at hlow; cases hlow; rfl
    | setItem list index x _ hlower _ => rw [hlower] at hlow; cases hlow; rfl
    | throw message _ hlower => rw [hlower] at hlow; cases hlow; rfl
    | refused error hlower => rw [hlower] at hlow; cases hlow
  | bind v value body _ hbody =>
    intro env block hyields hlow
    cases v with
    | glob n => cases hlow
    | loc i =>
      obtain ⟨first, second, hfirst, hsecond, rfl⟩ := lower_bind_ok.1 hlow
      rw [Script.blockReturns_append, blockReturns_of_bindTo hfirst, hbody _ _ hyields hsecond]
      rfl
  | update v value hvalue =>
    intro env block hyields hlow
    exact hvalue env block hyields hlow
  | case v alts checked shared halts =>
    intro env block hyields hlow
    obtain ⟨branches, hbranches, rfl⟩ := lower_case_eq_ok hlow
    have hbody := fun alt halt env block =>
      halts alt halt env block (Ir.not_yields_of_mem hyields alt halt)
    have harms : Script.armsReturns (branches.filterMap Branch.arm?) = [] := by
      refine Script.armsReturns_eq_nil fun test body hmem => ?_
      obtain ⟨alt, halt, is, block, -, hblock, rfl⟩ := exists_of_mem_arms hbranches hmem
      rw [Script.blockReturns_append, returns_loads, hbody alt halt _ block hblock]
      rfl
    have hdefaults : blockReturns (branches.filterMap Branch.fallback?).flatten = [] := by
      refine Script.blockReturns_flatten fun body hmem => ?_
      obtain ⟨alt, halt, -, hlower⟩ := exists_of_mem_fallbacks hbranches hmem
      exact hbody alt halt _ body hlower
    refine joinBranches_cases (motive := fun b => blockReturns b = []) branches
      (fun _ => hdefaults) (fun _ _ => ?_) (fun _ _ => ?_)
    · simp only [blockReturns, Script.Stmt.returns, Script.defaultReturns, harms, List.append_nil]
    · simp only [blockReturns, Script.Stmt.returns, Script.defaultReturns, harms, hdefaults,
        List.append_nil]

/-- Alternatives without a default have no default branch. -/
theorem fallbacks_eq_nil {scrutinee : Script.Expr} {alts : List Ir.Alt} {branches : List Branch}
    (h : List.Forall₂ (fun alt b => lowerAlt scrutinee env returnValue alt = .ok b) alts branches)
    (hno : alts.any Ir.Alt.isDefault = false) : branches.filterMap Branch.fallback? = [] := by
  rw [List.eq_nil_iff_forall_not_mem]
  intro body hmem
  obtain ⟨alt, halt, hdefault, -⟩ := exists_of_mem_fallbacks h hmem
  exact List.any_eq_false.1 hno alt halt hdefault

/-- The defaults in a row: a return in one of them has nothing behind it. -/
theorem returnsLast_defaults {scrutinee : Script.Expr} {alts : List Ir.Alt}
    {branches : List Branch}
    (h : List.Forall₂ (fun alt b => lowerAlt scrutinee env returnValue alt = .ok b) alts branches)
    (hlast : Ir.altsYieldLast alts = true)
    (hbody : ∀ alt ∈ alts, ∀ env block, lower env returnValue alt.body = .ok block →
      ReturnsLast block) :
    ReturnsLast (branches.filterMap Branch.fallback?).flatten := by
  induction h with
  | nil => exact .quiet rfl
  | @cons alt branch alts branches hbranch hrest ih =>
    obtain ⟨hhead, hlast⟩ := Bool.and_eq_true_iff.1 hlast
    obtain ⟨halt, hbody⟩ := List.forall_mem_cons.1 hbody
    have hdefaults := ih hlast hbody
    rcases lowerAlt_eq_ok hbranch with
      ⟨test, is, body, -, -, -, rfl⟩ | ⟨body, hdefault, hlower, rfl⟩
    · exact hdefaults
    · show ReturnsLast (body ++ (branches.filterMap Branch.fallback?).flatten)
      by_cases hyields : alt.body.yields = true
      · -- it may return, so it is the last default
        have hno : alts.any Ir.Alt.isDefault = false := by
          simpa [hdefault, Ir.Alt.yields_eq, hyields] using (Bool.and_eq_true_iff.1 hhead).2
        rw [fallbacks_eq_nil hrest hno, List.flatten_nil, List.append_nil]
        exact halt env body hlower
      · have hquiet := returns_of_not_yields _ env body (Bool.eq_false_iff.2 hyields) hlower
        exact .after hquiet hdefaults

/-- **An expression that ends with its value returns last.** -/
theorem returnsLast_of_yieldsLast (e : Ir.Expr) : ∀ (env : Env) (block : Block),
    e.yieldsLast = true → lower env returnValue e = .ok block → ReturnsLast block := by
  induction e using Ir.Expr.byParts with
  | leaf e hleaf =>
    intro env block _ hlow
    cases leafCode env hleaf with
    | value x _ hlower _ => rw [hlower] at hlow; cases hlow; exact .ret x
    | echo x _ hlower _ => rw [hlower] at hlow; cases hlow; exact .quiet rfl
    | setItem list index x _ hlower _ => rw [hlower] at hlow; cases hlow; exact .quiet rfl
    | throw message _ hlower => rw [hlower] at hlow; cases hlow; exact .quiet rfl
    | refused error hlower => rw [hlower] at hlow; cases hlow
  | bind v value body _ hbody =>
    intro env block hlast hlow
    cases v with
    | glob n => cases hlow
    | loc i =>
      obtain ⟨first, second, hfirst, hsecond, rfl⟩ := lower_bind_ok.1 hlow
      exact .after (blockReturns_of_bindTo hfirst) (hbody _ _ hlast hsecond)
  | update v value hvalue =>
    intro env block hlast hlow
    exact hvalue env block hlast hlow
  | case v alts checked shared halts =>
    intro env block hlast hlow
    obtain ⟨branches, hbranches, rfl⟩ := lower_case_eq_ok hlow
    have hbody : ∀ alt ∈ alts, ∀ env block, lower env returnValue alt.body = .ok block →
        ReturnsLast block := fun alt halt env block =>
      halts alt halt env block (Ir.yieldsLast_of_mem hlast alt halt)
    have harms : ∀ test body, Arm.mk test body ∈ branches.filterMap Branch.arm? →
        ReturnsLast body := by
      intro test body hmem
      obtain ⟨alt, halt, is, block, -, hblock, rfl⟩ := exists_of_mem_arms hbranches hmem
      exact .after (returns_loads _ is 1) (hbody alt halt _ block hblock)
    have hdefaults := returnsLast_defaults hbranches hlast hbody
    refine joinBranches_cases branches (fun _ => hdefaults) (fun _ _ => ?_) (fun _ _ => ?_)
    · exact .cond harms fun body h => (by cases h)
    · exact .cond harms fun body h => (by cases h; exact hdefaults)

end Vimgen.Lower

namespace Vimgen.Meaning

open Lower (bindTo localName lower lower_eq_deliver returnValue)
open Script (Arm Block ReturnsLast ScopedName armsDeliver blockDeliver)

variable {V W : Type} (I : Leaves V W) {args : Store V} {base : String}

/-! ## Returning and binding -/

/-- What `return` of a local variable makes of the end of the statements before it. -/
def returnLocal (base : String) : Flow V → Act W V (Flow V)
  | .next locals => do return .returned (← given (locals base))
  | .returned v => return .returned v

/-- Arms that are run alike before a return. -/
theorem runArms_deliver {locals : Store V} {arms : List Arm}
    {otherwise otherwise' : Act W V (Flow V)}
    (harms : ∀ test body, Arm.mk test body ∈ arms →
      (runBlock I args locals (blockDeliver (bindTo ⟨.local, base⟩) body) >>= returnLocal base) =
        (runBlock I args locals body >>= returnLocal base))
    (hother : (otherwise' >>= returnLocal base) = (otherwise >>= returnLocal base)) :
    (runArms I args locals otherwise' (armsDeliver (bindTo ⟨.local, base⟩) arms) >>=
        returnLocal base) =
      (runArms I args locals otherwise arms >>= returnLocal base) := by
  induction arms with
  | nil => exact hother
  | cons arm arms ih =>
    cases arm with
    | mk test body =>
      have hbody := harms test body List.mem_cons_self
      have hrest := ih fun test body hmem => harms test body (List.mem_cons_of_mem _ hmem)
      simp only [armsDeliver, Arm.deliver, runArms, bind_assoc]
      congr 1
      funext passed
      cases passed with
      | true => exact hbody
      | false => exact hrest

/-- **Binding a value and returning the variable is returning the value**, if nothing stands behind
the returns. -/
theorem run_deliver {b : Block} (h : ReturnsLast b) : ∀ locals,
    (runBlock I args locals (blockDeliver (bindTo ⟨.local, base⟩) b) >>= returnLocal base) =
      (runBlock I args locals b >>= returnLocal base) := by
  induction h with
  | quiet h => intro locals; rw [Script.blockDeliver_of_returns _ h]
  | ret x =>
    intro locals
    rw [blockDeliver, blockDeliver, runBlock_singleton, runBlock_singleton]
    simp only [Script.Stmt.deliver, bindTo, runStmt, bind_assoc, pure_bind, returnLocal,
      Store.set_self, given]
  | @cond arms default _ _ harms hdefault =>
    intro locals
    rw [blockDeliver, blockDeliver, runBlock_singleton, runBlock_singleton, Script.Stmt.deliver]
    -- nothing comes after the choice, so each branch may return on its own
    have hbodies := fun test body hmem => harms test body hmem locals
    cases default with
    | none => exact runArms_deliver I hbodies rfl
    | some default => exact runArms_deliver I hbodies (hdefault default rfl locals)
  | @after a b ha _ hb =>
    intro locals
    have hsplit : blockDeliver (bindTo ⟨.local, base⟩) (a ++ b) =
        a ++ blockDeliver (bindTo ⟨.local, base⟩) b := by
      rw [Script.blockDeliver_eq_map, List.map_append, ← Script.blockDeliver_eq_map,
        ← Script.blockDeliver_eq_map, Script.blockDeliver_of_returns _ ha]
    rw [hsplit, runBlock_append, runBlock_append, bind_assoc, bind_assoc]
    congr 1
    funext flow
    cases flow with
    | next locals' => exact hb locals'
    | returned v => rfl

/-- The script of `let x = e in x`. -/
theorem lower_let {env : Env} {e : Ir.Expr} {tail : Block} (h : lower env returnValue e = .ok tail)
    (i : Int) :
    lower env returnValue (.bind (.loc i) e (.var (.loc i))) =
      .ok (blockDeliver (bindTo (localName i)) tail ++ [.ret (.ref (localName i))]) := by
  refine Lower.lower_bind_ok.2 ⟨_, [.ret (.ref (localName i))], ?_, ?_, rfl⟩
  · rw [lower_eq_deliver, h]
    rfl
  · have hlookup : (Lower.enter env [i]).lookup (.slot i) = localName i := by
      rw [Lower.lookup_enter_slot, if_pos List.mem_cons_self]
    show Except.ok [Script.Stmt.ret (.ref ((Lower.enter env [i]).lookup (.slot i)))] = _
    rw [hlookup]

/-- **`let x = e in x` runs as `e` does**, and returns `x` where `e` returns nothing. -/
theorem run_let {tail : Block} (h : ReturnsLast tail) (i : Int) (locals : Store V) :
    runBlock I args locals
        (blockDeliver (bindTo (localName i)) tail ++ [.ret (.ref (localName i))]) =
      (runBlock I args locals tail >>= returnLocal (localName i).base) := by
  rw [← run_deliver I h, runBlock_append]
  congr 1
  funext flow
  cases flow with
  | next locals' => exact runBlock_singleton I args locals' _
  | returned v => rfl

/-! ## Agreement -/

/-- Whatever an expression returns in tail position, in any environment and whatever the leaves do,
is returned when it is bound to a slot that is new to it and can be spelled, and the slot is
returned. -/
def LetAgrees (e : Ir.Expr) : Prop :=
  ∀ {V W : Type} (I : Leaves V W) (env : Env) (i : Int) (args locals : Store V) (tail : Block)
    (w w' : W) (v : V), Numeral.Spellable i → i ∉ e.boundSlots → .slot i ∉ e.references →
    lower env returnValue e = .ok tail →
    gives (runBlock I args locals tail) w = some (.ok (.returned v), w') →
    ∃ block, lower env returnValue (.bind (.loc i) e (.var (.loc i))) = .ok block ∧
      gives (runBlock I args locals block) w = some (.ok (.returned v), w')

/-- **Tail position and the value of a binding agree** for every expression that ends with its
value. -/
theorem letAgrees_of_yieldsLast (e : Ir.Expr) (hlast : e.yieldsLast = true) : LetAgrees e := by
  intro V W I env i args locals tail w w' v _ _ _ hlow hrun
  have hreturns := Lower.returnsLast_of_yieldsLast e env tail hlast hlow
  refine ⟨_, lower_let hlow i, ?_⟩
  rw [run_let I hreturns i locals, gives_bind, hrun]
  rfl

/-- One default shows the argument, and the next one has the value. -/
def showDefault : Ir.Expr :=
  .case (.loc 0) [.const (.int 7) (.const (.int 1)),
    .default (.foreign (.con "VIM_Echo") [⟨.unknown, .loc 0⟩] none),
    .default (.const (.int 2))] false true

theorem letAgrees_of_yieldsLast_showDefault :
    showDefault.yieldsLast = true ∧
    ∃ tail block,
      lower (Lower.bodyEnv [] 1) returnValue showDefault = .ok tail ∧
      lower (Lower.bodyEnv [] 1) returnValue (.bind (.loc 5) showDefault (.var (.loc 5))) =
        .ok block ∧
      gives (runBlock flatLists (Store.ofArgs ["loc0"] [[8]]) (fun _ => none) tail) () =
        some (.ok (.returned [2]), ()) ∧
      gives (runBlock flatLists (Store.ofArgs ["loc0"] [[8]]) (fun _ => none) block) () =
        some (.ok (.returned [2]), ()) := by
  have hlast : showDefault.yieldsLast = true := by decide
  obtain ⟨block, hblock, hrun⟩ := letAgrees_of_yieldsLast showDefault hlast flatLists
    (Lower.bodyEnv [] 1) 5 (Store.ofArgs ["loc0"] [[8]]) (fun _ => none) _ () () [2] (by decide)
    (by decide) (by decide) rfl rfl
  exact ⟨hlast, _, block, rfl, hblock, rfl, hrun⟩

/-- **Two defaults with values**: in tail position the first one returns, and as the value of a
binding the second one is bound last. -/
theorem not_letAgrees_defaults :
    ¬ LetAgrees (.case (.glob (.plain "any"))
      [.default (.const (.int 1)), .default (.const (.int 2))] false true) := by
  intro h
  obtain ⟨block, hblock, hrun⟩ := h flatLists (Lower.bodyEnv [] 0) 0 (fun _ => none) (fun _ => none)
    _ () () [1] (by decide) (by decide) (by decide) rfl rfl
  cases hblock
  have hother : gives (runBlock flatLists (fun _ => none) (fun _ => none)
      [.bind (localName 0) (.int 1), .bind (localName 0) (.int 2),
        .ret (.ref (localName 0))]) () = some (.ok (.returned [2]), ()) := rfl
  simpa using hother.symm.trans hrun

end Vimgen.Meaning
