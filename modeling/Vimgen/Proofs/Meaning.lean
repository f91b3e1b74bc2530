import Vimgen.Lower.Program
import Vimgen.Proofs.Alike

/-!
# What scripts mean

A meaning of scripts over any `Leaves`: what calls, literals, operators, lists and the like do is
left open, and each of them may be partial, throw, and change a world. `Expr.value` evaluates an
expression from left to right, with variables read by a given function, and `runBlock` runs
statements over the local variables of a function, which all its blocks share. `Follows` compares
two computations with such effects.
-/

namespace Vimgen.Meaning

open Script (Arm BinOp Block ScopedName)

/-! ## Computations -/

/-- A computation over a world `W`: it may change the world, throw a value, or have no meaning. -/
abbrev Act (W V : Type) := ExceptT V (StateT W Option)

section Act

variable {W V α β γ δ : Type}

/-- No meaning. -/
def undefined : Act W V α := fun _ => none

/-- A value that may be missing. -/
def given : Option α → Act W V α
  | some a => pure a
  | none => undefined

/-- What a computation comes to in a world. -/
def gives (m : Act W V α) (w : W) : Option (Except V α × W) := m.run.run w

/-- Two ends of a computation: related values, or one and the same thrown value. -/
inductive SameEnd (P : α → β → Prop) : Except V α → Except V β → Prop
  | value {a : α} {b : β} (h : P a b) : SameEnd P (.ok a) (.ok b)
  | thrown (x : V) : SameEnd P (.error x) (.error x)

/-- Wherever `m` comes to an end, `n` comes to a related one in the same world. -/
def Follows (P : α → β → Prop) (m : Act W V α) (n : Act W V β) : Prop :=
  ∀ w r w', gives m w = some (r, w') → ∃ r', gives n w = some (r', w') ∧ SameEnd P r r'

theorem gives_bind (m : Act W V α) (f : α → Act W V β) (w : W) :
    gives (m >>= f) w =
      (gives m w).bind fun
        | (.ok a, w') => gives (f a) w'
        | (.error x, w') => some (.error x, w') := by
  have h : gives (m >>= f) w = (gives m w).bind fun p => (ExceptT.bindCont f p.1).run p.2 := rfl
  rw [h]
  congr 1
  funext p
  rcases p with ⟨_ | _, w'⟩ <;> rfl

theorem follows_pure {P : α → β → Prop} {a : α} {b : β} (h : P a b) :
    Follows P (pure a : Act W V α) (pure b) := by
  intro w r w' hr
  cases hr
  exact ⟨.ok b, rfl, .value h⟩

theorem follows_undefined {P : α → β → Prop} (n : Act W V β) :
    Follows P (undefined : Act W V α) n := by
  intro w r w' hr
  cases hr

theorem follows_throw {P : α → β → Prop} (x : V) :
    Follows P (throw x : Act W V α) (throw x : Act W V β) := by
  intro w r w' hr
  cases hr
  exact ⟨.error x, rfl, .thrown x⟩

theorem follows_refl (m : Act W V α) : Follows Eq m m := by
  intro w r w' hr
  refine ⟨r, hr, ?_⟩
  cases r with
  | ok a => exact .value rfl
  | error x => exact .thrown x

/-- **Sequencing.** A first step that is followed, and a second one from any related values. -/
theorem Follows.bind {P : α → β → Prop} {Q : γ → δ → Prop} {m : Act W V α} {n : Act W V β}
    {f : α → Act W V γ} {g : β → Act W V δ} (h : Follows P m n)
    (hfg : ∀ a b, P a b → Follows Q (f a) (g b)) : Follows Q (m >>= f) (n >>= g) := by
  intro w r w' hr
  rw [gives_bind] at hr
  obtain ⟨⟨s, w₁⟩, hm, hr⟩ := Option.bind_eq_some_iff.1 hr
  obtain ⟨s', hn, hs⟩ := h w s w₁ hm
  rw [gives_bind, hn]
  cases hs with
  | value hab => exact hfg _ _ hab w₁ r w' hr
  | thrown x =>
    cases hr
    exact ⟨.error x, rfl, .thrown x⟩

theorem Follows.mono {P Q : α → β → Prop} {m : Act W V α} {n : Act W V β} (h : Follows P m n)
    (hPQ : ∀ a b, P a b → Q a b) : Follows Q m n := by
  intro w r w' hr
  obtain ⟨r', hn, hs⟩ := h w r w' hr
  refine ⟨r', hn, ?_⟩
  cases hs with
  | value hab => exact .value (hPQ _ _ hab)
  | thrown x => exact .thrown x

end Act

/-! ## Scripts -/

/-- What the leaves of scripts do. `V` are the values of scripts, `W` the worlds they run in. -/
structure Leaves (V W : Type) where
  int : Int → Act W V V
  str : String → Act W V V
  list : List V → Act W V V
  binary : BinOp → V → V → Act W V V
  /-- One item of a list or text. -/
  item : V → V → Act W V V
  /-- All items from one on. -/
  onward : V → V → Act W V V
  /-- A call of a function by its name. -/
  call : ScopedName → List V → Act W V V
  /-- The value of a variable outside the function. -/
  global : ScopedName → Act W V V
  /-- Whether a value passes a test. -/
  holds : V → Act W V Bool
  echo : V → Act W V Unit
  /-- Sets one item of a list: the list, the place and the item. -/
  setItem : V → V → V → Act W V Unit

variable {V W : Type} (I : Leaves V W)

mutual

/-- The value of an expression whose variables are read by `read`. -/
def value (read : ScopedName → Act W V V) : Script.Expr → Act W V V
  | .int n => I.int n
  | .str s => I.str s
  | .list items => do I.list (← values read items)
  | .ref name => read name
  | .apply (.ref name) args => do I.call name (← values read args)
  | .binary op left right => do I.binary op (← value read left) (← value read right)
  | .proj base (.single index) => do I.item (← value read base) (← value read index)
  | .proj base (.onward start) => do I.onward (← value read base) (← value read start)
  | _ => undefined

/-- The values of expressions, from left to right. -/
def values (read : ScopedName → Act W V V) : List Script.Expr → Act W V (List V)
  | [] => pure []
  | x :: rest => do return (← value read x) :: (← values read rest)

end

/-- Whether a test passes. -/
def passes (read : ScopedName → Act W V V) (test : Script.Expr) : Act W V Bool := do
  I.holds (← value I read test)

/-- What a statement does that neither binds nor returns. The item of a list is evaluated before the
list, and the list before the place in it. -/
def effect (read : ScopedName → Act W V V) : Script.Stmt → Act W V Unit
  | .command "echo" x => do I.echo (← value I read x)
  | .command "throw" x => do throw (← value I read x)
  | .assign (.item (.name list) (.single index)) x => do
    let item ← value I read x
    I.setItem (← read list) (← value I read index) item
  | .call name args => do let _ ← I.call name (← values I read args)
  | _ => undefined

/-- Variables of one scope, by their names. -/
abbrev Store (V : Type) := String → Option V

/-- The store with one more variable. -/
def Store.set (s : Store V) (name : String) (v : V) : Store V :=
  fun n => if n = name then some v else s n

/-- Reads a variable inside a function. -/
def readVariable (args locals : Store V) (name : ScopedName) : Act W V V :=
  match name.scope with
  | .local => given (locals name.base)
  | .argument => given (args name.base)
  | _ => I.global name

/-- How statements end: with the local variables they leave, or with a returned value. -/
inductive Flow (V : Type) where
  | next (locals : Store V)
  | returned (v : V)

mutual

/-- Runs a statement. -/
def runStmt (args locals : Store V) : Script.Stmt → Act W V (Flow V)
  | .bind ⟨.local, base⟩ x => do
    return .next (locals.set base (← value I (readVariable I args locals) x))
  | .ret x => do return .returned (← value I (readVariable I args locals) x)
  | .cond arms none => runArms args locals (pure (.next locals)) arms
  | .cond arms (some default) => runArms args locals (runBlock args locals default) arms
  | s => do
    effect I (readVariable I args locals) s
    return .next locals

/-- Runs statements in a row, up to the first that returns. -/
def runBlock (args locals : Store V) : List Script.Stmt → Act W V (Flow V)
  | [] => pure (.next locals)
  | s :: rest => do
    match ← runStmt args locals s with
    | .next locals' => runBlock args locals' rest
    | .returned v => return .returned v

/-- Runs the first arm whose test passes, or else `otherwise`. -/
def runArms (args locals : Store V) (otherwise : Act W V (Flow V)) :
    List Arm → Act W V (Flow V)
  | [] => otherwise
  | .mk test body :: rest => do
    if ← passes I (readVariable I args locals) test then runBlock args locals body
    else runArms args locals otherwise rest

end

/-! ## Laws -/

@[simp] theorem Store.set_self (s : Store V) (name : String) (v : V) :
    s.set name v name = some v := if_pos rfl

theorem Store.set_of_ne (s : Store V) {name other : String} (v : V) (h : other ≠ name) :
    s.set name v other = s other := if_neg h

/-- **Blocks run one after the other.** -/
theorem runBlock_append (args : Store V) (a b : Block) : ∀ locals,
    runBlock I args locals (a ++ b) = (do
      match ← runBlock I args locals a with
      | .next locals' => runBlock I args locals' b
      | .returned v => return .returned v) := by
  induction a with
  | nil => intro locals; simp [runBlock]
  | cons s rest ih =>
    intro locals
    simp only [List.cons_append, runBlock, bind_assoc]
    congr 1
    funext flow
    cases flow with
    | next locals' => exact ih locals'
    | returned v => simp

/-- A block of one statement. -/
theorem runBlock_singleton (args locals : Store V) (s : Script.Stmt) :
    runBlock I args locals [s] = runStmt I args locals s := by
  simp only [runBlock]
  conv_rhs => rw [← bind_pure (runStmt I args locals s)]
  congr 1
  funext flow
  cases flow <;> rfl

mutual

/-- **Values of expressions that are alike.** Variables are read alike, and the same functions are
called. -/
theorem value_follows {R : ScopedName → ScopedName → Prop} {read read' : ScopedName → Act W V V}
    (hR : ∀ n m, R n m → Follows Eq (read n) (read' m)) {x y : Script.Expr}
    (h : Script.Alike R Eq x y) : Follows Eq (value I read x) (value I read' y) := by
  cases h with
  | int n => exact follows_refl _
  | str s => exact follows_refl _
  | list hs =>
    simp only [value]
    exact (values_follow hR hs).bind fun _ _ h => h ▸ follows_refl _
  | ref h => simp only [value]; exact hR _ _ h
  | call hname hargs =>
    subst hname
    simp only [value]
    exact (values_follow hR hargs).bind fun _ _ h => h ▸ follows_refl _
  | binary op hleft hright =>
    simp only [value]
    refine (value_follows hR hleft).bind fun _ _ h => h ▸ ?_
    exact (value_follows hR hright).bind fun _ _ h => h ▸ follows_refl _
  | single hbase hindex =>
    simp only [value]
    refine (value_follows hR hbase).bind fun _ _ h => h ▸ ?_
    exact (value_follows hR hindex).bind fun _ _ h => h ▸ follows_refl _
  | onward hbase hstart =>
    simp only [value]
    refine (value_follows hR hbase).bind fun _ _ h => h ▸ ?_
    exact (value_follows hR hstart).bind fun _ _ h => h ▸ follows_refl _

theorem values_follow {R : ScopedName → ScopedName → Prop} {read read' : ScopedName → Act W V V}
    (hR : ∀ n m, R n m → Follows Eq (read n) (read' m)) {xs ys : List Script.Expr}
    (h : Script.AllAlike R Eq xs ys) : Follows Eq (values I read xs) (values I read' ys) := by
  cases h with
  | nil => exact follows_refl _
  | cons hx hs =>
    simp only [values]
    refine (value_follows hR hx).bind fun _ _ h => h ▸ ?_
    exact (values_follow hR hs).bind fun _ _ h => h ▸ follows_refl _

end

end Vimgen.Meaning
