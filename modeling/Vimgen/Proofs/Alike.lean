import Vimgen.Lower.Leaf
import Mathlib.Data.List.Forall2

/-!
# Scripts of one shape

Two expressions are `Alike` if they differ in names only: in variables that are related, and in
called functions that are related. The translations of primitives and foreign calls look at the
number of their arguments and never at what is in them, so they take arguments that are alike to
results that are alike.
-/

namespace Vimgen.Script

mutual

/-- Expressions that differ in names only: `R` relates variables, `Q` called functions. -/
inductive Alike (R Q : ScopedName → ScopedName → Prop) : Expr → Expr → Prop
  | int (n : Int) : Alike R Q (.int n) (.int n)
  | str (s : String) : Alike R Q (.str s) (.str s)
  | list {xs ys : List Expr} (h : AllAlike R Q xs ys) : Alike R Q (.list xs) (.list ys)
  | ref {n m : ScopedName} (h : R n m) : Alike R Q (.ref n) (.ref m)
  | call {n m : ScopedName} {xs ys : List Expr} (hname : Q n m) (hargs : AllAlike R Q xs ys) :
    Alike R Q (.apply (.ref n) xs) (.apply (.ref m) ys)
  | binary (op : BinOp) {x y x' y' : Expr} (hleft : Alike R Q x x') (hright : Alike R Q y y') :
    Alike R Q (.binary op x y) (.binary op x' y')
  | single {x y i j : Expr} (hbase : Alike R Q x y) (hindex : Alike R Q i j) :
    Alike R Q (.proj x (.single i)) (.proj y (.single j))
  | onward {x y i j : Expr} (hbase : Alike R Q x y) (hstart : Alike R Q i j) :
    Alike R Q (.proj x (.onward i)) (.proj y (.onward j))

/-- Lists of expressions that are alike one by one. -/
inductive AllAlike (R Q : ScopedName → ScopedName → Prop) : List Expr → List Expr → Prop
  | nil : AllAlike R Q [] []
  | cons {x y : Expr} {xs ys : List Expr} (h : Alike R Q x y) (hs : AllAlike R Q xs ys) :
    AllAlike R Q (x :: xs) (y :: ys)

end

variable {R Q : ScopedName → ScopedName → Prop}

theorem AllAlike.length {xs ys : List Expr} (h : AllAlike R Q xs ys) : xs.length = ys.length := by
  cases h with
  | nil => rfl
  | cons _ hs => simp only [List.length_cons]; rw [hs.length]

theorem AllAlike.map {α : Type} {f g : α → Expr} {as : List α}
    (h : ∀ a ∈ as, Alike R Q (f a) (g a)) : AllAlike R Q (as.map f) (as.map g) := by
  induction as with
  | nil => exact .nil
  | cons a as ih =>
    exact .cons (h a List.mem_cons_self) (ih fun b hb => h b (List.mem_cons_of_mem _ hb))

end Vimgen.Script

namespace Vimgen.Lower

open Script (Alike AllAlike BinOp Block ScopedName)

variable {R Q : ScopedName → ScopedName → Prop}

theorem alike_field {x y : Script.Expr} (h : Alike R Q x y) (index : Int) :
    Alike R Q (field x index) (field y index) := .single h (.int index)

theorem alike_callBuiltin (hQ : ∀ s, Q ⟨.builtin, s⟩ ⟨.builtin, s⟩) (name : String)
    {xs ys : List Script.Expr} (h : AllAlike R Q xs ys) :
    Alike R Q (callBuiltin name xs) (callBuiltin name ys) := .call (hQ name) h

/-- Two outcomes of a translation: results that are related, or the same failure. -/
inductive SameResult {ε α β : Type} (P : α → β → Prop) : Except ε α → Except ε β → Prop
  | ok {a : α} {b : β} (h : P a b) : SameResult P (.ok a) (.ok b)
  | error (e : ε) : SameResult P (.error e) (.error e)

/-- A constant becomes a literal, in which there are no names. -/
theorem lowerConst_alike (c : Ir.Const) :
    SameResult (Alike R Q) (lowerConst c) (lowerConst c) := by
  cases c with
  | int n => exact .ok (.int n)
  | bigInt n =>
    simp only [lowerConst]
    split
    · exact .ok (.int n)
    · exact .error _
  | float x => exact .error _
  | char c => exact .ok (.str _)
  | str s => exact .ok (.str s)
  | bits width n => exact .error _
  | world => exact .ok (.int 0)
  | type name => exact .ok (.int 0)

theorem alike_literal {c : Ir.Const} {literal : Script.Expr} (h : lowerConst c = .ok literal) :
    Alike R Q literal literal := by
  have := lowerConst_alike (R := R) (Q := Q) c
  rw [h] at this
  cases this with
  | ok h => exact h

theorem builtinForm_alike (hQ : ∀ s, Q ⟨.builtin, s⟩ ⟨.builtin, s⟩) (tag : Ir.PrimTag)
    {xs ys : List Script.Expr} (h : AllAlike R Q xs ys) :
    Option.Rel (Alike R Q) (builtinForm? tag xs) (builtinForm? tag ys) := by
  have call : ∀ name {xs ys : List Script.Expr}, AllAlike R Q xs ys →
      Alike R Q (callBuiltin name xs) (callBuiltin name ys) := fun name => alike_callBuiltin hQ name
  have item : ∀ {x y i j : Script.Expr}, Alike R Q x y → Alike R Q i j →
      Alike R Q (item x i) (item y j) := fun hx hi => .single hx hi
  -- first by the number of arguments, then by tag: most pairs of them have no form
  rcases h with _ | ⟨hx, _ | ⟨hy, _ | ⟨hz, _ | _⟩⟩⟩
  · cases tag <;> exact .none
  · cases tag <;> first | exact .none | refine .some ?_
    · exact .binary _ hx (.str _)
    · exact call _ (.cons hx .nil)
    · exact call _ (.cons hx .nil)
    · exact call _ (.cons hx .nil)
    · exact call _ (.cons hx .nil)
    · exact alike_field hx 0
    · exact .onward hx (.int 1)
    · exact call _ (.cons (call _ (.cons (call _ (.cons hx (.cons (.str _) .nil))) .nil))
        (.cons (.str _) .nil))
  · cases tag <;> first | exact .none | refine .some ?_
    · exact item hx hy
    · exact call _ (.cons hy .nil)
  · cases tag <;> first | exact .none | refine .some ?_
    exact call _ (.cons hz (.cons hx (.cons hy .nil)))
  · cases tag <;> exact .none

theorem primitive_alike (hQ : ∀ s, Q ⟨.builtin, s⟩ ⟨.builtin, s⟩) (op : Ir.PrimOp)
    {xs ys : List Script.Expr} (h : AllAlike R Q xs ys) :
    Option.Rel (Alike R Q) (primitive? op xs) (primitive? op ys) := by
  unfold primitive?
  split
  · cases nonempty? op.name with
    | none => exact .none
    | some name => exact .some (alike_callBuiltin hQ name h)
  · have hform := builtinForm_alike hQ op.tag h
    -- whatever the tag is, the same of the four rules applies to both lists
    generalize isCoercion op.tag = coercion
    generalize integralOp? op.tag = number
    generalize textOp? op.tag = text
    rcases h with _ | ⟨hx, _ | ⟨hy, _ | ⟨hz, hs⟩⟩⟩
    · cases coercion <;> cases number <;> cases text <;> exact hform
    · cases coercion with
      | true => exact .some hx
      | false => cases number <;> cases text <;> exact hform
    · cases number with
      | some b =>
        cases coercion <;> cases text <;> simp only <;> split
        all_goals first | exact .some (.binary _ hx hy) | exact .none
      | none =>
        cases text with
        | some b => cases coercion <;> exact .some (.binary _ hx hy)
        | none => cases coercion <;> exact hform
    · cases coercion <;> cases number <;> cases text <;> exact hform

/-- **Primitives look at the number of their arguments only.** -/
theorem lowerPrimitive_alike (hQ : ∀ s, Q ⟨.builtin, s⟩ ⟨.builtin, s⟩) (op : Ir.PrimOp)
    {xs ys : List Script.Expr} (h : AllAlike R Q xs ys) :
    SameResult (Alike R Q) (lowerPrimitive op xs) (lowerPrimitive op ys) := by
  unfold lowerPrimitive
  split
  · exact .error _
  · have hop := primitive_alike hQ op h
    revert hop
    cases primitive? op xs <;> cases primitive? op ys <;> intro hop <;> cases hop
    · rw [h.length]; exact .error _
    · exact .ok (by assumption)

/-- What a foreign call comes to for two lists of variables that are related one by one: values that
are alike and go to the continuation, one of the two statements, or one failure. -/
inductive ForeignPair (R Q : ScopedName → ScopedName → Prop)
    (f g : Continuation → Except LowerError Block) : Prop
  | value {x y : Script.Expr} (h : Alike R Q x y) (hf : ∀ ret, f ret = .ok [ret x])
    (hg : ∀ ret, g ret = .ok [ret y])
  | echo {x y : Script.Expr} (h : Alike R Q x y) (hf : ∀ ret, f ret = .ok [.command "echo" x])
    (hg : ∀ ret, g ret = .ok [.command "echo" y])
  | setItem {i j x y : Script.Expr} {n m : ScopedName} (hindex : Alike R Q i j)
    (hvalue : Alike R Q x y) (hlist : R n m)
    (hf : ∀ ret, f ret = .ok [.assign (.item (.name n) (.single i)) x])
    (hg : ∀ ret, g ret = .ok [.assign (.item (.name m) (.single j)) y])
  | failure (e : LowerError) (hf : ∀ ret, f ret = .error e) (hg : ∀ ret, g ret = .error e)

/-- Lists of variables that are related one by one. -/
abbrev RefPairs (R : ScopedName → ScopedName → Prop) (xs ys : List Script.Expr) : Prop :=
  List.Forall₂ (fun x y => ∃ n m, R n m ∧ x = .ref n ∧ y = .ref m) xs ys

theorem lowerTagged_pair (tag : Ir.ForeignTag) {xs ys : List Script.Expr} (h : RefPairs R xs ys) :
    ForeignPair R Q (lowerTagged tag xs) (lowerTagged tag ys) := by
  have misfit : (∀ ret, lowerTagged tag xs ret = .error (.foreignArity tag xs.length)) →
      (∀ ret, lowerTagged tag ys ret = .error (.foreignArity tag ys.length)) →
      ForeignPair R Q (lowerTagged tag xs) (lowerTagged tag ys) :=
    fun hf hg => .failure _ hf (h.length_eq ▸ hg)
  rcases h with _ | ⟨⟨n, n', hn, rfl, rfl⟩, _ | ⟨⟨m, m', hm, rfl, rfl⟩,
    _ | ⟨⟨k, k', hk, rfl, rfl⟩, _ | _⟩⟩⟩
  · cases tag <;> first | exact misfit (fun _ => rfl) (fun _ => rfl) | skip
    exact .value (.list .nil) (fun _ => rfl) (fun _ => rfl)
  · cases tag <;> first | exact misfit (fun _ => rfl) (fun _ => rfl) | skip
    exact .echo (.ref hn) (fun _ => rfl) (fun _ => rfl)
  · cases tag <;> first | exact misfit (fun _ => rfl) (fun _ => rfl) | skip
    · exact .value (.single (.ref hm) (.ref hn)) (fun _ => rfl) (fun _ => rfl)
    · exact .value (.binary _ (.list (.cons (.ref hn) .nil)) (.ref hm)) (fun _ => rfl)
        (fun _ => rfl)
    · exact .value (.binary _ (.ref hn) (.list (.cons (.ref hm) .nil))) (fun _ => rfl)
        (fun _ => rfl)
    · exact .value (.binary _ (.ref hn) (.ref hm)) (fun _ => rfl) (fun _ => rfl)
  · cases tag <;> first | exact misfit (fun _ => rfl) (fun _ => rfl) | skip
    exact .setItem (.ref hn) (.ref hm) hk (fun _ => rfl) (fun _ => rfl)
  · cases tag <;> exact misfit (fun _ => rfl) (fun _ => rfl)

/-- **Foreign calls look at the number of their arguments only.** -/
theorem lowerForeign_pair (hQ : ∀ s, Q ⟨.builtin, s⟩ ⟨.builtin, s⟩) (function : Ir.Descriptor)
    {xs ys : List Script.Expr} (h : RefPairs R xs ys) :
    ForeignPair R Q (lowerForeign function xs) (lowerForeign function ys) := by
  have hargs : AllAlike R Q xs ys := by
    induction h with
    | nil => exact .nil
    | cons hx _ ih =>
      obtain ⟨n, m, hnm, rfl, rfl⟩ := hx
      exact .cons (.ref hnm) ih
  have refused : (∀ ret, lowerForeign function xs ret = .error (.foreign function.display)) →
      (∀ ret, lowerForeign function ys ret = .error (.foreign function.display)) →
      ForeignPair R Q (lowerForeign function xs) (lowerForeign function ys) :=
    fun hf hg => .failure _ hf hg
  match function with
  | .con name =>
    cases hname : Ir.ForeignTag.ofSymbol? name with
    | none =>
      have hnone : ∀ zs ret, lowerForeign (.con name) zs ret =
          .error (.foreign (Ir.Descriptor.con name).display) := by
        intro zs ret; simp only [lowerForeign, hname]
      exact refused (hnone xs) (hnone ys)
    | some tag =>
      have hsome : ∀ zs, lowerForeign (.con name) zs = lowerTagged tag zs := by
        intro zs; funext ret; simp only [lowerForeign, hname]
      rw [hsome xs, hsome ys]
      exact lowerTagged_pair tag h
  | .app name [.str builtin] =>
    by_cases hname : name = builtinEscape
    · exact .value (alike_callBuiltin hQ builtin hargs) (fun _ => if_pos hname)
        (fun _ => if_pos hname)
    · exact refused (fun _ => if_neg hname) (fun _ => if_neg hname)
  | .app name [] => exact refused (fun _ => rfl) (fun _ => rfl)
  | .app name [.con _] => exact refused (fun _ => rfl) (fun _ => rfl)
  | .app name [.app _ _] => exact refused (fun _ => rfl) (fun _ => rfl)
  | .app name [.unknown] => exact refused (fun _ => rfl) (fun _ => rfl)
  | .app name (a :: _ :: _) =>
    exact refused (fun _ => by cases a <;> rfl) (fun _ => by cases a <;> rfl)
  | .str value => exact refused (fun _ => rfl) (fun _ => rfl)
  | .unknown => exact refused (fun _ => rfl) (fun _ => rfl)

end Vimgen.Lower
