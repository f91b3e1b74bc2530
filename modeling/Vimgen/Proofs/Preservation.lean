import Vimgen.Proofs.Simulation

/-!
# Scripts mean what their expressions mean

* `lower_preserves_meaning`: whatever the leaves do, if an expression that keeps its slots comes to
  an end in some world, its script comes to the same end in the same world. A value is returned or
  bound as the continuation says, and no other variable changes than those of slots bound in the
  expression.
* `function_preserves_meaning`: the function of a definition, called with values, returns what the
  body of the definition means when its first slots have these values.

Slots have to be kept: `shared_variables_clash` has one expression for each condition of
`Expr.keepsSlots` that breaks only this one, and whose script does something else. There, scripts
run over `flatLists`.
-/

namespace Vimgen.Meaning

open Ir (fieldRange)
open Lower (bodyEnv functionName globalEnv lookup_bodyEnv_name lookup_bodyEnv_slot lookup_globalEnv
  lower lowerDefinition parameters parameters_names returnValue)
open Script (Block ScopedName)

variable {V W : Type} (I : Leaves V W)

/-! ## One expression -/

/-- The end of a block that delivers. -/
theorem Follows.delivered {m : Act W V (Option V)} {n : Act W V (Flow V)} {dest : Dest}
    {bound : List Int} {locals : Store V} (h : Follows (Delivered dest bound locals) m n) {w w' : W}
    {o : Except V (Option V)} (hm : gives m w = some (o, w')) :
    ∃ locals', SameOff bound locals locals' ∧
      gives n w = some (o.map (dest.finish locals'), w') := by
  obtain ⟨r, hn, hend⟩ := h w o w' hm
  cases hend with
  | value hdel =>
    obtain ⟨locals', hsame, rfl⟩ := hdel
    exact ⟨locals', hsame, hn⟩
  | thrown x => exact ⟨locals, SameOff.refl _ _, hn⟩

/-- Running the script of an expression does what the expression means, wherever it has a meaning:
in any environment inside a function with the slots `held` as local variables, for either
continuation, and from any variables that hold the slots which the expression reads. Only variables
of slots bound in the expression change, and the one that the value goes to. -/
def Preserves (held : List Int) (e : Ir.Expr) : Prop :=
  ∀ (dest : Dest) (env : Env) (link : Name → ScopedName) (args locals : Store V) (slots : Slots V)
    (block : Block) (w w' : W) (o : Except V (Option V)),
    Links env link held → Agree env args locals slots e.freeSlots →
    lower env dest.continuation e = .ok block → gives (eval I link slots e) w = some (o, w') →
    ∃ locals', SameOff e.boundSlots locals locals' ∧
      gives (runBlock I args locals block) w = some (o.map (dest.finish locals'), w')

/-! ## Functions -/

/-- The values of a function's arguments, by the names of its parameters. -/
def Store.ofArgs (names : List String) (vs : List V) : Store V :=
  fun base => (names.zip vs).lookup base

/-- The first slots, with the values of a function's arguments. -/
def Slots.ofArgs (vs : List V) : Slots V := fun i => if 0 ≤ i then vs[i.toNat]? else none

/-- Slots are spelled differently, so every argument is found under the name of its slot. -/
theorem lookup_slots_zip (i : Int) (count : Nat) : ∀ (first : Int) (vs : List V), first ≤ i →
    i < first + count →
    (((fieldRange first count).map fun j => (Name.slot j).target).zip vs).lookup
      (Name.slot i).target = vs[(i - first).toNat]? := by
  induction count with
  | zero => intro first vs hle hlt; omega
  | succ count ih =>
    intro first vs hle hlt
    cases vs with
    | nil => rfl
    | cons v vs =>
      simp only [fieldRange, List.map_cons, List.zip_cons_cons, List.lookup_cons]
      by_cases hi : i = first
      · subst hi
        simp
      · have hne : ((Name.slot i).target == (Name.slot first).target) = false := by
          simpa using fun h => hi (slot_target_injective h)
        have hpos : (i - first).toNat = (i - (first + 1)).toNat + 1 := by omega
        rw [hne, hpos, List.getElem?_cons_succ]
        exact ih (first + 1) vs (by omega) (by push_cast at hlt; omega)

theorem links_bodyEnv (definitions : List Ir.Definition) (arity : Nat) :
    Links (bodyEnv definitions arity) (globalEnv definitions).lookup [] := by
  have hscope : ∀ n, ((globalEnv definitions).lookup n).scope ≠ .local ∧
      ((globalEnv definitions).lookup n).scope ≠ .argument := by
    intro n
    rw [lookup_globalEnv]
    split <;> simp [functionName]
  refine ⟨?_, fun n hn => lookup_bodyEnv_name _ _ hn, fun n _ => hscope n⟩
  intro i hi
  rw [lookup_bodyEnv_slot] at hi
  split at hi
  · cases hi
  · exact absurd hi (hscope _).1

theorem agree_bodyEnv (definitions : List Ir.Definition) (arity : Nat) (locals : Store V)
    {vs : List V} (hlen : vs.length = arity) (matter : List Int) :
    Agree (bodyEnv definitions arity)
      (Store.ofArgs ((parameters arity).map fun p => p.2.base) vs) locals (Slots.ofArgs vs)
      matter := by
  intro i _ v hv
  unfold Slots.ofArgs at hv
  split at hv
  · rename_i hpos
    have hlt : i < arity := by
      have := (List.getElem?_eq_some_iff.1 hv).1
      omega
    unfold slotValue
    rw [lookup_bodyEnv_slot, if_pos ⟨hpos, hlt⟩]
    simp only [Store.ofArgs, parameters_names]
    rw [lookup_slots_zip i arity 0 vs hpos (by omega), Int.sub_zero]
    exact hv
  · cases hv

/-- **Functions mean what the bodies of their definitions mean.** -/
theorem function_preserves_meaning {definitions : List Ir.Definition} {d : Ir.Definition}
    {name : ScopedName} {names : List String} {body : Block} {vs : List V} {w w' : W}
    {o : Except V (Option V)}
    (hlow : lowerDefinition (globalEnv definitions) d = .ok (.function name names body))
    (hkeep : d.body.keepsSlots [] = true) (hlen : vs.length = d.arity)
    (heval : gives (eval I (globalEnv definitions).lookup (Slots.ofArgs vs) d.body) w =
      some (o, w')) :
    ∃ locals', gives (runBlock I (Store.ofArgs names vs) (fun _ => none) body) w =
      some (o.map (Dest.result.finish locals'), w') := by
  obtain ⟨block, hbody, hfun⟩ := bind_eq_ok.1 hlow
  cases hfun
  obtain ⟨locals', _, hrun⟩ := (lower_follows I d.body .result (links_bodyEnv definitions d.arity)
    hkeep (agree_bodyEnv definitions d.arity _ hlen _) hbody).delivered heval
  exact ⟨locals', hrun⟩

/-! ## Expressions that keep their slots, and others -/

/-- A meaning over lists of numbers: a number is the list of itself, and a list of lists is
joined. -/
def flatLists : Leaves (List Int) Unit where
  int n := pure [n]
  str s := pure (s.toList.map fun c => (c.toNat : Int))
  list vs := pure vs.flatten
  binary
    | .equals, a, b => pure [if a = b then 1 else 0]
    | _, _, _ => undefined
  item
    | v, [k] => given (v[k.toNat]?.map fun x => [x])
    | _, _ => undefined
  onward
    | v, [k] => pure (v.drop k.toNat)
    | _, _ => undefined
  call _ _ := undefined
  global _ := undefined
  holds v := pure (v != [0])
  echo _ := pure ()
  setItem _ _ _ := undefined

/-- **Lowering preserves meaning**, whatever the leaves do, for every expression that keeps its
slots. -/
theorem lower_preserves_meaning (held : List Int) (e : Ir.Expr) (hkeep : e.keepsSlots held = true) :
    Preserves I held e := by
  intro dest env link args locals slots block w w' o hlinks hagree hlow heval
  exact (lower_follows I e dest hlinks hkeep hagree hlow).delivered heval

/-- The fields of an argument, one of them brought out through a binding whose value binds slots of
its own, are put together with the argument itself. -/
theorem lower_preserves_meaning_fields :
    ∃ block locals', lower (bodyEnv [] 1) returnValue
        (.bind (.loc 1)
          (.case (.loc 0) [.con 2 7 (.plain "pair") [.plain "x", .plain "y"] (.var (.loc 3)),
            .default .nothing] true true)
          (.con 9 (.plain "done") [.loc 1, .loc 0] none)) = .ok block ∧
      gives (runBlock flatLists (Store.ofArgs ["loc0"] [[7, 5, 6]]) (fun _ => none) block) () =
        some (.ok (Dest.result.finish locals' (some [9, 6, 7, 5, 6])), ()) := by
  obtain ⟨locals', _, hrun⟩ := lower_preserves_meaning flatLists []
    (.bind (.loc 1)
      (.case (.loc 0) [.con 2 7 (.plain "pair") [.plain "x", .plain "y"] (.var (.loc 3)),
        .default .nothing] true true)
      (.con 9 (.plain "done") [.loc 1, .loc 0] none)) rfl .result (bodyEnv [] 1)
    (globalEnv []).lookup (Store.ofArgs ["loc0"] [[7, 5, 6]]) (fun _ => none)
    (Slots.ofArgs [[7, 5, 6]]) _ () () (.ok (some [9, 6, 7, 5, 6])) (links_bodyEnv [] 1)
    (agree_bodyEnv [] 1 _ rfl _) rfl rfl
  exact ⟨_, locals', rfl, hrun⟩

/-- Refuting preservation by one run without arguments: it does not return the value that is
meant. -/
theorem not_preserves {e : Ir.Expr} {block : Block} {v : List Int}
    {r : Option (Except (List Int) (Flow (List Int)) × Unit)}
    (hlow : lower (bodyEnv [] 0) returnValue e = .ok block)
    (heval : gives (eval flatLists (globalEnv []).lookup (Slots.ofArgs []) e) () =
      some (.ok (some v), ()))
    (hrun : gives (runBlock flatLists (Store.ofArgs [] []) (fun _ => none) block) () = r)
    (hne : r ≠ some (.ok (.returned v), ())) : ¬ Preserves flatLists [] e := by
  intro h
  obtain ⟨locals', _, hend⟩ := h .result _ _ _ _ _ block () () _ (links_bodyEnv [] 0)
    (agree_bodyEnv [] 0 _ rfl _) hlow heval
  exact hne (hrun.symm.trans hend)

/-- **Each condition is needed.** The value of a binding that binds an outer slot which the body
reads; fields loaded over their own scrutinee; two defaults. -/
theorem shared_variables_clash :
    ¬ Preserves flatLists []
      (.bind (.loc 0) (.const (.int 1))
        (.bind (.loc 1) (.bind (.loc 0) (.const (.int 2)) (.var (.loc 0))) (.var (.loc 0)))) ∧
    ¬ Preserves flatLists []
      (.bind (.loc 1) (.const (.int 5))
        (.bind (.loc 0) (.con 7 (.plain "pair") [.loc 1, .loc 1] none)
          (.case (.loc 0) [.con 0 7 (.plain "pair") [.plain "x", .plain "y"] (.var (.loc 1))]
            true true))) ∧
    ¬ Preserves flatLists []
      (.bind (.loc 0)
        (.case (.glob (.plain "any")) [.default (.const (.int 1)), .default (.const (.int 2))]
          true true)
        (.var (.loc 0))) := by
  refine ⟨?_, ?_, ?_⟩
  · exact not_preserves (v := [1]) (r := some (.ok (.returned [2]), ())) rfl rfl rfl (by simp)
  · -- the second field is taken from the first one, which has no items
    exact not_preserves (v := [5]) (r := none) rfl rfl rfl (by simp)
  · exact not_preserves (v := [1]) (r := some (.ok (.returned [2]), ())) rfl rfl rfl (by simp)

end Vimgen.Meaning
