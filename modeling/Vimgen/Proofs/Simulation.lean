import Vimgen.Proofs.Direct
import Vimgen.Proofs.Lowering

/-!
# Lowering preserves meaning

Slots have lexical scope, but the script keeps them in variables that a whole function shares.
Running the script of an expression then overwrites the variables of all slots that are bound in it,
at any depth. `Expr.keepsSlots` asks that nothing overwritten is read again later under its old
meaning:

* the value of a binding does not bind a slot of an outer binding that the body still reads;
* an alternative does not load a field, the last one apart, over its own scrutinee;
* a choice has at most one default, since several are run in a row.

Arguments of the function are variables of their own and never overwritten. `lower_follows` is the
simulation, with a frame: only variables of slots bound in the expression change.
-/

namespace Vimgen.Ir

mutual

/-- Whether slots keep their values for as long as they are read, once they share the variables of a
function. `held` are the slots in scope that are variables already. -/
def Expr.keepsSlots (held : List Int) : Expr → Bool
  | .bind (.loc i) value body =>
    value.keepsSlots held && body.keepsSlots (i :: held) &&
      held.all fun j => j = i || !value.boundSlots.contains j || !body.freeSlots.contains j
  | .update _ value => value.keepsSlots held
  | .case scrutinee alts _ _ =>
    decide (Lower.countDefaults alts ≤ 1) && altsKeepSlots held scrutinee.slots alts
  | _ => true

/-- Whether an alternative of a choice by a variable does so. -/
def Alt.keepsSlots (held scrutinee : List Int) : Alt → Bool
  | .const _ body => body.keepsSlots held
  | .con first _ _ fields body =>
    (scrutinee.all fun j =>
        !held.contains j || !(fieldRange first (fields.length - 1)).contains j) &&
      body.keepsSlots (fieldRange first fields.length ++ held)
  | .default body => body.keepsSlots held

def altsKeepSlots (held scrutinee : List Int) : List Alt → Bool
  | [] => true
  | alt :: rest => alt.keepsSlots held scrutinee && altsKeepSlots held scrutinee rest

end

end Vimgen.Ir

namespace Vimgen.Meaning

open Ir (fieldRange)
open Lower (Continuation LowerError bindTo enter field joinBranches loads localName lower lowerAlts
  lowerForeign resolve resolveAll returnValue)
open Script (Alike AllAlike Arm Block ScopedName)

variable {V W : Type} (I : Leaves V W)

/-! ## Where values go -/

/-- What is done with the value of an expression: it is returned, or bound to a local variable. -/
inductive Dest where
  | result
  | variable (base : String)

/-- The continuation of a destination. -/
def Dest.continuation : Dest → Continuation
  | .result => returnValue
  | .variable base => bindTo ⟨.local, base⟩

/-- How a block ends that found a value, or none, and left the given variables. -/
def Dest.finish (locals : Store V) : Dest → Option V → Flow V
  | _, none => .next locals
  | .result, some v => .returned v
  | .variable base, some v => .next (locals.set base v)

/-- Two stores that differ at most in the variables of some slots. -/
def SameOff (bound : List Int) (s t : Store V) : Prop :=
  ∀ base, (∀ i ∈ bound, base ≠ (Name.slot i).target) → t base = s base

/-- A value, or none, arrives at its destination; on the way only variables of `bound` change. -/
def Delivered (dest : Dest) (bound : List Int) (locals : Store V) (v : Option V) (flow : Flow V) :
    Prop :=
  ∃ locals', SameOff bound locals locals' ∧ flow = dest.finish locals' v

theorem SameOff.refl (bound : List Int) (s : Store V) : SameOff bound s s := fun _ _ => rfl

theorem SameOff.trans {bound : List Int} {s t u : Store V} (h : SameOff bound s t)
    (h' : SameOff bound t u) : SameOff bound s u :=
  fun base hb => (h' base hb).trans (h base hb)

theorem SameOff.mono {bound bound' : List Int} {s t : Store V} (h : SameOff bound s t)
    (hsub : ∀ i ∈ bound, i ∈ bound') : SameOff bound' s t :=
  fun base hb => h base fun i hi => hb i (hsub i hi)

theorem SameOff.set {bound : List Int} {s t : Store V} (h : SameOff bound s t) {i : Int}
    (hi : i ∈ bound) (v : V) : SameOff bound s (t.set (Name.slot i).target v) := by
  intro base hb
  rw [Store.set_of_ne _ _ (hb i hi)]
  exact h base hb

/-- A slot that is not among them keeps its variable. -/
theorem SameOff.slot {bound : List Int} {s t : Store V} (h : SameOff bound s t) {i : Int}
    (hi : i ∉ bound) : t (Name.slot i).target = s (Name.slot i).target :=
  h _ fun _ hj heq => hi (slot_target_injective heq ▸ hj)

/-! ## Environments and stores -/

/-- An environment inside a function: the slots in `held` are local variables of their own name,
other slots are none, and any other name is outside the function, where `link` says. -/
structure Links (env : Env) (link : Name → ScopedName) (held : List Int) : Prop where
  slot : ∀ i, (env.lookup (.slot i)).scope = .local → env.lookup (.slot i) = localName i ∧ i ∈ held
  name : ∀ n : Name, n.isSlot = false → env.lookup n = link n
  outside : ∀ n : Name, n.isSlot = false → (link n).scope ≠ .local ∧ (link n).scope ≠ .argument

/-- The value of the variable that an environment has for a slot. -/
def slotValue (env : Env) (args locals : Store V) (i : Int) : Option V :=
  match (env.lookup (.slot i)).scope with
  | .local => locals (env.lookup (.slot i)).base
  | .argument => args (env.lookup (.slot i)).base
  | _ => none

/-- The variables hold the values of those slots that matter. -/
def Agree (env : Env) (args locals : Store V) (slots : Slots V) (matter : List Int) : Prop :=
  ∀ i ∈ matter, ∀ v, slots i = some v → slotValue env args locals i = some v

theorem Agree.mono {env : Env} {args locals : Store V} {slots : Slots V} {matter matter' : List Int}
    (h : Agree env args locals slots matter) (hsub : ∀ i ∈ matter', i ∈ matter) :
    Agree env args locals slots matter' :=
  fun i hi => h i (hsub i hi)

theorem slotOf_localName (i : Int) : slotOf? (localName i) = some i := by
  have hbase : (localName i).base.toList = 'l' :: 'o' :: 'c' :: (Numeral.intText i).toList := by
    rw [localName, slot_target, String.toList_append]; rfl
  unfold slotOf?
  rw [hbase]
  cases i with
  | ofNat n =>
    simp only [Numeral.intText, localName, Nat.toList_repr]
    split
    · rename_i digits heq
      have hmem : '-' ∈ Nat.toDigits 10 n := by
        simp only [List.cons.injEq, true_and] at heq
        rw [heq]; exact List.mem_cons_self
      exact absurd (Nat.isDigit_of_mem_toDigits (by omega) (by omega) hmem) (by decide)
    · rename_i digits heq
      simp only [List.cons.injEq, true_and] at heq
      rw [← heq, Nat.ofDigitChars_ten_toDigits]; rfl
    · rename_i hno
      exact absurd rfl (hno _ rfl)
  | negSucc n =>
    simp [Numeral.intText, localName, Int.negSucc_eq]

section

variable {env : Env} {link : Name → ScopedName} {held : List Int} {args locals : Store V}
variable {slots : Slots V}

/-- Script variables that are read alike: the first from the slots in scope, the second in the
function. -/
abbrev ReadAlike (I : Leaves V W) (slots : Slots V) (args locals : Store V)
    (n m : ScopedName) : Prop :=
  Follows Eq (readSlot I slots n) (readVariable I args locals m)

theorem readSlot_localName (slots : Slots V) (i : Int) :
    readSlot I slots (localName i) = given (slots i) := by
  unfold readSlot
  rw [slotOf_localName]

theorem readAlike_slot {i : Int}
    (h : ∀ v, slots i = some v → slotValue env args locals i = some v) :
    ReadAlike I slots args locals (localName i) (env.lookup (.slot i)) := by
  unfold ReadAlike
  rw [readSlot_localName]
  cases hi : slots i with
  | none => exact follows_undefined _
  | some v =>
    have hv := h v hi
    unfold slotValue at hv
    unfold readVariable
    cases hscope : (env.lookup (.slot i)).scope with
    | «local» =>
      simp only [hscope] at hv
      simp only [hv, given]
      exact follows_pure rfl
    | argument =>
      simp only [hscope] at hv
      simp only [hv, given]
      exact follows_pure rfl
    | _ => simp [hscope] at hv

theorem readAlike_name (hlinks : Links env link held) {n : Name} (hn : n.isSlot = false) :
    ReadAlike I slots args locals (link n) (env.lookup n) := by
  obtain ⟨hl, ha⟩ := hlinks.outside n hn
  have hslot : slotOf? (link n) = none := by
    unfold slotOf?
    split
    · rename_i h _; exact absurd h hl
    · rename_i h _; exact absurd h hl
    · rfl
  have hread : readSlot I slots (link n) = I.global (link n) := by
    unfold readSlot; rw [hslot]
  unfold ReadAlike
  rw [hread, hlinks.name n hn]
  unfold readVariable
  split
  · rename_i h; exact absurd h hl
  · rename_i h; exact absurd h ha
  · exact follows_refl _

/-- A variable as the direct meaning and as the script refer to it. -/
theorem readAlike_var (hlinks : Links env link held) {v : Ir.Var}
    (hagree : Agree env args locals slots v.slots) :
    ∃ n m, ReadAlike I slots args locals n m ∧ reference link v = .ref n ∧
      resolve env v = .ref m := by
  unfold reference resolve
  cases hv : v.name with
  | slot i =>
    refine ⟨_, _, readAlike_slot I (hagree i ?_), rfl, rfl⟩
    unfold Ir.Var.slots
    rw [hv]
    exact List.mem_singleton_self i
  | topLevel ns base => exact ⟨_, _, readAlike_name I hlinks rfl, rfl, rfl⟩
  | machine base index => exact ⟨_, _, readAlike_name I hlinks rfl, rfl, rfl⟩

theorem alike_var (hlinks : Links env link held) {v : Ir.Var}
    (hagree : Agree env args locals slots v.slots) :
    Alike (ReadAlike I slots args locals) Eq (reference link v) (resolve env v) := by
  obtain ⟨n, m, h, hn, hm⟩ := readAlike_var I hlinks hagree
  rw [hn, hm]
  exact .ref h

theorem alike_vars (hlinks : Links env link held) {vs : List Ir.Var}
    (hagree : Agree env args locals slots (vs.flatMap Ir.Var.slots)) :
    AllAlike (ReadAlike I slots args locals) Eq (vs.map (reference link)) (resolveAll env vs) := by
  apply AllAlike.map
  intro v hv
  exact alike_var I hlinks (hagree.mono fun i hi => List.mem_flatMap.2 ⟨v, hv, hi⟩)

/-! ## Leaves -/

/-- Expressions that are alike have the same value, over slots and in the function. -/
theorem readAlike_value {x y : Script.Expr} (h : Alike (ReadAlike I slots args locals) Eq x y) :
    Follows Eq (value I (readSlot I slots) x) (value I (readVariable I args locals) y) :=
  value_follows I (fun _ _ hnm => hnm) h

/-- **A value goes to its destination.** -/
theorem produce_follows (dest : Dest) (bound : List Int) {x y : Script.Expr}
    (h : Alike (ReadAlike I slots args locals) Eq x y) :
    Follows (Delivered dest bound locals) (produce I slots x)
      (runBlock I args locals [dest.continuation y]) := by
  rw [runBlock_singleton]
  have hvalue := readAlike_value I h
  cases dest with
  | result =>
    refine hvalue.bind fun v v' hv => follows_pure ?_
    exact ⟨locals, SameOff.refl _ _, by rw [hv]; rfl⟩
  | «variable» base =>
    refine hvalue.bind fun v v' hv => follows_pure ?_
    exact ⟨locals, SameOff.refl _ _, by rw [hv]; rfl⟩

theorem produceOk_follows (dest : Dest) (bound : List Int) {x y : Except LowerError Script.Expr}
    {block : Block} (h : Lower.SameResult (Alike (ReadAlike I slots args locals) Eq) x y)
    (hlow : (do return [dest.continuation (← y)]) = Except.ok block) :
    Follows (Delivered dest bound locals) (produceOk I slots x) (runBlock I args locals block) := by
  cases h with
  | ok h =>
    cases hlow
    exact produce_follows I dest bound h
  | error e => cases hlow

/-- A statement without a value. -/
theorem effect_follows (dest : Dest) (bound : List Int) {s t : Script.Stmt}
    (hrun : runStmt I args locals t = (do
      effect I (readVariable I args locals) t
      return .next locals))
    (h : Follows Eq (effect I (readSlot I slots) s) (effect I (readVariable I args locals) t)) :
    Follows (Delivered dest bound locals)
      (do effect I (readSlot I slots) s; return (none : Option V))
      (runBlock I args locals [t]) := by
  rw [runBlock_singleton, hrun]
  refine h.bind fun _ _ _ => follows_pure ?_
  exact ⟨locals, SameOff.refl _ _, by cases dest <;> rfl⟩

theorem callNamed_follows (hlinks : Links env link held) (dest : Dest) (bound : List Int)
    (function : Name) {vs : List Ir.Var}
    (hagree : Agree env args locals slots (vs.flatMap Ir.Var.slots)) :
    Follows (Delivered dest bound locals) (callNamed I link slots function vs)
      (runBlock I args locals
        [dest.continuation (.apply (.ref (env.lookup function)) (resolveAll env vs))]) := by
  unfold callNamed
  cases hfunction : function.isSlot with
  | true => exact follows_undefined _
  | false =>
    rw [hlinks.name function hfunction]
    exact produce_follows I dest bound (.call rfl (alike_vars I hlinks hagree))

theorem callForeign_follows (hlinks : Links env link held) (dest : Dest) (bound : List Int)
    {function : Ir.Descriptor} {vs : List Ir.Var} {block : Block}
    (hagree : Agree env args locals slots (vs.flatMap Ir.Var.slots))
    (hlow : lowerForeign function (resolveAll env vs) dest.continuation = .ok block) :
    Follows (Delivered dest bound locals) (callForeign I link slots function vs)
      (runBlock I args locals block) := by
  have hrefs : Lower.RefPairs (ReadAlike I slots args locals) (vs.map (reference link))
      (resolveAll env vs) := by
    unfold resolveAll Lower.RefPairs
    rw [List.forall₂_map_left_iff, List.forall₂_map_right_iff, List.forall₂_same]
    intro v hv
    exact readAlike_var I hlinks (hagree.mono fun i hi => List.mem_flatMap.2 ⟨v, hv, hi⟩)
  unfold callForeign
  cases Lower.lowerForeign_pair (Q := Eq) (fun _ => rfl) function hrefs with
  | value h hf hg =>
    rw [hg] at hlow
    cases hlow
    rw [hf]
    exact produce_follows I dest bound h
  | echo h hf hg =>
    rw [hg] at hlow
    cases hlow
    rw [hf]
    refine effect_follows I dest bound rfl ?_
    exact (readAlike_value I h).bind fun _ _ h => h ▸ follows_refl _
  | setItem hindex hvalue hlist hf hg =>
    rw [hg] at hlow
    cases hlow
    rw [hf]
    refine effect_follows I dest bound rfl ?_
    -- the item comes first, then the list, then the place
    refine (readAlike_value I hvalue).bind fun _ _ h => h ▸ ?_
    refine Follows.bind hlist fun _ _ h => h ▸ ?_
    exact (readAlike_value I hindex).bind fun _ _ h => h ▸ follows_refl _
  | failure e hf hg =>
    rw [hg] at hlow
    cases hlow

/-! ## Fields -/

theorem bindFields_of_notMem (first : Int) (vs : List V) {i : Int} : ∀ slots : Slots V,
    i ∉ fieldRange first vs.length → slots.bindFields first vs i = slots i := by
  induction vs generalizing first with
  | nil => intro slots _; rfl
  | cons v vs ih =>
    intro slots hi
    simp only [List.length_cons, fieldRange, List.mem_cons, not_or] at hi
    rw [Slots.bindFields, ih _ _ hi.2]
    exact if_neg hi.1

/-- Variables that are not overwritten keep holding their slots. -/
theorem Agree.sameOff (hlinks : Links env link held) {locals' : Store V} {matter bound : List Int}
    (h : Agree env args locals slots matter) (hsame : SameOff bound locals locals')
    (hkeep : ∀ j ∈ matter, j ∈ held → j ∉ bound) : Agree env args locals' slots matter := by
  intro j hj v hv
  rw [← h j hj v hv]
  unfold slotValue
  split
  · rename_i hscope
    obtain ⟨hname, hheld⟩ := hlinks.slot j hscope
    rw [hname]
    exact hsame.slot (hkeep j hj hheld)
  · rfl
  · rfl

/-- **Fields are loaded one by one**, each from the scrutinee itself: no earlier load may overwrite
it. -/
theorem loads_follow (hlinks : Links env link held) {v : Ir.Var} (slots : Slots V) :
    ∀ (count : Nat) (first k : Int) (locals : Store V),
      (0 < count → Agree env args locals slots v.slots) →
      (∀ j ∈ v.slots, j ∈ held → j ∉ fieldRange first (count - 1)) →
      Follows (fun vs flow => vs.length = count ∧ ∃ locals', flow = .next locals' ∧
          SameOff (fieldRange first count) locals locals' ∧
          ∀ (s : Slots V), ∀ i ∈ fieldRange first count,
            locals' (Name.slot i).target = s.bindFields first vs i)
        (values I (readSlot I slots) (fieldExprs (reference link v) k count))
        (runBlock I args locals (loads (resolve env v) k (fieldRange first count))) := by
  intro count
  induction count with
  | zero =>
    intro first k locals _ _
    exact follows_pure
      ⟨rfl, locals, rfl, SameOff.refl _ _, fun _ i hi => absurd hi (by simp [fieldRange])⟩
  | succ count ih =>
    intro first k locals hagree hfresh
    simp only [fieldExprs, values, fieldRange, loads, runBlock, localName, runStmt, bind_assoc,
      pure_bind]
    have halike := alike_var I hlinks (hagree (Nat.succ_pos count))
    refine (readAlike_value I (Lower.alike_field halike k)).bind ?_
    rintro x _ rfl
    -- the other fields are loaded after this one, from a scrutinee that it did not overwrite
    set locals₁ := locals.set (Name.slot first).target x
    have hsame₁ : SameOff [first] locals locals₁ :=
      (SameOff.refl _ _).set List.mem_cons_self x
    have htail := ih (first + 1) (k + 1) locals₁
      (fun hpos => Agree.sameOff hlinks (hagree (Nat.succ_pos count)) hsame₁ (by
        intro j hj hheld hmem
        have := hfresh j hj hheld
        rw [List.mem_singleton.1 hmem, Ir.mem_fieldRange] at this
        omega))
      (fun j hj hheld hmem => hfresh j hj hheld (by
        rw [Ir.mem_fieldRange] at hmem ⊢
        omega))
    rw [← bind_pure (runBlock I args locals₁
      (loads (resolve env v) (k + 1) (fieldRange (first + 1) count)))]
    refine htail.bind ?_
    rintro vs flow ⟨hlen, locals', rfl, hsame, hval⟩
    refine follows_pure ⟨by rw [List.length_cons, hlen], locals', rfl, ?_, ?_⟩
    · exact (hsame₁.mono (by simp)).trans (hsame.mono fun i hi => List.mem_cons_of_mem _ hi)
    · intro s i hi
      rw [Slots.bindFields]
      by_cases hmem : i ∈ fieldRange (first + 1) count
      · exact hval _ i hmem
      · have hi' : i = first := by
          rcases List.mem_cons.1 hi with h | h
          · exact h
          · exact absurd h hmem
        subst hi'
        rw [hsame.slot hmem, bindFields_of_notMem _ _ _ (by rw [hlen]; exact hmem)]
        simp [locals₁, Slots.bind]

/-! ## New slots -/

theorem Links.enter (h : Links env link held) (is : List Int) :
    Links (enter env is) link (is ++ held) := by
  refine ⟨?_, ?_, h.outside⟩
  · intro j hj
    rw [Lower.lookup_enter_slot] at hj ⊢
    by_cases hmem : j ∈ is
    · exact ⟨if_pos hmem, List.mem_append_left _ hmem⟩
    · rw [if_neg hmem] at hj ⊢
      exact ⟨(h.slot j hj).1, List.mem_append_right _ (h.slot j hj).2⟩
  · intro n hn
    rw [Lower.lookup_enter_name _ is hn]
    exact h.name n hn

/-- **Agreement where some slots are new.** They are held by their variables, and of the others
those that matter are not overwritten. -/
theorem Agree.enter (hlinks : Links env link held) {is matter bound : List Int}
    {locals' : Store V} {slots' : Slots V}
    (h : Agree env args locals slots (matter.filter fun j => !is.contains j))
    (hsame : SameOff bound locals locals')
    (hkeep : ∀ j ∈ matter, j ∉ is → j ∈ held → j ∉ bound)
    (hnew : ∀ i ∈ is, ∀ v, slots' i = some v → locals' (Name.slot i).target = some v)
    (hold : ∀ i, i ∉ is → slots' i = slots i) :
    Agree (enter env is) args locals' slots' matter := by
  have hafter : Agree env args locals' slots (matter.filter fun j => !is.contains j) := by
    refine h.sameOff hlinks hsame fun j hj => ?_
    obtain ⟨hmatter, hnotMem⟩ : j ∈ matter ∧ j ∉ is := by simpa using hj
    exact hkeep j hmatter hnotMem
  intro j hj v hv
  unfold slotValue
  rw [Lower.lookup_enter_slot]
  by_cases hmem : j ∈ is
  · rw [if_pos hmem]
    exact hnew j hmem v hv
  · rw [if_neg hmem]
    refine hafter j ?_ v (by rw [← hold j hmem]; exact hv)
    simp [hj, hmem]

/-- After the value of a binding its slot is bound, if there was a value. -/
theorem exists_next_of_bound {i : Int} {bound : List Int} {locals₁ : Store V}
    (hsame : SameOff bound locals locals₁) (v : Option V) :
    ∃ locals₂ : Store V, (Dest.variable (localName i).base).finish locals₁ v = .next locals₂ ∧
      SameOff (i :: bound) locals locals₂ ∧
      ∀ x, v = some x → locals₂ (Name.slot i).target = some x := by
  have hmono := hsame.mono fun j hj => List.mem_cons_of_mem i hj
  cases v with
  | none => exact ⟨locals₁, rfl, hmono, fun x hx => absurd hx (by simp)⟩
  | some x =>
    refine ⟨_, rfl, hmono.set List.mem_cons_self x, fun y hy => ?_⟩
    rw [← Option.some.inj hy]
    exact Store.set_self _ _ _

/-! ## Choices -/

theorem passes_follow {x y : Script.Expr} (h : Alike (ReadAlike I slots args locals) Eq x y) :
    Follows Eq (passes I (readSlot I slots) x) (passes I (readVariable I args locals) y) :=
  (readAlike_value I h).bind fun _ _ h => h ▸ follows_refl _

theorem runBlock_joinBranches (args locals : Store V) (branches : List Lower.Branch) :
    runBlock I args locals (joinBranches branches) =
      runArms I args locals
        (runBlock I args locals (branches.filterMap Lower.Branch.fallback?).flatten)
        (branches.filterMap Lower.Branch.arm?) := by
  refine Lower.joinBranches_cases (motive := fun b => runBlock I args locals b =
    runArms I args locals
      (runBlock I args locals (branches.filterMap Lower.Branch.fallback?).flatten)
      (branches.filterMap Lower.Branch.arm?)) branches (fun h => ?_) (fun _ h => ?_)
      (fun _ _ => ?_)
  · rw [h, runArms]
  · rw [h, runBlock_singleton, runStmt]
    rfl
  · rw [runBlock_singleton, runStmt]

end

variable {link : Name → ScopedName} {args : Store V}

theorem Delivered.mono {dest : Dest} {bound bound' : List Int} {locals : Store V} {v : Option V}
    {flow : Flow V} (h : Delivered dest bound locals v flow) (hsub : ∀ i ∈ bound, i ∈ bound') :
    Delivered dest bound' locals v flow := by
  obtain ⟨locals', hsame, hflow⟩ := h
  exact ⟨locals', hsame.mono hsub, hflow⟩

/-- What is delivered after some variables have changed. -/
theorem Delivered.after {dest : Dest} {bound : List Int} {locals locals₁ : Store V} {v : Option V}
    {flow : Flow V} (hsame : SameOff bound locals locals₁)
    (h : Delivered dest bound locals₁ v flow) : Delivered dest bound locals v flow := by
  obtain ⟨locals', hsame', hflow⟩ := h
  exact ⟨locals', hsame.trans hsame', hflow⟩

mutual

/-- **The simulation.** Wherever an expression has a meaning, its script comes to the same end in
the same world, and changes no variable but those of slots bound in the expression. -/
theorem lower_follows (e : Ir.Expr) (dest : Dest) {env : Env} {held : List Int} {locals : Store V}
    {slots : Slots V} {block : Block} (hlinks : Links env link held)
    (hkeep : e.keepsSlots held = true) (hagree : Agree env args locals slots e.freeSlots)
    (hlow : lower env dest.continuation e = .ok block) :
    Follows (Delivered dest e.boundSlots locals) (eval I link slots e)
      (runBlock I args locals block) := by
  cases e with
  | var v =>
    cases v with
    | loc i =>
      cases hlow
      exact produce_follows I dest _ (.ref (readAlike_slot I (hagree i List.mem_cons_self)))
    | glob name =>
      cases hlow
      have hnone : Agree env args locals slots (([] : List Ir.Var).flatMap Ir.Var.slots) :=
        List.forall_mem_nil _
      exact callNamed_follows I hlinks dest _ name hnone
  | app function vs tailCall =>
    cases hlow
    exact callNamed_follows I hlinks dest _ function hagree
  | bind v value body =>
    cases v with
    | glob name => cases hlow
    | loc i =>
      simp only [Ir.Expr.keepsSlots, Bool.and_eq_true, List.all_eq_true] at hkeep
      obtain ⟨⟨hkeepV, hkeepB⟩, hclash⟩ := hkeep
      obtain ⟨valueBlock, bodyBlock, hval, hbody, rfl⟩ := Lower.lower_bind_ok.1 hlow
      rw [runBlock_append]
      simp only [eval]
      have hfirst := lower_follows value (.variable (localName i).base) hlinks hkeepV
        (hagree.mono fun j hj => List.mem_append_left _ hj) hval
      refine hfirst.bind ?_
      rintro ov flow ⟨locals₁, hsame₁, rfl⟩
      obtain ⟨locals₂, hflow, hsame₂, hnew⟩ := exists_next_of_bound (i := i) hsame₁ ov
      rw [hflow]
      have hbind : Agree (enter env [i]) args locals₂ (slots.bind i ov) body.freeSlots := by
        refine Agree.enter hlinks (hagree.mono ?_) hsame₂ ?_ ?_ ?_
        · intro j hj
          exact List.mem_append_right _ (by simpa using hj)
        · -- a slot that the body reads is not bound in the value
          intro j hj hne hheld hmem
          have hkept := hclash j hheld
          simp only [Bool.or_eq_true, decide_eq_true_eq, Bool.not_eq_true', List.contains_eq_mem,
            decide_eq_false_iff_not] at hkept
          rcases List.mem_cons.1 hmem with rfl | hbound
          · exact hne List.mem_cons_self
          · rcases hkept with (rfl | hkept) | hkept
            · exact hne List.mem_cons_self
            · exact hkept hbound
            · exact hkept hj
        · intro j hj x hx
          rw [List.mem_singleton.1 hj] at hx ⊢
          exact hnew x (by rw [← hx]; exact (if_pos rfl).symm)
        · intro j hj
          exact if_neg (by simpa using hj)
      refine (lower_follows body dest (hlinks.enter [i]) hkeepB hbind hbody).mono ?_
      intro v flow hdel
      refine Delivered.after (hsame₂.mono ?_) (hdel.mono ?_)
      · intro j hj
        simp only [Ir.Expr.boundSlots, List.mem_cons, List.mem_append] at hj ⊢
        tauto
      · intro j hj
        simp only [Ir.Expr.boundSlots, List.mem_cons, List.mem_append]
        tauto
  | update v value => exact lower_follows value dest hlinks hkeep hagree hlow
  | con tag name vs reuse =>
    cases hlow
    exact produce_follows I dest _ (.list (.cons (.int tag) (alike_vars I hlinks hagree)))
  | case v alts checked shared =>
    simp only [Ir.Expr.keepsSlots, Bool.and_eq_true, decide_eq_true_eq] at hkeep
    obtain ⟨branches, halts, rfl⟩ := Lower.lower_case_ok.1 hlow
    rw [runBlock_joinBranches]
    exact alts_follow alts dest [] hlinks hkeep.2 hagree halts (fun _ hi => hi)
      (follows_pure ⟨locals, SameOff.refl _ _, by cases dest <;> rfl⟩)
      (.inl ⟨rfl, rfl, hkeep.1⟩)
  | proj v index =>
    cases hlow
    exact produce_follows I dest _ (Lower.alike_field (alike_var I hlinks hagree) index)
  | const c =>
    exact produceOk_follows I dest _ (Lower.lowerConst_alike c) hlow
  | foreign function vs result =>
    have hvs : Agree env args locals slots ((vs.map Ir.ForeignArg.var).flatMap Ir.Var.slots) := by
      rw [List.flatMap_map]; exact hagree
    refine callForeign_follows I hlinks dest _ hvs ?_
    rw [resolveAll, List.map_map]; exact hlow
  | op op vs =>
    exact produceOk_follows I dest _
      (Lower.lowerPrimitive_alike (fun _ => rfl) op (alike_vars I hlinks hagree)) hlow
  | nothing =>
    cases hlow
    exact produce_follows I dest _ (.int 0)
  | error message =>
    cases hlow
    rw [runBlock_singleton]
    have hrun : runStmt I args locals (.command "throw" (.str message)) = (do
        throw (← I.str message)) := by
      simp only [runStmt, effect, value, bind_assoc]
      rfl
    rw [hrun]
    exact (follows_refl _).bind fun _ _ h => h ▸ follows_throw _

/-- The alternatives of a choice, when the defaults before them are the block `prior`. -/
theorem alts_follow (alts : List Ir.Alt) (dest : Dest) (prior : Block) {env : Env}
    {held bound : List Int} {locals : Store V} {slots : Slots V} {v : Ir.Var}
    {branches : List Lower.Branch} {default? : Option (Act W V (Option V))}
    (hlinks : Links env link held) (hkeep : Ir.altsKeepSlots held v.slots alts = true)
    (hagree : Agree env args locals slots (v.slots ++ Ir.altsFreeSlots alts))
    (hlow : lowerAlts (resolve env v) env dest.continuation alts = .ok branches)
    (hbound : ∀ i ∈ Ir.altsBoundSlots alts, i ∈ bound)
    (hprior : Follows (Delivered dest bound locals) (default?.getD (pure none))
      (runBlock I args locals prior))
    (hcount : default? = none ∧ prior = [] ∧ Lower.countDefaults alts ≤ 1 ∨
      Lower.countDefaults alts = 0) :
    Follows (Delivered dest bound locals) (evalAlts I link slots (reference link v) default? alts)
      (runArms I args locals
        (runBlock I args locals (prior ++ (branches.filterMap Lower.Branch.fallback?).flatten))
        (branches.filterMap Lower.Branch.arm?)) := by
  cases alts with
  | nil =>
    cases hlow
    simpa [evalAlts, runArms] using hprior
  | cons alt rest =>
    obtain ⟨branch, branches, halt, hrest, rfl⟩ := Lower.lowerAlts_cons_ok.1 hlow
    simp only [Ir.altsKeepSlots, Bool.and_eq_true] at hkeep
    have hscrutinee : Agree env args locals slots v.slots :=
      hagree.mono fun j hj => List.mem_append_left _ hj
    have hagreeAlt : Agree env args locals slots alt.freeSlots :=
      hagree.mono fun j hj => List.mem_append_right _ (List.mem_append_left _ hj)
    have hagreeRest : Agree env args locals slots (v.slots ++ Ir.altsFreeSlots rest) := by
      refine hagree.mono fun j hj => ?_
      rcases List.mem_append.1 hj with h | h
      · exact List.mem_append_left _ h
      · exact List.mem_append_right _ (List.mem_append_right _ h)
    have hboundAlt : ∀ i ∈ alt.boundSlots, i ∈ bound :=
      fun i hi => hbound i (List.mem_append_left _ hi)
    have hboundRest : ∀ i ∈ Ir.altsBoundSlots rest, i ∈ bound :=
      fun i hi => hbound i (List.mem_append_right _ hi)
    cases alt with
    | const c body =>
      obtain ⟨literal, bodyBlock, hc, hbody, rfl⟩ := Lower.lowerAlt_const_ok.1 halt
      have hliteral : Alike (ReadAlike I slots args locals) Eq literal literal :=
        Lower.alike_literal hc
      simp only [evalAlts, hc]
      refine (passes_follow I (.binary .equals (alike_var I hlinks hscrutinee) hliteral)).bind ?_
      rintro passed _ rfl
      cases passed with
      | true =>
        exact (lower_follows body dest hlinks hkeep.1 hagreeAlt hbody).mono
          fun _ _ h => h.mono hboundAlt
      | false =>
        exact alts_follow rest dest prior hlinks hkeep.2 hagreeRest hrest hboundRest hprior hcount
    | con first tag name fields body =>
      obtain ⟨bodyBlock, hbody, rfl⟩ := Lower.lowerAlt_con_ok halt
      simp only [Ir.Alt.keepsSlots, Bool.and_eq_true, List.all_eq_true] at hkeep
      simp only [evalAlts]
      refine (passes_follow I (.binary .equals
        (Lower.alike_field (alike_var I hlinks hscrutinee) 0) (.int tag))).bind ?_
      rintro passed _ rfl
      cases passed with
      | false =>
        exact alts_follow rest dest prior hlinks hkeep.2 hagreeRest hrest hboundRest hprior hcount
      | true =>
        rw [runBlock_append]
        have hfresh : ∀ j ∈ v.slots, j ∈ held → j ∉ fieldRange first (fields.length - 1) := by
          intro j hj hheld
          simpa [hheld] using hkeep.1.1 j hj
        refine (loads_follow I hlinks slots fields.length first 1 locals
          (fun _ => hscrutinee) hfresh).bind ?_
        rintro vs flow ⟨hlen, locals₁, rfl, hsame, hnew⟩
        have hbind : Agree (enter env (fieldRange first fields.length)) args locals₁
            (slots.bindFields first vs) body.freeSlots := by
          refine Agree.enter hlinks hagreeAlt hsame (fun j _ hnotMem _ => hnotMem) ?_ ?_
          · intro j hj x hx
            rw [hnew slots j hj, hx]
          · intro j hj
            exact bindFields_of_notMem _ _ _ (by rw [hlen]; exact hj)
        refine (lower_follows body dest (hlinks.enter _) hkeep.1.2 hbind hbody).mono ?_
        intro o flow hdel
        refine Delivered.after (hsame.mono fun j hj => ?_) (hdel.mono fun j hj => ?_)
        · exact hboundAlt j (List.mem_append_left _ hj)
        · exact hboundAlt j (List.mem_append_right _ hj)
    | default body =>
      obtain ⟨bodyBlock, hbody, rfl⟩ := Lower.lowerAlt_default_ok.1 halt
      -- this is the only default
      simp only [Lower.countDefaults] at hcount
      obtain ⟨hnone, hnil, hone⟩ : default? = none ∧ prior = [] ∧ Lower.countDefaults rest = 0 := by
        rcases hcount with ⟨h₁, h₂, h₃⟩ | h
        · exact ⟨h₁, h₂, by omega⟩
        · omega
      subst hnone hnil
      simp only [evalAlts]
      refine alts_follow rest dest bodyBlock hlinks hkeep.2 hagreeRest hrest hboundRest ?_
        (.inr hone)
      exact (lower_follows body dest hlinks hkeep.1 hagreeAlt hbody).mono
        fun _ _ h => h.mono hboundAlt

end

end Vimgen.Meaning
