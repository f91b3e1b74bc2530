import Vimgen.Lower.Trace

/-!
# Slots of expressions

`Expr.boundSlots` are the slots that a binding or an alternative somewhere in an expression binds,
and `Expr.freeSlots` those it reads from outside. A slot is spelled as a script variable, and
`slot_target_injective` says that the spelling tells slots apart.
-/

namespace Vimgen.Ir

/-- The slot of a variable that is one. -/
def Var.slots (v : Var) : List Int :=
  match v.name with
  | .slot i => [i]
  | _ => []

/-- The slots of `count` fields from `first` on. -/
def fieldRange (first : Int) : Nat → List Int
  | 0 => []
  | count + 1 => first :: fieldRange (first + 1) count

mutual

/-- The slots that an expression binds, anywhere in it. -/
def Expr.boundSlots : Expr → List Int
  | .bind (.loc i) value body => i :: (value.boundSlots ++ body.boundSlots)
  | .bind (.glob _) value body => value.boundSlots ++ body.boundSlots
  | .update _ value => value.boundSlots
  | .case _ alts _ _ => altsBoundSlots alts
  | _ => []

/-- The slots that an alternative binds, those of its fields among them. -/
def Alt.boundSlots : Alt → List Int
  | .const _ body => body.boundSlots
  | .con first _ _ fields body => fieldRange first fields.length ++ body.boundSlots
  | .default body => body.boundSlots

def altsBoundSlots : List Alt → List Int
  | [] => []
  | alt :: rest => alt.boundSlots ++ altsBoundSlots rest

end

mutual

/-- The slots that an expression reads and does not bind itself. -/
def Expr.freeSlots : Expr → List Int
  | .var v => v.slots
  | .app _ args _ => args.flatMap Var.slots
  | .bind (.loc i) value body => value.freeSlots ++ body.freeSlots.filter (· ≠ i)
  | .bind (.glob _) value body => value.freeSlots ++ body.freeSlots
  | .update _ value => value.freeSlots
  | .con _ _ args _ => args.flatMap Var.slots
  | .case scrutinee alts _ _ => scrutinee.slots ++ altsFreeSlots alts
  | .proj v _ => v.slots
  | .const _ => []
  | .foreign _ args _ => args.flatMap fun a => a.var.slots
  | .op _ args => args.flatMap Var.slots
  | .nothing => []
  | .error _ => []

/-- The slots that an alternative reads and does not bind itself. -/
def Alt.freeSlots : Alt → List Int
  | .const _ body => body.freeSlots
  | .con first _ _ fields body =>
    body.freeSlots.filter fun i => !(fieldRange first fields.length).contains i
  | .default body => body.freeSlots

def altsFreeSlots : List Alt → List Int
  | [] => []
  | alt :: rest => alt.freeSlots ++ altsFreeSlots rest

end

theorem mem_fieldRange {first i : Int} {count : Nat} :
    i ∈ fieldRange first count ↔ first ≤ i ∧ i < first + count := by
  induction count generalizing first with
  | zero => simp only [fieldRange, List.not_mem_nil, false_iff]; omega
  | succ count ih =>
    simp only [fieldRange, List.mem_cons]
    rw [ih]
    omega

end Vimgen.Ir

namespace Vimgen

/-! ## Spelling -/

theorem slot_target (i : Int) : (Name.slot i).target = "loc" ++ Numeral.intText i := rfl

/-- **Different slots are spelled differently.** -/
theorem intText_injective {i j : Int} (h : Numeral.intText i = Numeral.intText j) : i = j := by
  have digits : ∀ {n m : Nat}, n.repr = m.repr → n = m := by
    intro n m hnm
    have := congrArg (fun s => Nat.ofDigitChars 10 s.toList 0) hnm
    simpa using this
  -- a minus sign is no digit
  have sign : ∀ (n m : Nat), n.repr ≠ "-" ++ m.repr := by
    intro n m hnm
    have hmem : '-' ∈ n.repr.toList := by rw [hnm]; simp
    rw [Nat.toList_repr] at hmem
    have := Nat.isDigit_of_mem_toDigits (by omega) (by omega) hmem
    exact absurd this (by decide)
  cases i with
  | ofNat n =>
    cases j with
    | ofNat m => exact congrArg _ (digits h)
    | negSucc m => exact absurd h (sign n (m + 1))
  | negSucc n =>
    cases j with
    | ofNat m => exact absurd h.symm (sign m (n + 1))
    | negSucc m =>
      have := congrArg String.toList h
      simp only [Numeral.intText, String.toList_append, List.append_cancel_left_eq] at this
      have := digits (String.toList_inj.1 this)
      congr 1
      omega

theorem slot_target_injective {i j : Int} (h : (Name.slot i).target = (Name.slot j).target) :
    i = j := by
  rw [slot_target, slot_target] at h
  have := congrArg String.toList h
  simp only [String.toList_append, List.append_cancel_left_eq] at this
  exact intText_injective (String.toList_inj.1 this)

end Vimgen
