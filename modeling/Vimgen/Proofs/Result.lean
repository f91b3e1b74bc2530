import Mathlib.Data.List.Forall2

/-!
# Results that may be failures

When a computation in several steps succeeds, all its steps do: `bind_eq_ok` for two steps, and
`mapM_eq_ok` for one step for each item of a list. When it fails, its failure is that of the first
step that fails: `errorOf?_bind`.
-/

namespace Vimgen

variable {ε α β : Type}

theorem bind_eq_ok {x : Except ε α} {f : α → Except ε β} {b : β} :
    (x >>= f) = .ok b ↔ ∃ a, x = .ok a ∧ f a = .ok b := by
  cases x with
  | error e =>
    constructor
    · intro h; cases h
    · rintro ⟨_, h, _⟩; cases h
  | ok a =>
    constructor
    · intro h; exact ⟨a, rfl, h⟩
    · rintro ⟨_, h, hf⟩; cases h; exact hf

theorem pure_eq_ok {a b : α} : (pure a : Except ε α) = .ok b ↔ a = b := by
  constructor
  · intro h; cases h; rfl
  · rintro rfl; rfl

theorem mapM_eq_ok {f : α → Except ε β} {xs : List α} {ys : List β} :
    xs.mapM f = .ok ys ↔ List.Forall₂ (fun x y => f x = .ok y) xs ys := by
  induction xs generalizing ys with
  | nil =>
    rw [List.mapM_nil, pure_eq_ok]
    constructor
    · rintro rfl; exact .nil
    · intro h; cases h; rfl
  | cons x xs ih =>
    rw [List.mapM_cons, bind_eq_ok]
    constructor
    · rintro ⟨y, hy, h⟩
      obtain ⟨zs, hzs, h⟩ := bind_eq_ok.1 h
      rw [← pure_eq_ok.1 h]
      exact .cons hy (ih.1 hzs)
    · intro h
      cases h with
      | cons hy hys => exact ⟨_, hy, bind_eq_ok.2 ⟨_, ih.2 hys, rfl⟩⟩

/-- Every item of the second list is related to some item of the first. -/
theorem exists_of_forall₂ {R : α → β → Prop} {xs : List α} {ys : List β}
    (h : List.Forall₂ R xs ys) : ∀ y ∈ ys, ∃ x ∈ xs, R x y := by
  induction h with
  | nil => intro y hy; cases hy
  | cons hx _ ih =>
    intro y hy
    rcases List.mem_cons.1 hy with rfl | hy
    · exact ⟨_, List.mem_cons_self, hx⟩
    · obtain ⟨x, hmem, hx⟩ := ih y hy
      exact ⟨x, List.mem_cons_of_mem _ hmem, hx⟩

/-- Every result comes from some item. -/
theorem exists_of_mapM {f : α → Except ε β} {xs : List α} {ys : List β} (h : xs.mapM f = .ok ys) :
    ∀ y ∈ ys, ∃ x ∈ xs, f x = .ok y :=
  exists_of_forall₂ (mapM_eq_ok.1 h)

/-- A step after each item is a step after all of them. -/
theorem mapM_eq_map {γ : Type} {f : α → Except ε γ} {g : α → Except ε β} {h : β → γ} {xs : List α}
    (hf : ∀ x ∈ xs, f x = (g x).map h) : xs.mapM f = (xs.mapM g).map (List.map h) := by
  induction xs with
  | nil => rfl
  | cons x xs ih =>
    obtain ⟨hx, hxs⟩ := List.forall_mem_cons.1 hf
    rw [List.mapM_cons, List.mapM_cons, hx, ih hxs]
    cases g x with
    | error e => rfl
    | ok y =>
      cases xs.mapM g with
      | error e => rfl
      | ok ys => rfl

/-- How a computation fails, if it does. -/
def errorOf? : Except ε α → Option ε
  | .ok _ => none
  | .error e => some e

theorem errorOf?_eq_some {x : Except ε α} {e : ε} : errorOf? x = some e ↔ x = .error e := by
  cases x with
  | error e' =>
    constructor
    · intro h; cases h; rfl
    · intro h; cases h; rfl
  | ok a =>
    constructor
    · intro h; cases h
    · intro h; cases h

theorem errorOf?_eq_none {x : Except ε α} : errorOf? x = none ↔ ∃ a, x = .ok a := by
  cases x with
  | error e =>
    constructor
    · intro h; cases h
    · rintro ⟨_, h⟩; cases h
  | ok a => exact ⟨fun _ => ⟨a, rfl⟩, fun _ => rfl⟩

/-- **Of two steps**, the second fails in one way whatever the first one gives. -/
theorem errorOf?_bind {x : Except ε α} {f : α → Except ε β} {second : Option ε}
    (h : ∀ a, errorOf? (f a) = second) : errorOf? (x >>= f) = (errorOf? x).or second := by
  cases x with
  | error e => rfl
  | ok a => exact h a

/-- A step that cannot fail leaves the failure as it is. -/
theorem errorOf?_map (x : Except ε α) (f : α → β) :
    errorOf? (x >>= fun a => pure (f a)) = errorOf? x := by
  cases x with
  | error e => rfl
  | ok a => rfl

end Vimgen
