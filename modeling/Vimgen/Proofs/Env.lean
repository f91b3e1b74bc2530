import Vimgen.Env

/-!
# Looking up names

What an environment says of a name after a binding, `lookup_extend`, and after many bindings at
once, `lookup_extendAll`.
-/

namespace Vimgen.Env

open Script (ScopedName)

theorem find?_bindIn (name n : Name) (target : ScopedName) (bindings : List (Name × ScopedName)) :
    Env.find? ⟨bindIn name target bindings⟩ n =
      if n = name then some target else Env.find? ⟨bindings⟩ n := by
  induction bindings with
  | nil =>
    by_cases h : n = name
    · simp [bindIn, find?, h]
    · simp [bindIn, find?, h, Ne.symm h]
  | cons p rest ih =>
    obtain ⟨m, s⟩ := p
    simp only [find?] at ih ⊢
    unfold bindIn
    by_cases hm : m = name
    · subst hm
      by_cases h : n = m
      · simp [h]
      · simp [h, Ne.symm h]
    · by_cases hn : m = n
      · subst hn
        simp [hm]
      · simp only [hm, if_false, List.find?_cons, hn, decide_false]
        exact ih

/-- **One more binding.** -/
theorem find?_extend (env : Env) (name n : Name) (target : ScopedName) :
    (env.extend name target).find? n = if n = name then some target else env.find? n :=
  find?_bindIn name n target env.bindings

theorem lookup_extend (env : Env) (name n : Name) (target : ScopedName) :
    (env.extend name target).lookup n = if n = name then target else env.lookup n := by
  unfold lookup
  rw [find?_extend]
  by_cases h : n = name <;> simp [h]

/-- **Many bindings**, each name standing for something of its own. -/
theorem lookup_extendAll (f : Name → ScopedName) (ns : List Name) (n : Name) : ∀ env : Env,
    (env.extendAll (ns.map fun m => (m, f m))).lookup n = if n ∈ ns then f n else env.lookup n := by
  induction ns with
  | nil => intro env; rfl
  | cons m ns ih =>
    intro env
    have hstep : env.extendAll ((m :: ns).map fun m => (m, f m)) =
        (env.extend m (f m)).extendAll (ns.map fun m => (m, f m)) := rfl
    rw [hstep, ih, lookup_extend]
    by_cases hn : n ∈ ns
    · rw [if_pos hn, if_pos (List.mem_cons_of_mem _ hn)]
    · by_cases hm : n = m
      · rw [if_neg hn, if_pos hm, if_pos (hm ▸ List.mem_cons_self), hm]
      · rw [if_neg hn, if_neg hm, if_neg (by simp [hm, hn])]

end Vimgen.Env
