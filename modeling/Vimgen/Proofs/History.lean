import Mathlib.Data.Finset.Card
import Mathlib.Data.List.Forall2
import Mathlib.Data.List.Induction
import Vimgen.Proofs.Env

/-!
# Environments and their histories

An environment has one entry for each name; its history has every binding that was made on the way
to it, oldest first. Environments grow like a tree: each is an extension of an earlier one, and its
history is that of the earlier one with the new bindings behind.

* `Tracks`: the entries of an environment stand in the order of the first bindings of its history
  and hold the latest ones. One more binding keeps this (`Tracks.extend`), and so do many
  (`Tracks.extendAll`).
* `forall₂_grow`: two trees that grow by the same steps stay related from their roots on.
* `grown_reflects_histories`: so every environment of a tree answers as **the latest binding of its
  history** says, and later steps leave it as it is.
-/

namespace Vimgen.Env

open Script (ScopedName)

/-! ## The names of an environment -/

/-- The bound names, in the order of the entries. -/
def names (env : Env) : List Name := env.bindings.map Prod.fst

theorem map_fst_bindIn (name : Name) (target : ScopedName) (bindings : List (Name × ScopedName)) :
    (bindIn name target bindings).map Prod.fst =
      if name ∈ bindings.map Prod.fst then bindings.map Prod.fst
      else bindings.map Prod.fst ++ [name] := by
  induction bindings with
  | nil => rfl
  | cons p rest ih =>
    obtain ⟨m, s⟩ := p
    unfold bindIn
    by_cases hm : m = name
    · simp [hm]
    · simp only [hm, Ne.symm hm, if_false, List.map_cons, List.mem_cons, false_or, ih]
      split
      · rfl
      · rfl

/-- **A name keeps its place** when it is bound again, and a new one comes last. -/
theorem names_extend (env : Env) (name : Name) (target : ScopedName) :
    (env.extend name target).names =
      if name ∈ env.names then env.names else env.names ++ [name] :=
  map_fst_bindIn name target env.bindings

theorem contains_iff_mem_names (env : Env) (n : Name) : env.contains n = true ↔ n ∈ env.names := by
  simp [contains, find?, names]

theorem find?_of_mem {env : Env} (hnodup : env.names.Nodup) {n : Name} {target : ScopedName}
    (h : (n, target) ∈ env.bindings) : env.find? n = some target := by
  obtain ⟨bindings⟩ := env
  induction bindings with
  | nil => cases h
  | cons p rest ih =>
    obtain ⟨hfresh, hrest⟩ := List.nodup_cons.1 hnodup
    rcases List.mem_cons.1 h with rfl | h
    · simp [find?]
    · have hne : p.1 ≠ n := fun he => hfresh (he ▸ List.mem_map_of_mem h)
      simpa [find?, hne] using ih hrest h

/-- Without repetitions, the entries are the names with what they stand for. -/
theorem bindings_eq_map_names {env : Env} (hnodup : env.names.Nodup) :
    env.bindings = env.names.map fun n => (n, env.lookup n) := by
  have hentry : ∀ p ∈ env.bindings, (p.1, env.lookup p.1) = p := by
    intro p hp
    rw [lookup, find?_of_mem hnodup hp, Option.getD_some]
  rw [names, List.map_map]
  exact (List.map_id' env.bindings).symm.trans
    (List.map_congr_left fun p hp => (hentry p hp).symm)

/-- **Binding many names is binding one after the other.** -/
theorem extendAll_eq_foldl (env : Env) (pairs : List (Name × ScopedName)) :
    env.extendAll pairs = pairs.foldl (fun e p => e.extend p.1 p.2) env := by
  induction pairs generalizing env with
  | nil => rfl
  | cons p pairs ih => exact ih (env.extend p.1 p.2)

/-! ## Histories -/

/-- The bindings made on the way to an environment, oldest first. -/
abbrev History := List (Name × ScopedName)

namespace History

/-- The names bound in a history, as often as they are bound. -/
def names (history : History) : List Name := history.map Prod.fst

/-- The names bound in a history, each where it is bound first. -/
def firsts (history : History) : List Name := history.names.eraseDups

/-- What the latest binding of a name says. -/
def latest? (history : History) (n : Name) : Option ScopedName :=
  (history.findRev? fun p => p.1 = n).map Prod.snd

theorem mem_firsts {history : History} {n : Name} : n ∈ history.firsts ↔ n ∈ history.names :=
  List.mem_eraseDups

theorem names_concat (history : History) (name : Name) (target : ScopedName) :
    names (history ++ [(name, target)]) = history.names ++ [name] := by
  simp [names]

theorem firsts_concat (history : History) (name : Name) (target : ScopedName) :
    firsts (history ++ [(name, target)]) =
      if name ∈ history.names then history.firsts else history.firsts ++ [name] := by
  rw [firsts, names_concat, List.eraseDups_append]
  by_cases h : name ∈ history.names
  · simp [List.removeAll, h, firsts]
  · simp [List.removeAll, h, firsts, List.eraseDups_cons]

theorem latest?_concat (history : History) (name n : Name) (target : ScopedName) :
    latest? (history ++ [(name, target)]) n =
      if n = name then some target else history.latest? n := by
  unfold latest?
  rw [List.findRev?_eq_find?_reverse, List.findRev?_eq_find?_reverse, List.reverse_concat,
    List.find?_cons]
  by_cases h : n = name
  · simp [h]
  · simp [h, Ne.symm h]

/-- The first binding of each name comes before those of the names behind it. -/
theorem firsts_ordered (history : History) :
    history.firsts.Pairwise fun m n => history.names.idxOf m < history.names.idxOf n := by
  induction history using List.reverseRecOn with
  | nil => exact .nil
  | append_singleton history p ih =>
    obtain ⟨name, target⟩ := p
    rw [firsts_concat, names_concat]
    -- a further binding moves the first one of no name that had one before
    have hold : ∀ n ∈ firsts history, (names history ++ [name]).idxOf n = (names history).idxOf n :=
      fun n hn => by rw [List.idxOf_append, if_pos (mem_firsts.1 hn)]
    have hpairs : (firsts history).Pairwise fun m n =>
        (names history ++ [name]).idxOf m < (names history ++ [name]).idxOf n :=
      ih.imp_of_mem fun hm hn hlt => by rwa [hold _ hm, hold _ hn]
    by_cases h : name ∈ names history
    · rwa [if_pos h]
    · rw [if_neg h, List.pairwise_append]
      refine ⟨hpairs, List.pairwise_singleton _ _, fun m hm n hn => ?_⟩
      obtain rfl := List.mem_singleton.1 hn
      have hlt := List.idxOf_lt_length_iff.2 (mem_firsts.1 hm)
      rw [hold m hm, List.idxOf_append, if_neg h]
      omega

theorem nodup_firsts (history : History) : history.firsts.Nodup :=
  history.firsts_ordered.imp fun hlt heq => by
    rw [heq] at hlt
    exact Nat.lt_irrefl _ hlt

theorem length_firsts (history : History) :
    history.firsts.length = history.names.toFinset.card := by
  rw [← List.toFinset_card_of_nodup history.nodup_firsts]
  congr 1
  ext n
  rw [List.mem_toFinset, List.mem_toFinset, mem_firsts]

end History

/-! ## What an environment keeps of its history -/

/-- **An environment reflects a history.** A name stands for what its latest binding says and is
global without one; exactly the names with a binding are bound, and the size counts each of them
once; the entries stand in the order of the first bindings, strictly, so that no name has two. -/
structure Reflects (env : Env) (history : History) : Prop where
  lookup : ∀ n, env.lookup n = (history.latest? n).getD ⟨.global, n.target⟩
  contains : ∀ n, env.contains n = true ↔ n ∈ history.names
  size : env.size = history.names.toFinset.card
  bindings : env.bindings = history.firsts.map fun n => (n, env.lookup n)
  ordered : env.names.Pairwise fun m n => history.names.idxOf m < history.names.idxOf n
  inspect : env.inspect = "Environment(\x7b" ++ String.intercalate ", "
    (history.firsts.map fun n => n.display ++ ": " ++ (env.lookup n).text) ++ "\x7d)"

/-- The entries stand in the order of the first bindings and hold the latest ones. -/
structure Tracks (env : Env) (history : History) : Prop where
  names : env.names = history.firsts
  found : ∀ n, env.find? n = history.latest? n

theorem tracks_empty : Tracks empty [] := ⟨rfl, fun _ => rfl⟩

namespace Tracks

variable {env : Env} {history : History}

theorem extend (h : Tracks env history) (name : Name) (target : ScopedName) :
    Tracks (env.extend name target) (history ++ [(name, target)]) where
  names := by
    rw [names_extend, History.firsts_concat, h.names]
    simp only [History.mem_firsts]
  found n := by rw [find?_extend, History.latest?_concat, h.found]

theorem extendAll (h : Tracks env history) (pairs : List (Name × ScopedName)) :
    Tracks (env.extendAll pairs) (history ++ pairs) := by
  -- each pair moves on both the environment and the history, so both vary in the induction
  induction pairs generalizing env history with
  | nil => rwa [List.append_nil]
  | cons p pairs ih =>
    have hrest := ih (h.extend p.1 p.2)
    rwa [List.append_assoc] at hrest

theorem bindings_eq (h : Tracks env history) :
    env.bindings = history.firsts.map fun n => (n, env.lookup n) := by
  rw [← h.names]
  exact bindings_eq_map_names (h.names ▸ history.nodup_firsts)

theorem reflects (h : Tracks env history) : Reflects env history where
  lookup n := by rw [Env.lookup, h.found]
  contains n := by rw [contains_iff_mem_names, h.names, History.mem_firsts]
  size := by
    have hsize : env.names.length = env.size := List.length_map _
    rw [← hsize, h.names, History.length_firsts]
  bindings := h.bindings_eq
  ordered := h.names ▸ history.firsts_ordered
  inspect := by
    unfold Env.inspect
    rw [h.bindings_eq, List.map_map]
    rfl

end Tracks

/-! ## Trees of environments -/

/-- How one environment is made from another. -/
inductive Extension where
  | one (name : Name) (target : ScopedName)
  | many (pairs : List (Name × ScopedName))

namespace Extension

/-- The environment that an extension makes. -/
def apply : Extension → Env → Env
  | .one name target, env => env.extend name target
  | .many pairs, env => env.extendAll pairs

/-- The bindings of an extension. -/
def bindings : Extension → History
  | .one name target => [(name, target)]
  | .many pairs => pairs

end Extension

theorem Tracks.apply {env : Env} {history : History} (h : Tracks env history) (x : Extension) :
    Tracks (x.apply env) (history ++ x.bindings) := by
  cases x with
  | one name target => exact h.extend name target
  | many pairs => exact h.extendAll pairs

/-- A step in the growth of a tree: an extension of what has the number `parent`. -/
structure Growth where
  parent : Nat
  extension : Extension

section Grow

variable {α β : Type} {f : Extension → α → α} {g : Extension → β → β}

/-- One more step. What it makes gets the next number; a parent that is not there makes nothing. -/
def sprout (f : Extension → α → α) (made : List α) (step : Growth) : List α :=
  made ++ (made[step.parent]?.map (f step.extension)).toList

/-- All that some steps make, by number, from a root with the number 0. -/
def grow (f : Extension → α → α) (root : α) (steps : List Growth) : List α :=
  steps.foldl (sprout f) [root]

theorem made_isPrefix_foldl (steps : List Growth) (made : List α) :
    made <+: steps.foldl (sprout f) made := by
  induction steps generalizing made with
  | nil => exact List.prefix_rfl
  | cons step steps ih => exact (List.prefix_append _ _).trans (ih _)

/-- **What has been made stays as it is.** -/
theorem grow_isPrefix_append (root : α) (steps later : List Growth) :
    grow f root steps <+: grow f root (steps ++ later) := by
  rw [grow, grow, List.foldl_append]
  exact made_isPrefix_foldl later _

variable {R : α → β → Prop}

theorem forall₂_sprout (hstep : ∀ x a b, R a b → R (f x a) (g x b)) {as : List α} {bs : List β}
    (h : List.Forall₂ R as bs) (step : Growth) :
    List.Forall₂ R (sprout f as step) (sprout g bs step) := by
  unfold sprout
  -- both trees have the same numbers, so the parent is there in both of them or in neither
  by_cases hi : step.parent < as.length
  · have hi' : step.parent < bs.length := h.length_eq ▸ hi
    have hnew : R (f step.extension as[step.parent]) (g step.extension bs[step.parent]) :=
      hstep step.extension _ _ (h.get hi hi')
    rw [List.getElem?_eq_getElem hi, List.getElem?_eq_getElem hi']
    exact List.rel_append h (.cons hnew .nil)
  · have hi' : bs.length ≤ step.parent := h.length_eq ▸ Nat.le_of_not_lt hi
    rw [List.getElem?_eq_none (Nat.le_of_not_lt hi), List.getElem?_eq_none hi']
    exact List.rel_append h .nil

/-- **Two trees that grow alike stay related**, if each extension keeps the relation. -/
theorem forall₂_grow (hstep : ∀ x a b, R a b → R (f x a) (g x b)) {a : α} {b : β} (hroot : R a b)
    (steps : List Growth) : List.Forall₂ R (grow f a steps) (grow g b steps) := by
  have hrun : ∀ {as : List α} {bs : List β}, List.Forall₂ R as bs →
      List.Forall₂ R (steps.foldl (sprout f) as) (steps.foldl (sprout g) bs) := by
    induction steps with
    | nil => exact id
    | cons step steps ih => exact fun h => ih (forall₂_sprout hstep h step)
  exact hrun (.cons hroot .nil)

end Grow

/-- The environments of a tree that grows from the empty one. -/
def grown (steps : List Growth) : List Env := grow Extension.apply empty steps

/-- Their histories: that of the parent, and the new bindings behind it. -/
def histories (steps : List Growth) : List History :=
  grow (fun x history => history ++ x.bindings) [] steps

/-- **Environments against their histories.** However a tree of environments grows, each of them
reflects its history, no later step changes it, and many bindings at once are the same bindings
one after the other. -/
theorem grown_reflects_histories (steps : List Growth) :
    List.Forall₂ Reflects (grown steps) (histories steps) ∧
    (∀ later, grown steps <+: grown (steps ++ later)) ∧
    ∀ (env : Env) (pairs : List (Name × ScopedName)),
      env.extendAll pairs = pairs.foldl (fun e p => e.extend p.1 p.2) env := by
  have htracks : List.Forall₂ Tracks (grown steps) (histories steps) :=
    forall₂_grow (fun x _ _ h => h.apply x) tracks_empty steps
  exact ⟨htracks.imp fun _ _ h => h.reflects, fun later => grow_isPrefix_append _ steps later,
    extendAll_eq_foldl⟩

/-- An argument that is bound again stays in front of the slot behind it, and what is made from the
empty environment afterwards has its own binding only. -/
example :
    (grown [⟨0, .many [(.slot 0, ⟨.argument, "loc0"⟩), (.slot 1, ⟨.local, "loc1"⟩)]⟩,
        ⟨1, .one (.slot 0) ⟨.local, "loc0"⟩⟩, ⟨0, .one (.slot 1) ⟨.local, "loc1"⟩⟩]).map bindings =
      [[], [(.slot 0, ⟨.argument, "loc0"⟩), (.slot 1, ⟨.local, "loc1"⟩)],
        [(.slot 0, ⟨.local, "loc0"⟩), (.slot 1, ⟨.local, "loc1"⟩)],
        [(.slot 1, ⟨.local, "loc1"⟩)]] := by
  decide

end Vimgen.Env
