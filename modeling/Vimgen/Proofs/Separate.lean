import Mathlib.Data.List.FinRange
import Vimgen.Proofs.Linking
import Vimgen.Proofs.Renaming
import Vimgen.Proofs.Unsupported

/-!
# Definitions are lowered one by one

All that the definitions of a program have to do with each other is which names are defined. So a
program is lowered if and only if each of its definitions is, whatever the others are:
`lowerProgram_succeeds_iff`.

* `lowerProgram_append`: **separate compilation**. Putting two lists of definitions together changes
  nothing in the functions of either but that names defined in the other are now functions of the
  script.
* `lowerProgram_permuted`: **the order of definitions is irrelevant**. Permuting them permutes their
  functions, and each function stays as it is.
-/

namespace Vimgen.Lower

open Ir (fieldRange)
open Script (Block ScopedName Stmt)

variable {env : Env} {ds es : List Ir.Definition} {d : Ir.Definition}

/-! ## The functions of a script -/

/-- A script is the functions of the definitions and a call of the entry point. -/
theorem lowerProgram_eq_ok_iff {script : Script.Program} :
    lowerProgram ds = .ok script ↔ ∃ functions,
      List.Forall₂ (fun d s => lowerDefinition (globalEnv ds) d = .ok s) ds functions ∧
        script = ⟨functions ++ [.call entryName []]⟩ := by
  rw [lowerProgram, bind_eq_ok]
  constructor
  · rintro ⟨functions, hfunctions, h⟩
    cases h
    exact ⟨functions, lowerDefinitions_eq_ok_iff.1 hfunctions, rfl⟩
  · rintro ⟨functions, hfunctions, rfl⟩
    exact ⟨functions, lowerDefinitions_eq_ok_iff.2 hfunctions, rfl⟩

/-- **A program is lowered exactly if no definition is refused**, whatever the others are. -/
theorem lowerProgram_succeeds_iff :
    (∃ script, lowerProgram ds = .ok script) ↔ ∀ d ∈ ds, definitionRefusal? d = none := by
  rw [← errorOf?_eq_none, lowerProgram_error, List.findSome?_eq_none_iff]

/-! ## Names that are defined elsewhere -/

theorem isWritable_name (v : Ir.Var) (h : v.IsWritable) : v.name.isSlot = true ∨ v.name.ReadsBack := by
  cases v with
  | loc i => exact .inl rfl
  | glob n => exact .inr h

theorem isWritable_names {vs : List Ir.Var} (h : ∀ v ∈ vs, v.IsWritable) :
    ∀ n ∈ vs.map Ir.Var.name, n.isSlot = true ∨ n.ReadsBack :=
  List.forall_mem_map.2 fun v hv => isWritable_name v (h v hv)

mutual

/-- What program text refers to is a slot or a name of program text. -/
theorem isWritable_references : ∀ (e : Ir.Expr), e.IsWritable →
    ∀ n ∈ e.references, n.isSlot = true ∨ n.ReadsBack
  | .var v, h => List.forall_mem_singleton.2 (isWritable_name v h)
  | .app _ _ _, h => List.forall_mem_cons.2 ⟨.inr h.1, isWritable_names h.2⟩
  | .bind _ value body, h =>
    List.forall_mem_append.2 ⟨isWritable_references value h.2.1, isWritable_references body h.2.2⟩
  | .update _ value, h => isWritable_references value h.2
  | .con _ _ _ _, h => isWritable_names h.2.2.1
  | .case v alts _ _, h =>
    List.forall_mem_cons.2 ⟨isWritable_name v h.1, isWritable_altsReferences alts h.2.1⟩
  | .proj v _, h => List.forall_mem_singleton.2 (isWritable_name v h.1)
  | .foreign _ _ _, h => List.forall_mem_map.2 fun a ha => isWritable_name a.var (h.1 a ha)
  | .op _ _, h => isWritable_names h.2
  | .const _, _ | .nothing, _ | .error _, _ => List.forall_mem_nil _

theorem isWritable_altsReferences : ∀ (alts : List Ir.Alt), Ir.altsWritable alts →
    ∀ n ∈ Ir.altsReferences alts, n.isSlot = true ∨ n.ReadsBack
  | [], _ => List.forall_mem_nil _
  | .const _ body :: rest, h =>
    List.forall_mem_append.2
      ⟨isWritable_references body h.1.2, isWritable_altsReferences rest h.2⟩
  | .con _ _ _ _ body :: rest, h =>
    List.forall_mem_append.2
      ⟨isWritable_references body h.1.2.2.2.2, isWritable_altsReferences rest h.2⟩
  | .default body :: rest, h =>
    List.forall_mem_append.2 ⟨isWritable_references body h.1, isWritable_altsReferences rest h.2⟩

end

/-- Takes the global names with these identifiers to be functions of the script. -/
def adopt (targets : List String) (n : ScopedName) : ScopedName :=
  if n.scope = .global ∧ n.base ∈ targets then ⟨.script, n.base⟩ else n

/-- The identifiers that some definitions have and others do not. -/
def newTargets (own others : List Ir.Definition) : List String :=
  (others.map fun d => d.name.target).filter fun t => t ∉ own.map fun d => d.name.target

theorem adopt_global (targets : List String) (base : String) :
    adopt targets ⟨.global, base⟩ =
      if base ∈ targets then ⟨.script, base⟩ else ⟨.global, base⟩ := by
  simp only [adopt, true_and]

theorem adopt_of_ne {targets : List String} {n : ScopedName} (h : n.scope ≠ .global) :
    adopt targets n = n := if_neg fun hn => h hn.1

theorem keepsLocals_adopt (targets : List String) : KeepsLocals (adopt targets) where
  slot _ := adopt_of_ne fun h => by cases h
  builtin _ := adopt_of_ne fun h => by cases h

/-- The names of definitions are names of program text. -/
abbrev NamesReadBack (ds : List Ir.Definition) : Prop := ∀ d ∈ ds, d.name.ReadsBack

theorem target_mem_iff (hds : NamesReadBack ds) {n : Name} (hn : n.ReadsBack) :
    n.target ∈ ds.map (fun d => d.name.target) ↔ n ∈ ds.map Ir.Definition.name := by
  simp only [List.mem_map]
  constructor
  · rintro ⟨d, hd, heq⟩
    exact ⟨d, hd, target_injective (hds d hd) hn heq⟩
  · rintro ⟨d, hd, rfl⟩
    exact ⟨d, hd, rfl⟩

theorem slot_notMem_newTargets (hes : NamesReadBack es) (i : Int) :
    (Name.slot i).target ∉ newTargets ds es := by
  intro hmem
  obtain ⟨d, hd, heq⟩ := List.mem_map.1 (List.mem_filter.1 hmem).1
  exact Name.slot_target_ne (Name.isSlot_of_parse (hes d hd)) i heq.symm

theorem slot_notMem_names (hds : NamesReadBack ds) (i : Int) :
    Name.slot i ∉ ds.map Ir.Definition.name := by
  intro hmem
  obtain ⟨d, hd, heq⟩ := List.mem_map.1 hmem
  have hslot := Name.isSlot_of_parse (hds d hd)
  rw [heq] at hslot
  cases hslot

/-- **With more definitions** a name stands for what it stood for, or for one of the new functions. -/
theorem lookup_globalEnv_adopt {all : List Ir.Definition}
    (hall : ∀ n, n ∈ all.map Ir.Definition.name ↔
      n ∈ ds.map Ir.Definition.name ∨ n ∈ es.map Ir.Definition.name)
    (hds : NamesReadBack ds) (hes : NamesReadBack es) {n : Name}
    (hn : n.isSlot = true ∨ n.ReadsBack) :
    (globalEnv all).lookup n = adopt (newTargets ds es) ((globalEnv ds).lookup n) := by
  rw [lookup_globalEnv, lookup_globalEnv]
  rcases hn with hslot | hread
  · cases n with
    | slot i =>
      have hown := slot_notMem_names hds i
      have hnone := mt (hall (.slot i)).1 (not_or.2 ⟨hown, slot_notMem_names hes i⟩)
      rw [if_neg hnone, if_neg hown, adopt_global, if_neg (slot_notMem_newTargets hes i)]
    | topLevel namespaces base => cases hslot
    | machine base index => cases hslot
  · by_cases hown : n ∈ ds.map Ir.Definition.name
    · rw [if_pos ((hall n).2 (.inl hown)), if_pos hown]
      exact (adopt_of_ne fun h => by cases h).symm
    · -- identifiers tell names apart, so the identifier is new exactly if the name is
      have hnew : n.target ∈ newTargets ds es ↔ n ∈ all.map Ir.Definition.name := by
        rw [newTargets, List.mem_filter, target_mem_iff hes hread, decide_eq_true_eq,
          target_mem_iff hds hread, hall, and_iff_left hown, or_iff_right hown]
      rw [if_neg hown, adopt_global]
      by_cases hdefined : n ∈ all.map Ir.Definition.name
      · rw [if_pos hdefined, if_pos (hnew.2 hdefined)]
        rfl
      · rw [if_neg hdefined, if_neg (mt hnew.1 hdefined)]

/-! ## Definitions in other company -/

theorem lookup_parameters (env : Env) (arity : Nat) (n : Name) :
    (env.extendAll (parameters arity)).lookup n =
      if n ∈ (fieldRange 0 arity).map Name.slot then ⟨.argument, n.target⟩ else env.lookup n := by
  rw [parameters_eq, Env.lookup_extendAll]

/-- **A function next to more definitions** is the function as it was, with the new names adopted. -/
theorem lowerDefinition_adopt {all : List Ir.Definition}
    (hall : ∀ n, n ∈ all.map Ir.Definition.name ↔
      n ∈ ds.map Ir.Definition.name ∨ n ∈ es.map Ir.Definition.name)
    (hds : NamesReadBack ds) (hes : NamesReadBack es) (hd : d.IsWritable) :
    lowerDefinition (globalEnv all) d =
      (lowerDefinition (globalEnv ds) d).map (Stmt.rename (adopt (newTargets ds es))) := by
  have hlookup : ∀ n ∈ d.body.references,
      ((globalEnv all).extendAll (parameters d.arity)).lookup n =
        adopt (newTargets ds es) (((globalEnv ds).extendAll (parameters d.arity)).lookup n) := by
    intro n hn
    rw [lookup_parameters, lookup_parameters]
    -- a parameter is no global name, and what is no parameter is looked up among the definitions
    split
    · exact (adopt_of_ne fun h => by cases h).symm
    · exact lookup_globalEnv_adopt hall hds hes (isWritable_references d.body hd.2.2 n hn)
  have hbody : lowerBody (globalEnv all) d =
      renamed (adopt (newTargets ds es)) (lowerBody (globalEnv ds) d) :=
    lower_rename (keepsLocals_adopt _) d.body hlookup fun _ => rfl
  rw [lowerDefinition, lowerDefinition, hbody]
  cases lowerBody (globalEnv ds) d with
  | error e => rfl
  | ok body =>
    have hname : adopt (newTargets ds es) (functionName d.name) = functionName d.name :=
      adopt_of_ne fun h => by cases h
    refine congrArg Except.ok ?_
    rw [Stmt.rename, hname, Script.blockRename_eq_map]

/-- Where the same names are defined, a definition has the same function. -/
theorem lowerDefinition_congr
    (h : ∀ n, n ∈ ds.map Ir.Definition.name ↔ n ∈ es.map Ir.Definition.name) :
    lowerDefinition (globalEnv ds) d = lowerDefinition (globalEnv es) d := by
  have hlookup : ∀ n, (globalEnv ds).lookup n = (globalEnv es).lookup n := by
    intro n
    rw [lookup_globalEnv, lookup_globalEnv]
    exact if_congr (h n) rfl rfl
  have hbody : lowerBody (globalEnv ds) d = lowerBody (globalEnv es) d := by
    refine lower_congr fun n _ => ?_
    rw [lookup_parameters, lookup_parameters, hlookup]
  rw [lowerDefinition, lowerDefinition, hbody]

/-! ## Separate compilation -/

/-- The functions of some definitions, lowered next to others that are lowered too. -/
theorem forall₂_adopt {all : List Ir.Definition}
    (hall : ∀ n, n ∈ all.map Ir.Definition.name ↔
      n ∈ ds.map Ir.Definition.name ∨ n ∈ es.map Ir.Definition.name)
    (hds : ∀ d ∈ ds, d.IsWritable) (hes : ∀ d ∈ es, d.IsWritable) {functions : List Stmt}
    (h : List.Forall₂ (fun d s => lowerDefinition (globalEnv ds) d = .ok s) ds functions) :
    List.Forall₂ (fun d s => lowerDefinition (globalEnv all) d = .ok s) ds
      (functions.map (Stmt.rename (adopt (newTargets ds es)))) := by
  have hmem := (List.forall₂_and_left (p := (· ∈ ds)) _ _).2 ⟨fun d hd => hd, h⟩
  rw [List.forall₂_map_right_iff]
  refine hmem.imp fun d s hs => ?_
  rw [lowerDefinition_adopt hall (fun d hd => (hds d hd).1) (fun d hd => (hes d hd).1)
    (hds d hs.1), hs.2]
  rfl

theorem forall₂_functionOf {functions : List Stmt}
    (h : List.Forall₂ (fun d s => lowerDefinition env d = .ok s) ds functions) :
    List.Forall₂ (fun d s => ∃ body, s = functionOf d body) ds functions := by
  refine h.imp fun d s hs => ?_
  obtain ⟨body, -, heq⟩ := lowerDefinition_eq_ok.1 hs
  exact ⟨body, heq⟩

end Vimgen.Lower

namespace Vimgen.Ir

/-- A definition of some program that was read from a text. -/
def Definition.IsRead (d : Definition) : Prop :=
  ∃ text p, Program.read text = .ok p ∧ d ∈ p.definitions

theorem Definition.IsRead.isWritable {d : Definition} (h : d.IsRead) : d.IsWritable := by
  obtain ⟨text, p, hread, hd⟩ := h
  exact isWritable_of_read hread d hd

end Vimgen.Ir

namespace Vimgen.Lower

open Script (Stmt)

/-- **Separate compilation.** Two lists of definitions are lowered together if and only if each is
lowered alone. The functions of each are then those that it has alone, in which the global names
that the other defines, and it does not, have become functions of the script. -/
theorem lowerProgram_append {ds es : List Ir.Definition} (hds : ∀ d ∈ ds, d.IsRead)
    (hes : ∀ d ∈ es, d.IsRead) :
    ((∃ script, lowerProgram (ds ++ es) = .ok script) ↔
      (∃ script, lowerProgram ds = .ok script) ∧ ∃ script, lowerProgram es = .ok script) ∧
    ∀ first second, lowerProgram ds = .ok first → lowerProgram es = .ok second →
      ∃ fs gs : List Stmt, List.Forall₂ (fun d s => ∃ body, s = functionOf d body) ds fs ∧
        List.Forall₂ (fun d s => ∃ body, s = functionOf d body) es gs ∧
        first.items = fs ++ [.call entryName []] ∧ second.items = gs ++ [.call entryName []] ∧
        lowerProgram (ds ++ es) = .ok
          ⟨fs.map (Stmt.rename (adopt (newTargets ds es))) ++
            gs.map (Stmt.rename (adopt (newTargets es ds))) ++ [.call entryName []]⟩ := by
  constructor
  · simp only [lowerProgram_succeeds_iff, List.forall_mem_append]
  · intro first second hfirst hsecond
    obtain ⟨fs, hfs, rfl⟩ := lowerProgram_eq_ok_iff.1 hfirst
    obtain ⟨gs, hgs, rfl⟩ := lowerProgram_eq_ok_iff.1 hsecond
    have hwds : ∀ d ∈ ds, d.IsWritable := fun d hd => (hds d hd).isWritable
    have hwes : ∀ d ∈ es, d.IsWritable := fun d hd => (hes d hd).isWritable
    have hall : ∀ n, n ∈ (ds ++ es).map Ir.Definition.name ↔
        n ∈ ds.map Ir.Definition.name ∨ n ∈ es.map Ir.Definition.name := by
      intro n
      rw [List.map_append, List.mem_append]
    refine ⟨fs, gs, forall₂_functionOf hfs, forall₂_functionOf hgs, rfl, rfl, ?_⟩
    refine lowerProgram_eq_ok_iff.2 ⟨_, ?_, rfl⟩
    exact List.rel_append (forall₂_adopt hall hwds hwes hfs)
      (forall₂_adopt (fun n => (hall n).trans or_comm) hwes hwds hgs)

/-- A function that is defined in the other part becomes a function of the script, in both
directions. -/
theorem lowerProgram_append_parity :
    (∀ d ∈ parityProgram.definitions, d.IsRead) ∧
    newTargets (parityProgram.definitions.take 2) (parityProgram.definitions.drop 2) =
      [(Name.topLevel ["Main"] "odd").target] ∧
    ∃ first second : Script.Program, ∃ fs gs : List Stmt,
      lowerProgram (parityProgram.definitions.take 2) = .ok first ∧
      lowerProgram (parityProgram.definitions.drop 2) = .ok second ∧
      first.items = fs ++ [.call entryName []] ∧ second.items = gs ++ [.call entryName []] ∧
      lowerProgram parityProgram.definitions = .ok
        ⟨fs.map (Stmt.rename (adopt [(Name.topLevel ["Main"] "odd").target])) ++
          gs.map (Stmt.rename (adopt [(Name.machine "runMain" 0).target,
            (Name.topLevel ["Main"] "even").target])) ++ [.call entryName []]⟩ := by
  have hread : ∀ d ∈ parityProgram.definitions, d.IsRead := fun d hd =>
    ⟨_, _, parityProgram_isWritable.read_flat, hd⟩
  obtain ⟨first, hfirst⟩ :
      ∃ script, lowerProgram (parityProgram.definitions.take 2) = .ok script := ⟨_, rfl⟩
  obtain ⟨second, hsecond⟩ :
      ∃ script, lowerProgram (parityProgram.definitions.drop 2) = .ok script := ⟨_, rfl⟩
  obtain ⟨fs, gs, -, -, hfs, hgs, h⟩ :=
    (lowerProgram_append (fun d hd => hread d (List.mem_of_mem_take hd))
      fun d hd => hread d (List.mem_of_mem_drop hd)).2 first second hfirst hsecond
  exact ⟨hread, by decide, first, second, fs, gs, hfirst, hsecond, hfs, hgs, h⟩

/-! ## The order of definitions -/

/-- The list whose item `i` is item `σ i` of this one. -/
def permuted (ds : List Ir.Definition) (σ : Equiv.Perm (Fin ds.length)) : List Ir.Definition :=
  List.ofFn fun i => ds.get (σ i)

theorem permuted_perm (ds : List Ir.Definition) (σ : Equiv.Perm (Fin ds.length)) :
    (permuted ds σ).Perm ds := by
  have h := σ.ofFn_comp_perm ds.get
  rwa [List.ofFn_get] at h

/-- The functions of definitions that are given one by one. -/
theorem lowerProgram_ofFn {n : Nat} {ds : Fin n → Ir.Definition} {functions : Fin n → Stmt}
    (h : ∀ i, lowerDefinition (globalEnv (List.ofFn ds)) (ds i) = .ok (functions i)) :
    lowerProgram (List.ofFn ds) = .ok ⟨List.ofFn functions ++ [.call entryName []]⟩ := by
  refine lowerProgram_eq_ok_iff.2 ⟨_, List.forall₂_iff_get.2 ⟨?_, fun i h₁ h₂ => ?_⟩, rfl⟩
  · rw [List.length_ofFn, List.length_ofFn]
  · rw [List.get_ofFn, List.get_ofFn]
    exact h _

/-- **The order of definitions is irrelevant.** Definitions are lowered in one order if and only if
they are in another, and each has the same function in both. -/
theorem lowerProgram_permuted (ds : List Ir.Definition) (σ : Equiv.Perm (Fin ds.length)) :
    ((∃ script, lowerProgram (permuted ds σ) = .ok script) ↔
      ∃ script, lowerProgram ds = .ok script) ∧
    ∀ script, lowerProgram ds = .ok script → ∃ functions : Fin ds.length → Stmt,
      (∀ i, ∃ body, functions i = functionOf (ds.get i) body) ∧
      script.items = List.ofFn functions ++ [.call entryName []] ∧
      lowerProgram (permuted ds σ) = .ok
        ⟨List.ofFn (fun i => functions (σ i)) ++ [.call entryName []]⟩ := by
  have hperm := permuted_perm ds σ
  constructor
  · rw [lowerProgram_succeeds_iff, lowerProgram_succeeds_iff]
    exact ⟨fun h d hd => h d (hperm.mem_iff.2 hd), fun h d hd => h d (hperm.mem_iff.1 hd)⟩
  · intro script hscript
    obtain ⟨fs, hfs, rfl⟩ := lowerProgram_eq_ok_iff.1 hscript
    have hlength : fs.length = ds.length := hfs.length_eq.symm
    -- functions by position, since a definition that occurs twice has two of them
    let functions : Fin ds.length → Stmt := fun i => fs.get (i.cast hlength.symm)
    have hfunctions : ∀ i, lowerDefinition (globalEnv ds) (ds.get i) = .ok (functions i) :=
      fun i => hfs.get i.isLt (i.cast hlength.symm).isLt
    have hnames : ∀ n, n ∈ (permuted ds σ).map Ir.Definition.name ↔
        n ∈ ds.map Ir.Definition.name := fun n => (hperm.map _).mem_iff
    refine ⟨functions, fun i => ?_, ?_, lowerProgram_ofFn fun i => ?_⟩
    · obtain ⟨body, -, heq⟩ := lowerDefinition_eq_ok.1 (hfunctions i)
      exact ⟨body, heq⟩
    · have hofFn : List.ofFn functions = fs := List.ext_get (by rw [List.length_ofFn, hlength])
        fun i h₁ h₂ => by rw [List.get_ofFn]; rfl
      rw [hofFn]
    · exact (lowerDefinition_congr hnames).trans (hfunctions (σ i))

/-- Definitions of which one occurs twice. -/
def repeatedDefinitions : List Ir.Definition :=
  parityProgram.definitions ++ parityProgram.definitions.drop 2

/-- A function that is defined twice, with one of its definitions put before all that call it. -/
theorem lowerProgram_permuted_repeated :
    ∃ σ : Equiv.Perm (Fin repeatedDefinitions.length),
      permuted repeatedDefinitions σ =
        parityProgram.definitions.reverse ++ parityProgram.definitions.drop 2 ∧
      ∃ (script : Script.Program) (functions : Fin repeatedDefinitions.length → Stmt),
        lowerProgram repeatedDefinitions = .ok script ∧
        script.items = List.ofFn functions ++ [.call entryName []] ∧
        lowerProgram (permuted repeatedDefinitions σ) = .ok
          ⟨List.ofFn (fun i => functions (σ i)) ++ [.call entryName []]⟩ := by
  let σ : Equiv.Perm (Fin repeatedDefinitions.length) :=
    Equiv.swap ⟨0, by decide⟩ ⟨2, by decide⟩
  obtain ⟨script, hscript⟩ : ∃ script, lowerProgram repeatedDefinitions = .ok script := ⟨_, rfl⟩
  obtain ⟨functions, -, hitems, h⟩ :=
    (lowerProgram_permuted repeatedDefinitions σ).2 script hscript
  exact ⟨σ, rfl, script, functions, hscript, hitems, h⟩

end Vimgen.Lower
