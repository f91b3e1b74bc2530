import Vimgen.Proofs.Alike
import Vimgen.Proofs.Lowering
import Vimgen.Proofs.Writable

/-!
# Names stand for what is in scope

`LegalName` says which names may occur in the script of an expression, given the slots in scope
where they occur. `Resolves` follows an expression and its statements side by side: a leaf has one
statement, whose names are legal for the slots in scope at this leaf, and bindings and alternatives
add to the scope of their bodies.

* `lower_resolves`: lowering gives statements like that.
* `Resolves.legal`: then all names are legal, for the slots that the expression reads from outside.
-/

namespace Vimgen.Script

/-! ## The names of a script -/

mutual

/-- The names that occur in an expression. -/
def Expr.names : Expr → List ScopedName
  | .int _ | .str _ => []
  | .list items => exprsNames items
  | .ref name => [name]
  | .apply function args => function.names ++ exprsNames args
  | .binary _ left right => left.names ++ right.names
  | .proj base projection => base.names ++ projection.names
  | .stray node => node.names

def exprsNames : List Expr → List ScopedName
  | [] => []
  | e :: rest => e.names ++ exprsNames rest

def Projection.names : Projection → List ScopedName
  | .single index => index.names
  | .onward start => start.names
  | .stray node => node.names

def Target.names : Target → List ScopedName
  | .name n => [n]
  | .item base projection => base.names ++ projection.names
  | .stray node => node.names

/-- The names that occur in a statement: what is bound, assigned to, called or read. -/
def Stmt.names : Stmt → List ScopedName
  | .bind name value => name :: value.names
  | .assign target value => target.names ++ value.names
  | .ret value => value.names
  | .call name args => name :: exprsNames args
  | .command _ arg => arg.names
  | .cond arms default => armsNames arms ++ defaultNames default
  | .function name _ body => name :: blockNames body
  | .stray node => node.names

def blockNames : List Stmt → List ScopedName
  | [] => []
  | s :: rest => s.names ++ blockNames rest

def Arm.names : Arm → List ScopedName
  | .mk test body => test.names ++ blockNames body

def armsNames : List Arm → List ScopedName
  | [] => []
  | arm :: rest => arm.names ++ armsNames rest

def defaultNames : Option (List Stmt) → List ScopedName
  | none => []
  | some default => blockNames default

def Node.names : Node → List ScopedName
  | .expr e => e.names
  | .projection p => p.names
  | .target t => t.names
  | .stmt s => s.names
  | .arm a => a.names
  | .program items => blockNames items
  | .alien _ => []

end

theorem blockNames_append (a b : Block) : blockNames (a ++ b) = blockNames a ++ blockNames b := by
  induction a with
  | nil => rfl
  | cons s a ih => simp only [List.cons_append, blockNames, ih, List.append_assoc]

theorem blockNames_flatten (bs : List Block) : blockNames bs.flatten = bs.flatMap blockNames := by
  induction bs with
  | nil => rfl
  | cons b bs ih => rw [List.flatten_cons, blockNames_append, ih, List.flatMap_cons]

theorem armsNames_eq (arms : List Arm) : armsNames arms = arms.flatMap Arm.names := by
  induction arms with
  | nil => rfl
  | cons arm arms ih => rw [armsNames, ih, List.flatMap_cons]

variable {R Q : ScopedName → ScopedName → Prop} {P : ScopedName → Prop}

mutual

/-- What holds of all related variables and functions holds of all names in expressions that are
alike. -/
theorem Alike.forall_names (hR : ∀ n m, R n m → P n) (hQ : ∀ n m, Q n m → P n) :
    ∀ {x y : Expr}, Alike R Q x y → ∀ n ∈ x.names, P n
  | _, _, .int _ => List.forall_mem_nil _
  | _, _, .str _ => List.forall_mem_nil _
  | _, _, .list h => AllAlike.forall_names hR hQ h
  | _, _, .ref h => List.forall_mem_singleton.2 (hR _ _ h)
  | _, _, .call hname hargs =>
    List.forall_mem_append.2
      ⟨List.forall_mem_singleton.2 (hQ _ _ hname), AllAlike.forall_names hR hQ hargs⟩
  | _, _, .binary _ hleft hright =>
    List.forall_mem_append.2 ⟨hleft.forall_names hR hQ, hright.forall_names hR hQ⟩
  | _, _, .single hbase hindex =>
    List.forall_mem_append.2 ⟨hbase.forall_names hR hQ, hindex.forall_names hR hQ⟩
  | _, _, .onward hbase hstart =>
    List.forall_mem_append.2 ⟨hbase.forall_names hR hQ, hstart.forall_names hR hQ⟩

theorem AllAlike.forall_names (hR : ∀ n m, R n m → P n) (hQ : ∀ n m, Q n m → P n) :
    ∀ {xs ys : List Expr}, AllAlike R Q xs ys → ∀ n ∈ exprsNames xs, P n
  | _, _, .nil => List.forall_mem_nil _
  | _, _, .cons h hs => List.forall_mem_append.2 ⟨h.forall_names hR hQ, hs.forall_names hR hQ⟩

end

end Vimgen.Script

namespace Vimgen.Lower

open Ir (fieldRange)
open Script (Alike AllAlike Block ScopedName blockNames)

/-! ## Legal names -/

/-- What a definition has to do with names: the names that are defined, the number of its
parameters, and the slots that are bound in it. -/
structure Frame where
  defined : List Name
  arity : Nat
  bound : List Int

/-- Names that may occur where some slots are in scope and some are used. -/
inductive LegalName (f : Frame) (scope used : List Int) : ScopedName → Prop
  /-- A function of the script has the name of a definition. -/
  | definition {n : Name} (h : n ∈ f.defined) : LegalName f scope used ⟨.script, n.target⟩
  /-- A global name is one of program text that is not defined, -/
  | undefined {n : Name} (hname : n.ReadsBack) (h : n ∉ f.defined) :
    LegalName f scope used ⟨.global, n.target⟩
  /-- or it is a slot out of scope. -/
  | unscoped {i : Int} (hused : i ∈ used) (h : i ∉ scope) :
    LegalName f scope used ⟨.global, (Name.slot i).target⟩
  /-- An argument is one of the parameters. -/
  | parameter {i : Int} (hlow : 0 ≤ i) (hhigh : i < f.arity) :
    LegalName f scope used ⟨.argument, (Name.slot i).target⟩
  /-- A local variable is a slot that is bound somewhere. -/
  | slot {i : Int} (h : i ∈ f.bound) : LegalName f scope used (localName i)
  /-- Functions of the editor may always be called. -/
  | builtin (name : String) : LegalName f scope used ⟨.builtin, name⟩

/-- Leaves: expressions without parts of their own. -/
def isLeaf : Ir.Expr → Bool
  | .bind _ _ _ | .update _ _ | .case _ _ _ _ => false
  | _ => true

section

variable (f : Frame)

mutual

/-- The statements of an expression, each with names that are legal where it comes from. -/
inductive Resolves : List Int → Ir.Expr → Block → Prop
  | leaf {scope : List Int} {e : Ir.Expr} {s : Script.Stmt} (hleaf : isLeaf e = true)
    (hnames : ∀ n ∈ s.names, LegalName f scope e.freeSlots n) : Resolves scope e [s]
  | bind {scope : List Int} {i : Int} {value body : Ir.Expr} {first second : Block}
    (hvalue : Resolves scope value first) (hbody : Resolves (i :: scope) body second) :
    Resolves scope (.bind (.loc i) value body) (first ++ second)
  | update {scope : List Int} {v : Ir.Var} {value : Ir.Expr} {block : Block}
    (hvalue : Resolves scope value block) : Resolves scope (.update v value) block
  | case {scope : List Int} {v : Ir.Var} {alts : List Ir.Alt} {checked shared : Bool}
    {branches : List Branch} (halts : AltsResolve scope v alts branches) :
    Resolves scope (.case v alts checked shared) (joinBranches branches)

/-- The branch of an alternative. Its test, and the statements that load the fields, are outside the
scope of the fields. -/
inductive AltResolves : List Int → Ir.Var → Ir.Alt → Branch → Prop
  | const {scope : List Int} {v : Ir.Var} {c : Ir.Const} {body : Ir.Expr} {test : Script.Expr}
    {block : Block} (htest : ∀ n ∈ test.names, LegalName f scope v.slots n)
    (hbody : Resolves scope body block) :
    AltResolves scope v (.const c body) (.tested (.mk test block))
  | con {scope : List Int} {v : Ir.Var} {first tag : Int} {name : Name} {fields : List Name}
    {body : Ir.Expr} {test : Script.Expr} {loading block : Block}
    (htest : ∀ n ∈ test.names, LegalName f scope v.slots n)
    (hcount : loading.length = fields.length)
    (hloading : ∀ n ∈ blockNames loading, LegalName f scope v.slots n)
    (hbody : Resolves (fieldRange first fields.length ++ scope) body block) :
    AltResolves scope v (.con first tag name fields body) (.tested (.mk test (loading ++ block)))
  | default {scope : List Int} {v : Ir.Var} {body : Ir.Expr} {block : Block}
    (hbody : Resolves scope body block) : AltResolves scope v (.default body) (.fallback block)

inductive AltsResolve : List Int → Ir.Var → List Ir.Alt → List Branch → Prop
  | nil {scope : List Int} {v : Ir.Var} : AltsResolve scope v [] []
  | cons {scope : List Int} {v : Ir.Var} {alt : Ir.Alt} {alts : List Ir.Alt} {branch : Branch}
    {branches : List Branch} (h : AltResolves scope v alt branch)
    (hs : AltsResolve scope v alts branches) :
    AltsResolve scope v (alt :: alts) (branch :: branches)

end

end

variable {f : Frame} {scope used : List Int}

/-- Only slots that are used and out of scope depend on where a name stands. -/
theorem LegalName.mono {scope' used' : List Int}
    (h : ∀ i ∈ used, i ∉ scope → i ∈ used' ∧ i ∉ scope') {n : ScopedName}
    (hn : LegalName f scope used n) : LegalName f scope' used' n := by
  cases hn with
  | definition h => exact .definition h
  | undefined hname h => exact .undefined hname h
  | unscoped hused hout =>
    obtain ⟨hused', hout'⟩ := h _ hused hout
    exact .unscoped hused' hout'
  | parameter hlow hhigh => exact .parameter hlow hhigh
  | slot h => exact .slot h
  | builtin name => exact .builtin name

theorem LegalName.of_subset {used' : List Int} (h : used ⊆ used') {n : ScopedName}
    (hn : LegalName f scope used n) : LegalName f scope used' n :=
  hn.mono fun _ hi hout => ⟨h hi, hout⟩

/-- On the way out of a scope only the slots that it had go. -/
theorem LegalName.leave {is used' : List Int} (h : ∀ i ∈ used, i ∉ is → i ∈ used')
    {n : ScopedName} (hn : LegalName f (is ++ scope) used n) : LegalName f scope used' n := by
  refine hn.mono fun i hi hout => ?_
  rw [List.mem_append, not_or] at hout
  exact ⟨h i hi hout.1, hout.2⟩

/-! ## All names are legal for the whole -/

/-- The names that occur in a branch. -/
def Branch.names : Branch → List ScopedName
  | .tested arm => arm.names
  | .fallback body => blockNames body

/-- Joining branches adds no names. -/
theorem forall_names_joinBranches {branches : List Branch} {p : ScopedName → Prop}
    (h : ∀ b ∈ branches, ∀ n ∈ b.names, p n) : ∀ n ∈ blockNames (joinBranches branches), p n := by
  have harms : ∀ n ∈ Script.armsNames (branches.filterMap Branch.arm?), p n := by
    rw [Script.armsNames_eq]
    intro n hn
    obtain ⟨arm, harm, hn⟩ := List.mem_flatMap.1 hn
    obtain ⟨branch, hmem, heq⟩ := List.mem_filterMap.1 harm
    cases branch with
    | tested arm' => cases heq; exact h _ hmem n hn
    | fallback body => cases heq
  have hdefaults : ∀ n ∈ blockNames (branches.filterMap Branch.fallback?).flatten, p n := by
    rw [Script.blockNames_flatten]
    intro n hn
    obtain ⟨body, hbody, hn⟩ := List.mem_flatMap.1 hn
    obtain ⟨branch, hmem, heq⟩ := List.mem_filterMap.1 hbody
    cases branch with
    | tested arm => cases heq
    | fallback body' => cases heq; exact h _ hmem n hn
  refine joinBranches_cases (motive := fun b => ∀ n ∈ blockNames b, p n) branches
    (fun _ => hdefaults) (fun _ _ => ?_) (fun _ _ => ?_)
  · simpa only [blockNames, Script.Stmt.names, Script.defaultNames, List.append_nil] using harms
  · simp only [blockNames, Script.Stmt.names, Script.defaultNames, List.append_nil]
    exact List.forall_mem_append.2 ⟨harms, hdefaults⟩

mutual

/-- **What is legal for a part is legal for the whole**: a slot that is out of scope somewhere
inside is read from outside, and is out of scope there. -/
theorem Resolves.legal : ∀ {scope : List Int} {e : Ir.Expr} {block : Block},
    Resolves f scope e block → ∀ n ∈ blockNames block, LegalName f scope e.freeSlots n
  | _, _, _, .leaf _ hnames => by simpa only [blockNames, List.append_nil] using hnames
  | scope, _, _, @Resolves.bind _ _ i value body _ _ hvalue hbody => by
    rw [Script.blockNames_append]
    refine List.forall_mem_append.2 ⟨fun n hn => ?_, fun n hn => ?_⟩
    · exact (hvalue.legal n hn).of_subset (List.subset_append_left _ _)
    · have hleave : ∀ j ∈ body.freeSlots, j ∉ [i] →
          j ∈ value.freeSlots ++ body.freeSlots.filter (· ≠ i) := by
        intro j hj hne
        exact List.mem_append_right _ (List.mem_filter.2 ⟨hj, by simpa using hne⟩)
      exact LegalName.leave hleave (hbody.legal n hn)
  | _, _, _, .update hvalue => hvalue.legal
  | _, _, _, .case halts => forall_names_joinBranches halts.legal

theorem AltResolves.legal : ∀ {scope : List Int} {v : Ir.Var} {alt : Ir.Alt} {branch : Branch},
    AltResolves f scope v alt branch →
      ∀ n ∈ branch.names, LegalName f scope (v.slots ++ alt.freeSlots) n
  | _, _, _, _, .const htest hbody => by
    refine List.forall_mem_append.2 ⟨fun n hn => ?_, fun n hn => ?_⟩
    · exact (htest n hn).of_subset (List.subset_append_left _ _)
    · exact (hbody.legal n hn).of_subset (List.subset_append_right _ _)
  | scope, v, _, _, @AltResolves.con _ _ _ first _ _ fields _ _ _ _ htest _ hloading hbody => by
    rw [Branch.names, Script.Arm.names, Script.blockNames_append]
    simp only [List.forall_mem_append]
    refine ⟨fun n hn => ?_, fun n hn => ?_, fun n hn => ?_⟩
    · exact (htest n hn).of_subset (List.subset_append_left _ _)
    · exact (hloading n hn).of_subset (List.subset_append_left _ _)
    · refine LegalName.leave (fun j hj hne => ?_) (hbody.legal n hn)
      exact List.mem_append_right _ (List.mem_filter.2 ⟨hj, by simpa using hne⟩)
  | _, _, _, _, .default hbody => fun n hn =>
    (hbody.legal n hn).of_subset (List.subset_append_right _ _)

theorem AltsResolve.legal : ∀ {scope : List Int} {v : Ir.Var} {alts : List Ir.Alt}
    {branches : List Branch}, AltsResolve f scope v alts branches →
      ∀ b ∈ branches, ∀ n ∈ b.names, LegalName f scope (v.slots ++ Ir.altsFreeSlots alts) n
  | _, _, _, _, .nil => List.forall_mem_nil _
  | _, _, _, _, .cons h hs => by
    refine List.forall_mem_cons.2 ⟨fun n hn => ?_, fun b hb n hn => ?_⟩
    · exact (h.legal n hn).of_subset ((List.sublist_append_left _ _).append_left _).subset
    · exact (hs.legal b hb n hn).of_subset ((List.sublist_append_right _ _).append_left _).subset

end

/-! ## Environments -/

/-- An environment says what is in scope: these slots, and the names that are defined. -/
structure Represents (f : Frame) (env : Env) (scope : List Int) : Prop where
  inside : ∀ i ∈ scope, env.lookup (.slot i) = localName i ∧ i ∈ f.bound ∨
    env.lookup (.slot i) = ⟨.argument, (Name.slot i).target⟩ ∧ 0 ≤ i ∧ i < f.arity
  outside : ∀ i, i ∉ scope → env.lookup (.slot i) = ⟨.global, (Name.slot i).target⟩
  name : ∀ n : Name, n.isSlot = false →
    env.lookup n = if n ∈ f.defined then functionName n else ⟨.global, n.target⟩

variable {env : Env} {ret : Continuation}

/-- New slots become local variables. -/
theorem Represents.enter (h : Represents f env scope) {is : List Int}
    (his : ∀ i ∈ is, i ∈ f.bound) : Represents f (enter env is) (is ++ scope) where
  inside i hi := by
    rw [lookup_enter_slot]
    by_cases hmem : i ∈ is
    · rw [if_pos hmem]
      exact .inl ⟨rfl, his i hmem⟩
    · rw [if_neg hmem]
      exact h.inside i ((List.mem_append.1 hi).resolve_left hmem)
  outside i hi := by
    rw [List.mem_append, not_or] at hi
    rw [lookup_enter_slot, if_neg hi.1]
    exact h.outside i hi.2
  name n hn := by
    rw [lookup_enter_name env is hn]
    exact h.name n hn

theorem Represents.legal_name (h : Represents f env scope) {n : Name} (hn : n.ReadsBack) :
    LegalName f scope used (env.lookup n) := by
  rw [h.name n (Name.isSlot_of_parse hn)]
  split
  · rename_i hmem
    exact .definition hmem
  · rename_i hmem
    exact .undefined hn hmem

/-- A variable is legal where it stands. -/
theorem Represents.legal (h : Represents f env scope) {v : Ir.Var} (hv : v.IsWritable) :
    LegalName f scope v.slots (env.lookup v.name) := by
  cases v with
  | loc i =>
    by_cases hi : i ∈ scope
    · rcases h.inside i hi with ⟨heq, hbound⟩ | ⟨heq, hlow, hhigh⟩
      · rw [Ir.Var.name, heq]; exact .slot hbound
      · rw [Ir.Var.name, heq]; exact .parameter hlow hhigh
    · rw [Ir.Var.name, h.outside i hi]
      exact .unscoped List.mem_cons_self hi
  | glob n => exact h.legal_name hv

/-! ## Lowering -/

/-- A continuation has no names of its own but slots that are bound. -/
def KeepsNames (f : Frame) (ret : Continuation) : Prop :=
  ∀ x, ∀ n ∈ (ret x).names, n ∈ x.names ∨ ∃ i ∈ f.bound, n = localName i

theorem keepsNames_returnValue : KeepsNames f returnValue := fun _ _ hn => .inl hn

theorem keepsNames_bindTo {i : Int} (hi : i ∈ f.bound) : KeepsNames f (bindTo (localName i)) := by
  intro x n hn
  rcases List.mem_cons.1 hn with rfl | hn
  · exact .inr ⟨i, hi, rfl⟩
  · exact .inl hn

/-- A leaf that has a value. -/
theorem resolves_value (hret : KeepsNames f ret) {e : Ir.Expr} (hleaf : isLeaf e = true)
    {x : Script.Expr} (hx : ∀ n ∈ x.names, LegalName f scope e.freeSlots n) :
    Resolves f scope e [ret x] := by
  refine .leaf hleaf fun n hn => ?_
  rcases hret x n hn with hn | ⟨i, hi, rfl⟩
  · exact hx n hn
  · exact .slot hi

/-- Names that are legal here, as a relation between names that are the same. -/
abbrev LegalPair (f : Frame) (scope used : List Int) (n _m : ScopedName) : Prop :=
  LegalName f scope used n

theorem Represents.legal_arg (h : Represents f env scope) {v : Ir.Var} (hv : v.IsWritable)
    (hused : v.slots ⊆ used) : LegalName f scope used (env.lookup v.name) :=
  (h.legal hv).of_subset hused

theorem Represents.alike_args (h : Represents f env scope) {args : List Ir.Var}
    (hargs : ∀ v ∈ args, v.IsWritable) :
    AllAlike (LegalPair f scope (args.flatMap Ir.Var.slots))
      (LegalPair f scope (args.flatMap Ir.Var.slots)) (resolveAll env args) (resolveAll env args) :=
  .map fun v hv => .ref (h.legal_arg (hargs v hv) fun _ hi => List.mem_flatMap.2 ⟨v, hv, hi⟩)

theorem forall_names_of_alike {x y : Script.Expr}
    (h : Alike (LegalPair f scope used) (LegalPair f scope used) x y) :
    ∀ n ∈ x.names, LegalName f scope used n :=
  Alike.forall_names (P := LegalName f scope used) (fun _ _ hn => hn) (fun _ _ hn => hn) h

theorem forall_names_exprs_of_alike {xs ys : List Script.Expr}
    (h : AllAlike (LegalPair f scope used) (LegalPair f scope used) xs ys) :
    ∀ n ∈ Script.exprsNames xs, LegalName f scope used n :=
  AllAlike.forall_names (P := LegalName f scope used) (fun _ _ hn => hn) (fun _ _ hn => hn) h

theorem legalPair_builtin (name : String) :
    LegalPair f scope used ⟨.builtin, name⟩ ⟨.builtin, name⟩ := .builtin name

theorem resolves_op (henv : Represents f env scope) (hret : KeepsNames f ret) {op : Ir.PrimOp}
    {args : List Ir.Var} (hargs : ∀ v ∈ args, v.IsWritable) {block : Block}
    (h : lower env ret (.op op args) = .ok block) : Resolves f scope (.op op args) block := by
  simp only [lower, bind_eq_ok, pure_eq_ok] at h
  obtain ⟨x, hx, rfl⟩ := h
  have hsame := lowerPrimitive_alike legalPair_builtin op (henv.alike_args hargs)
  rw [hx] at hsame
  cases hsame with
  | ok hlike => exact resolves_value hret rfl (forall_names_of_alike hlike)

theorem resolves_foreign (henv : Represents f env scope) (hret : KeepsNames f ret)
    {function : Ir.Descriptor} {args : List Ir.ForeignArg} (hargs : ∀ a ∈ args, a.var.IsWritable)
    {result : Option Ir.Descriptor} {block : Block}
    (h : lower env ret (.foreign function args result) = .ok block) :
    Resolves f scope (.foreign function args result) block := by
  rw [lower] at h
  have hrefs : RefPairs (LegalPair f scope (args.flatMap fun a => a.var.slots))
      (args.map fun a => resolve env a.var) (args.map fun a => resolve env a.var) := by
    rw [RefPairs, List.forall₂_map_left_iff, List.forall₂_map_right_iff, List.forall₂_same]
    intro a ha
    exact ⟨_, _, henv.legal_arg (hargs a ha) fun _ hi => List.mem_flatMap.2 ⟨a, ha, hi⟩, rfl, rfl⟩
  cases lowerForeign_pair legalPair_builtin function hrefs with
  | value hlike hf hg =>
    rw [hf] at h
    cases h
    exact resolves_value hret rfl (forall_names_of_alike hlike)
  | echo hlike hf hg =>
    rw [hf] at h
    cases h
    exact .leaf rfl (forall_names_of_alike hlike)
  | setItem hindex hvalue hlist hf hg =>
    rw [hf] at h
    cases h
    refine .leaf rfl (List.forall_mem_append.2 ⟨?_, forall_names_of_alike hvalue⟩)
    exact List.forall_mem_append.2 ⟨List.forall_mem_singleton.2 hlist, forall_names_of_alike hindex⟩
  | failure error hf hg =>
    rw [hf] at h
    cases h

theorem forall_names_loads {p : ScopedName → Prop} {x : Script.Expr} (hx : ∀ n ∈ x.names, p n)
    {is : List Int} (his : ∀ i ∈ is, p (localName i)) (k : Int) :
    ∀ n ∈ blockNames (loads x k is), p n := by
  induction is generalizing k with
  | nil => exact List.forall_mem_nil _
  | cons i is ih =>
    rw [List.forall_mem_cons] at his
    refine List.forall_mem_append.2 ⟨List.forall_mem_cons.2 ⟨his.1, ?_⟩, ih his.2 (k + 1)⟩
    exact List.forall_mem_append.2 ⟨hx, List.forall_mem_nil _⟩

theorem length_loads (x : Script.Expr) (k : Int) (is : List Int) :
    (loads x k is).length = is.length := by
  induction is generalizing k with
  | nil => rfl
  | cons i is ih => rw [loads, List.length_cons, List.length_cons, ih]

theorem length_fieldRange (first : Int) (count : Nat) :
    (fieldRange first count).length = count := by
  rw [fieldRange_eq, List.length_map, List.length_range]

mutual

/-- **Lowering resolves names by what is in scope where they stand.** -/
theorem lower_resolves : ∀ (e : Ir.Expr) {env : Env} {ret : Continuation} {scope : List Int}
    {block : Block}, e.IsWritable → (∀ i ∈ e.boundSlots, i ∈ f.bound) → Represents f env scope →
    KeepsNames f ret → lower env ret e = .ok block → Resolves f scope e block
  | .var (.loc i), env, ret, scope, block, hwrite, _, henv, hret, h => by
    rw [lower] at h
    cases h
    exact resolves_value hret rfl (List.forall_mem_singleton.2 (henv.legal hwrite))
  | .var (.glob n), env, ret, scope, block, hwrite, _, henv, hret, h => by
    rw [lower] at h
    cases h
    exact resolves_value hret rfl (List.forall_mem_singleton.2 (henv.legal hwrite))
  | .app function args tailCall, env, ret, scope, block, hwrite, _, henv, hret, h => by
    rw [lower] at h
    cases h
    refine resolves_value hret rfl (List.forall_mem_cons.2 ⟨?_, ?_⟩)
    · exact henv.legal_name hwrite.1
    · exact forall_names_exprs_of_alike (henv.alike_args hwrite.2)
  | .bind (.glob n) value body, env, ret, scope, block, _, _, _, _, h => by
    rw [lower] at h
    cases h
  | .bind (.loc i) value body, env, ret, scope, block, hwrite, hbound, henv, hret, h => by
    obtain ⟨first, second, hfirst, hsecond, rfl⟩ := lower_bind_ok.1 h
    simp only [Ir.Expr.boundSlots, List.forall_mem_cons, List.forall_mem_append] at hbound
    obtain ⟨hi, hvalue, hbody⟩ := hbound
    -- the slot is in scope in the body only, though its variable is assigned in the value's leaves
    refine .bind ?_ ?_
    · exact lower_resolves value hwrite.2.1 hvalue henv (keepsNames_bindTo hi) hfirst
    · have henter := henv.enter (List.forall_mem_singleton.2 hi)
      exact lower_resolves body hwrite.2.2 hbody henter hret hsecond
  | .update v value, env, ret, scope, block, hwrite, hbound, henv, hret, h => by
    rw [lower] at h
    exact .update (lower_resolves value hwrite.2 hbound henv hret h)
  | .con tag name args reuse, env, ret, scope, block, hwrite, _, henv, hret, h => by
    rw [lower] at h
    cases h
    exact resolves_value hret rfl
      (forall_names_exprs_of_alike (.cons (.int tag) (henv.alike_args hwrite.2.2.1)))
  | .case v alts checked shared, env, ret, scope, block, hwrite, hbound, henv, hret, h => by
    obtain ⟨branches, hbranches, rfl⟩ := lower_case_ok.1 h
    exact .case (lowerAlts_resolve alts hwrite.1 hwrite.2.1 hbound henv hret hbranches)
  | .proj v index, env, ret, scope, block, hwrite, _, henv, hret, h => by
    rw [lower] at h
    cases h
    refine resolves_value hret rfl (List.forall_mem_append.2 ⟨?_, List.forall_mem_nil _⟩)
    exact List.forall_mem_singleton.2 (henv.legal hwrite.1)
  | .const c, env, ret, scope, block, _, _, _, hret, h => by
    simp only [lower, bind_eq_ok, pure_eq_ok] at h
    obtain ⟨literal, hliteral, rfl⟩ := h
    exact resolves_value hret rfl (forall_names_of_alike (alike_literal hliteral))
  | .foreign function args result, env, ret, scope, block, hwrite, _, henv, hret, h =>
    resolves_foreign henv hret hwrite.1 h
  | .op op args, env, ret, scope, block, hwrite, _, henv, hret, h =>
    resolves_op henv hret hwrite.2 h
  | .nothing, env, ret, scope, block, _, _, _, hret, h => by
    rw [lower] at h
    cases h
    exact resolves_value hret rfl (List.forall_mem_nil _)
  | .error message, env, ret, scope, block, _, _, _, _, h => by
    rw [lower] at h
    cases h
    exact .leaf rfl (List.forall_mem_nil _)

theorem lowerAlt_resolves : ∀ (alt : Ir.Alt) {env : Env} {ret : Continuation} {scope : List Int}
    {v : Ir.Var} {branch : Branch}, v.IsWritable → alt.IsWritable →
    (∀ i ∈ alt.boundSlots, i ∈ f.bound) → Represents f env scope → KeepsNames f ret →
    lowerAlt (resolve env v) env ret alt = .ok branch → AltResolves f scope v alt branch
  | .const c body, env, ret, scope, v, branch, hv, hwrite, hbound, henv, hret, h => by
    obtain ⟨literal, block, hliteral, hblock, rfl⟩ := lowerAlt_const_ok.1 h
    refine .const (List.forall_mem_append.2 ⟨?_, ?_⟩) ?_
    · exact List.forall_mem_singleton.2 (henv.legal hv)
    · exact forall_names_of_alike (alike_literal hliteral)
    · exact lower_resolves body hwrite.2 hbound henv hret hblock
  | .con first tag name fields body, env, ret, scope, v, branch, hv, hwrite, hbound, henv, hret,
    h => by
    obtain ⟨block, hblock, rfl⟩ := lowerAlt_con_ok h
    obtain ⟨hfields, hbody⟩ := List.forall_mem_append.1 hbound
    have hscrutinee : ∀ n ∈ (resolve env v).names, LegalName f scope v.slots n :=
      List.forall_mem_singleton.2 (henv.legal hv)
    refine .con ?_ ?_ ?_ ?_
    · simpa [Script.Expr.names, field, item, Script.Projection.names] using hscrutinee
    · rw [length_loads, length_fieldRange]
    · exact forall_names_loads hscrutinee (fun i hi => .slot (hfields i hi)) 1
    · exact lower_resolves body hwrite.2.2.2.2 hbody (henv.enter hfields) hret hblock
  | .default body, env, ret, scope, v, branch, hv, hwrite, hbound, henv, hret, h => by
    obtain ⟨block, hblock, rfl⟩ := lowerAlt_default_ok.1 h
    exact .default (lower_resolves body hwrite hbound henv hret hblock)

theorem lowerAlts_resolve : ∀ (alts : List Ir.Alt) {env : Env} {ret : Continuation}
    {scope : List Int} {v : Ir.Var} {branches : List Branch}, v.IsWritable → Ir.altsWritable alts →
    (∀ i ∈ Ir.altsBoundSlots alts, i ∈ f.bound) → Represents f env scope → KeepsNames f ret →
    lowerAlts (resolve env v) env ret alts = .ok branches → AltsResolve f scope v alts branches
  | [], env, ret, scope, v, branches, _, _, _, _, _, h => by
    rw [lowerAlts] at h
    cases h
    exact .nil
  | alt :: rest, env, ret, scope, v, branches, hv, hwrite, hbound, henv, hret, h => by
    obtain ⟨branch, more, hbranch, hmore, rfl⟩ := lowerAlts_cons_ok.1 h
    obtain ⟨hfirst, hrest⟩ := List.forall_mem_append.1 hbound
    exact .cons (lowerAlt_resolves alt hv hwrite.1 hfirst henv hret hbranch)
      (lowerAlts_resolve rest hv hwrite.2 hrest henv hret hmore)

end

end Vimgen.Lower
