import Vimgen.Proofs.Parts

/-!
# Paths through a function

`blockPaths` lists the control paths through statements: a conditional takes one of its arms, or its
default, or is passed over if it has none, and a path ends at a return or a throw. On a path we see
which variables are read and which are bound, in order.

`lower_flow`: where the values of all bindings deliver, lowered statements read no local variable
that is not bound before on the path; and a path through an expression that delivers leaves the
function or has bound the variable of the continuation. `lowerDefinition_flow` says this of
functions.
-/

namespace Vimgen.Ir

/-! ## Expressions that deliver -/

mutual

/-- Whether an expression comes to a value or a failure whatever choices are made in it. -/
def Expr.delivers : Expr → Bool
  | .var _ | .app _ _ _ | .con _ _ _ _ | .proj _ _ | .const _ | .op _ _ | .nothing => true
  | .error _ => true
  | .foreign function _ _ => !function.isStatement
  | .bind _ _ body => body.delivers
  | .update _ value => value.delivers
  | .case _ alts _ _ => alts.any Alt.isDefault && altsDeliver alts

def Alt.delivers : Alt → Bool
  | .const _ body | .con _ _ _ _ body | .default body => body.delivers

def altsDeliver : List Alt → Bool
  | [] => true
  | alt :: rest => alt.delivers && altsDeliver rest

end

mutual

/-- Whether the value of every binding in an expression delivers. -/
def Expr.valuesDeliver : Expr → Bool
  | .bind _ value body => value.delivers && (value.valuesDeliver && body.valuesDeliver)
  | .update _ value => value.valuesDeliver
  | .case _ alts _ _ => altsValuesDeliver alts
  | _ => true

def Alt.valuesDeliver : Alt → Bool
  | .const _ body | .con _ _ _ _ body | .default body => body.valuesDeliver

def altsValuesDeliver : List Alt → Bool
  | [] => true
  | alt :: rest => alt.valuesDeliver && altsValuesDeliver rest

end

theorem delivers_of_mem {alts : List Alt} (h : altsDeliver alts = true) :
    ∀ alt ∈ alts, alt.body.delivers = true := by
  refine forall_body (f := (·.delivers = true)) (g := (altsDeliver · = true))
    (fun alt rest h => ?_) h
  have hbody : alt.delivers = alt.body.delivers := by cases alt <;> rfl
  rw [← hbody]
  exact Bool.and_eq_true_iff.1 h

theorem valuesDeliver_of_mem {alts : List Alt} (h : altsValuesDeliver alts = true) :
    ∀ alt ∈ alts, alt.body.valuesDeliver = true := by
  refine forall_body (f := (·.valuesDeliver = true)) (g := (altsValuesDeliver · = true))
    (fun alt rest h => ?_) h
  have hbody : alt.valuesDeliver = alt.body.valuesDeliver := by cases alt <;> rfl
  rw [← hbody]
  exact Bool.and_eq_true_iff.1 h

theorem delivers_of_isLeaf {e : Expr} (h : Lower.isLeaf e = true) :
    e.delivers = true ↔ e.leafKind ≠ .statement := by
  cases e with
  | bind v value body => cases h
  | update v value => cases h
  | case v alts checked shared => cases h
  | foreign function args result =>
    rw [Expr.delivers, Expr.leafKind]
    cases function.isStatement <;> simp
  | _ => simp [Expr.delivers, Expr.leafKind]

end Vimgen.Ir

namespace Vimgen.Script

/-! ## Paths -/

/-- What happens to a variable. -/
inductive Action where
  | reads (name : ScopedName)
  | binds (name : ScopedName)
  deriving DecidableEq, Repr

/-- A path: what happens on it, and whether it leaves the function. -/
structure Path where
  actions : List Action
  exits : Bool
  deriving DecidableEq, Repr

/-- The path where nothing happens. -/
def Path.empty : Path := ⟨[], false⟩

/-- The path with some variables read before. -/
def Path.after (names : List ScopedName) (p : Path) : Path :=
  ⟨names.map .reads ++ p.actions, p.exits⟩

/-- The ways to go on from a path: none, if it has left the function. -/
def Path.onward (p : Path) (rest : List Path) : List Path :=
  if p.exits then [p] else rest.map fun q => ⟨p.actions ++ q.actions, q.exits⟩

mutual

/-- The paths through a statement. -/
def Stmt.paths : Stmt → List Path
  | .bind name value | .assign (.name name) value =>
    [⟨value.names.map .reads ++ [.binds name], false⟩]
  | .assign target value => [⟨(value.names ++ target.names).map .reads, false⟩]
  | .ret value => [⟨value.names.map .reads, true⟩]
  | .call name args => [⟨(name :: exprsNames args).map .reads, false⟩]
  | .command command arg => [⟨arg.names.map .reads, command = "throw"⟩]
  | .cond arms none => armsPaths [.empty] arms
  | .cond arms (some default) => armsPaths (blockPaths default) arms
  | .function _ _ _ | .stray _ => [.empty]

/-- The paths through statements in a row. -/
def blockPaths : List Stmt → List Path
  | [] => [.empty]
  | s :: rest => s.paths.flatMap fun p => p.onward (blockPaths rest)

/-- The paths through one of several arms, or else `otherwise`; all tests up to it are read. -/
def armsPaths (otherwise : List Path) : List Arm → List Path
  | [] => otherwise
  | .mk test body :: rest =>
    (blockPaths body ++ armsPaths otherwise rest).map (Path.after test.names)

end

/-- Whether every local variable is bound or known before it is read. -/
def readsBound (known : List ScopedName) : List Action → Bool
  | [] => true
  | .reads name :: rest => (name.scope ≠ .local || name ∈ known) && readsBound known rest
  | .binds name :: rest => readsBound (name :: known) rest

/-! ### Laws -/

theorem Path.onward_flatMap (p : Path) (rest rest' : List Path) :
    ((p.onward rest).flatMap fun q => q.onward rest') =
      p.onward (rest.flatMap fun q => q.onward rest') := by
  rcases p with ⟨actions, _ | _⟩
  · simp only [Path.onward, Bool.false_eq_true, if_false, List.flatMap_map, List.map_flatMap]
    congr 1
    funext q
    rcases q with ⟨more, _ | _⟩ <;> simp
  · simp [Path.onward]

theorem blockPaths_append (a b : Block) :
    blockPaths (a ++ b) = (blockPaths a).flatMap fun p => p.onward (blockPaths b) := by
  induction a with
  | nil => simp [blockPaths, Path.onward, Path.empty]
  | cons s a ih =>
    simp only [List.cons_append, blockPaths, ih, List.flatMap_assoc, Path.onward_flatMap]

theorem blockPaths_singleton (s : Stmt) : blockPaths [s] = s.paths := by
  have hend : ∀ p : Path, p.onward [.empty] = [p] := by
    rintro ⟨actions, _ | _⟩ <;> simp [Path.onward, Path.empty]
  simp only [blockPaths, hend, List.flatMap_singleton']

/-- A path through two blocks ends in the first one, or goes through both. -/
theorem mem_blockPaths_append {a b : Block} {p : Path} (h : p ∈ blockPaths (a ++ b)) :
    (p ∈ blockPaths a ∧ p.exits = true) ∨
      ∃ q ∈ blockPaths a, q.exits = false ∧
        ∃ r ∈ blockPaths b, p = ⟨q.actions ++ r.actions, r.exits⟩ := by
  rw [blockPaths_append] at h
  obtain ⟨q, hq, hp⟩ := List.mem_flatMap.1 h
  unfold Path.onward at hp
  split at hp
  · rename_i hexits
    rw [List.mem_singleton.1 hp]
    exact .inl ⟨hq, hexits⟩
  · rename_i hexits
    obtain ⟨r, hr, rfl⟩ := List.mem_map.1 hp
    exact .inr ⟨q, hq, Bool.eq_false_iff.2 hexits, r, hr, rfl⟩

/-- A path through arms reads some of the tests and goes through one body, or through none. -/
theorem mem_armsPaths {otherwise : List Path} {arms : List Arm} {p : Path}
    (h : p ∈ armsPaths otherwise arms) :
    ∃ names q, p = q.after names ∧
      (∀ n ∈ names, ∃ test body, Arm.mk test body ∈ arms ∧ n ∈ test.names) ∧
      (q ∈ otherwise ∨ ∃ test body, Arm.mk test body ∈ arms ∧ q ∈ blockPaths body) := by
  induction arms generalizing p with
  | nil => exact ⟨[], p, rfl, List.forall_mem_nil _, .inl h⟩
  | cons arm arms ih =>
    cases arm with
    | mk test body =>
      have hhead : Arm.mk test body ∈ Arm.mk test body :: arms := List.mem_cons_self
      obtain ⟨q, hq, rfl⟩ := List.mem_map.1 h
      rcases List.mem_append.1 hq with hbody | hrest
      · refine ⟨test.names, q, rfl, fun n hn => ⟨test, body, hhead, hn⟩, .inr ?_⟩
        exact ⟨test, body, hhead, hbody⟩
      · obtain ⟨names, q', rfl, hnames, hq'⟩ := ih hrest
        refine ⟨test.names ++ names, q', by simp [Path.after], ?_, ?_⟩
        · refine List.forall_mem_append.2 ⟨fun n hn => ⟨test, body, hhead, hn⟩, fun n hn => ?_⟩
          obtain ⟨test', body', hmem, hn⟩ := hnames n hn
          exact ⟨test', body', List.mem_cons_of_mem _ hmem, hn⟩
        · rcases hq' with hother | ⟨test', body', hmem, hq'⟩
          · exact .inl hother
          · exact .inr ⟨test', body', List.mem_cons_of_mem _ hmem, hq'⟩

theorem readsBound_mono {known known' : List ScopedName} (h : known ⊆ known')
    {actions : List Action} (hbound : readsBound known actions = true) :
    readsBound known' actions = true := by
  induction actions generalizing known known' with
  | nil => rfl
  | cons action rest ih =>
    cases action with
    | reads n =>
      obtain ⟨hn, hrest⟩ := Bool.and_eq_true_iff.1 hbound
      refine Bool.and_eq_true_iff.2 ⟨?_, ih h hrest⟩
      rcases Bool.or_eq_true_iff.1 hn with hscope | hmem
      · exact Bool.or_eq_true_iff.2 (.inl hscope)
      · exact Bool.or_eq_true_iff.2 (.inr (decide_eq_true (h (of_decide_eq_true hmem))))
    | binds n => exact ih (List.cons_subset_cons n h) hbound

/-- Reading known variables does no harm. -/
theorem readsBound_reads {known names : List ScopedName}
    (h : ∀ n ∈ names, n.scope = .local → n ∈ known) (rest : List Action) :
    readsBound known (names.map .reads ++ rest) = readsBound known rest := by
  induction names with
  | nil => rfl
  | cons n names ih =>
    obtain ⟨hn, hnames⟩ := List.forall_mem_cons.1 h
    have hread : (decide (n.scope ≠ .local) || decide (n ∈ known)) = true := by
      by_cases hscope : n.scope = .local
      · simp [hn hscope]
      · simp [hscope]
    rw [List.map_cons, List.cons_append, readsBound, hread, Bool.true_and, ih hnames]

/-- What is bound first is known afterwards. -/
theorem readsBound_append {known known' : List ScopedName} {first second : List Action}
    (hfirst : readsBound known first = true) (hsecond : readsBound known' second = true)
    (h : ∀ n ∈ known', n ∈ known ∨ .binds n ∈ first) :
    readsBound known (first ++ second) = true := by
  induction first generalizing known with
  | nil =>
    refine readsBound_mono (fun n hn => ?_) hsecond
    rcases h n hn with hknown | hbinds
    · exact hknown
    · cases hbinds
  | cons action first ih =>
    cases action with
    | reads m =>
      obtain ⟨hm, hrest⟩ := Bool.and_eq_true_iff.1 hfirst
      refine Bool.and_eq_true_iff.2 ⟨hm, ih hrest fun n hn => ?_⟩
      rcases h n hn with hknown | hbinds
      · exact .inl hknown
      · rcases List.mem_cons.1 hbinds with heq | hbinds
        · cases heq
        · exact .inr hbinds
    | binds m =>
      refine ih hfirst fun n hn => ?_
      rcases h n hn with hknown | hbinds
      · exact .inl (List.mem_cons_of_mem _ hknown)
      · rcases List.mem_cons.1 hbinds with heq | hbinds
        · cases heq
          exact .inl List.mem_cons_self
        · exact .inr hbinds

/-- Every local variable that is read is known, or bound before. -/
theorem binds_of_readsBound {known : List ScopedName} {before after : List Action} {n : ScopedName}
    (h : readsBound known (before ++ .reads n :: after) = true) (hn : n.scope = .local) :
    n ∈ known ∨ .binds n ∈ before := by
  induction before generalizing known with
  | nil =>
    have hread := (Bool.and_eq_true_iff.1 h).1
    exact .inl (by simpa [hn] using hread)
  | cons action before ih =>
    cases action with
    | reads m =>
      rcases ih (Bool.and_eq_true_iff.1 h).2 with hknown | hbinds
      · exact .inl hknown
      · exact .inr (List.mem_cons_of_mem _ hbinds)
    | binds m =>
      rcases ih h with hknown | hbinds
      · rcases List.mem_cons.1 hknown with rfl | hknown
        · exact .inr List.mem_cons_self
        · exact .inl hknown
      · exact .inr (List.mem_cons_of_mem _ hbinds)

/-! ## Blocks -/

/-- On all paths, local variables are bound or known before they are read. -/
def BindsFirst (known : List ScopedName) (b : Block) : Prop :=
  ∀ p ∈ blockPaths b, readsBound known p.actions = true

/-- All paths leave the function, or bind the variable that a value should go to. -/
def Reaches (target : Option ScopedName) (b : Block) : Prop :=
  ∀ p ∈ blockPaths b, p.exits = true ∨ ∃ n ∈ target, .binds n ∈ p.actions

/-- A statement that reads some variables before anything else. -/
theorem bindsFirst_singleton {known names : List ScopedName} {s : Stmt} {rest : List Action}
    {exits : Bool} (hs : s.paths = [⟨names.map .reads ++ rest, exits⟩])
    (hnames : ∀ n ∈ names, n.scope = .local → n ∈ known) (hrest : readsBound known rest = true) :
    BindsFirst known [s] := by
  intro p hp
  rw [blockPaths_singleton, hs, List.mem_singleton] at hp
  rw [hp, readsBound_reads hnames, hrest]

theorem reaches_singleton {target : Option ScopedName} {s : Stmt} {p : Path} (hs : s.paths = [p])
    (h : p.exits = true ∨ ∃ n ∈ target, .binds n ∈ p.actions) : Reaches target [s] := by
  intro q hq
  rw [blockPaths_singleton, hs, List.mem_singleton] at hq
  rw [hq]
  exact h

theorem BindsFirst.append {known known' : List ScopedName} {a b : Block} (ha : BindsFirst known a)
    (hb : BindsFirst known' b)
    (h : ∀ q ∈ blockPaths a, q.exits = false → ∀ n ∈ known', n ∈ known ∨ .binds n ∈ q.actions) :
    BindsFirst known (a ++ b) := by
  intro p hp
  rcases mem_blockPaths_append hp with ⟨hp, -⟩ | ⟨q, hq, hgoes, r, hr, rfl⟩
  · exact ha p hp
  · exact readsBound_append (ha q hq) (hb r hr) (h q hq hgoes)

theorem Reaches.append_left {target : Option ScopedName} {a : Block} (h : Reaches target a)
    (b : Block) : Reaches target (a ++ b) := by
  intro p hp
  rcases mem_blockPaths_append hp with ⟨-, hexits⟩ | ⟨q, hq, hgoes, r, -, rfl⟩
  · exact .inl hexits
  · rcases h q hq with hexits | ⟨n, hn, hbinds⟩
    · rw [hgoes] at hexits
      cases hexits
    · exact .inr ⟨n, hn, List.mem_append_left _ hbinds⟩

theorem Reaches.append_right {target : Option ScopedName} {b : Block} (h : Reaches target b)
    (a : Block) : Reaches target (a ++ b) := by
  intro p hp
  rcases mem_blockPaths_append hp with ⟨-, hexits⟩ | ⟨q, -, -, r, hr, rfl⟩
  · exact .inl hexits
  · rcases h r hr with hexits | ⟨n, hn, hbinds⟩
    · exact .inl hexits
    · exact .inr ⟨n, hn, List.mem_append_right _ hbinds⟩

end Vimgen.Script

namespace Vimgen.Lower

open Script (Arm BindsFirst Block Reaches ScopedName armsPaths blockPaths)

/-! ## Lowering -/

theorem blockPaths_joinBranches (branches : List Branch) :
    blockPaths (joinBranches branches) =
      armsPaths (blockPaths (branches.filterMap Branch.fallback?).flatten)
        (branches.filterMap Branch.arm?) := by
  refine joinBranches_cases (motive := fun b => blockPaths b = armsPaths
    (blockPaths (branches.filterMap Branch.fallback?).flatten) (branches.filterMap Branch.arm?))
    branches (fun h => ?_) (fun _ h => ?_) (fun _ _ => ?_)
  · rw [h, armsPaths]
  · rw [h, Script.blockPaths_singleton]
    rfl
  · rw [Script.blockPaths_singleton]
    rfl

theorem bindsFirst_joinBranches {known : List ScopedName} {branches : List Branch}
    (htests : ∀ test body, Arm.mk test body ∈ branches.filterMap Branch.arm? →
      ∀ n ∈ test.names, n.scope = .local → n ∈ known)
    (hbodies : ∀ test body, Arm.mk test body ∈ branches.filterMap Branch.arm? →
      BindsFirst known body)
    (hdefaults : BindsFirst known (branches.filterMap Branch.fallback?).flatten) :
    BindsFirst known (joinBranches branches) := by
  intro p hp
  rw [blockPaths_joinBranches] at hp
  obtain ⟨names, q, rfl, hnames, hq⟩ := Script.mem_armsPaths hp
  have hknown : ∀ n ∈ names, n.scope = .local → n ∈ known := by
    intro n hn
    obtain ⟨test, body, hmem, hn⟩ := hnames n hn
    exact htests test body hmem n hn
  rw [Script.Path.after, Script.readsBound_reads hknown]
  rcases hq with hq | ⟨test, body, hmem, hq⟩
  · exact hdefaults q hq
  · exact hbodies test body hmem q hq

theorem reaches_joinBranches {target : Option ScopedName} {branches : List Branch}
    (hbodies : ∀ test body, Arm.mk test body ∈ branches.filterMap Branch.arm? →
      Reaches target body)
    (hdefaults : Reaches target (branches.filterMap Branch.fallback?).flatten) :
    Reaches target (joinBranches branches) := by
  intro p hp
  rw [blockPaths_joinBranches] at hp
  obtain ⟨names, q, rfl, -, hq⟩ := Script.mem_armsPaths hp
  have hreaches : q.exits = true ∨ ∃ n ∈ target, .binds n ∈ q.actions := by
    rcases hq with hq | ⟨test, body, hmem, hq⟩
    · exact hdefaults q hq
    · exact hbodies test body hmem q hq
  rcases hreaches with hexits | ⟨n, hn, hbinds⟩
  · exact .inl hexits
  · exact .inr ⟨n, hn, List.mem_append_right _ hbinds⟩

/-- What happens when fields are loaded. -/
def loadActions (scrutinee : Script.Expr) (is : List Int) : List Script.Action :=
  is.flatMap fun i => scrutinee.names.map .reads ++ [.binds (localName i)]

theorem blockPaths_loads (scrutinee : Script.Expr) (is : List Int) (k : Int) :
    blockPaths (loads scrutinee k is) = [⟨loadActions scrutinee is, false⟩] := by
  induction is generalizing k with
  | nil => rfl
  | cons i is ih =>
    have hfield : (field scrutinee k).names = scrutinee.names := List.append_nil _
    simp [loads, blockPaths, Script.Stmt.paths, ih, hfield, Script.Path.onward, loadActions]

theorem readsBound_loadActions {known : List ScopedName} {scrutinee : Script.Expr}
    (h : ∀ n ∈ scrutinee.names, n.scope = .local → n ∈ known) (is : List Int) :
    Script.readsBound known (loadActions scrutinee is) = true := by
  induction is generalizing known with
  | nil => rfl
  | cons i is ih =>
    rw [loadActions, List.flatMap_cons, List.append_assoc, Script.readsBound_reads h]
    exact ih fun n hn hscope => List.mem_cons_of_mem _ (h n hn hscope)

theorem mem_loadActions (scrutinee : Script.Expr) {i : Int} {is : List Int} (h : i ∈ is) :
    .binds (localName i) ∈ loadActions scrutinee is :=
  List.mem_flatMap.2 ⟨i, h, List.mem_append_right _ List.mem_cons_self⟩

/-- The local variables that an environment has names for are known. -/
def Covers (known : List ScopedName) (env : Env) : Prop :=
  ∀ m, (env.lookup m).scope = .local → env.lookup m ∈ known

theorem Covers.enter {known : List ScopedName} {env : Env} (h : Covers known env) (is : List Int) :
    Covers (is.map localName ++ known) (enter env is) := by
  intro m hscope
  cases hslot : m.isSlot with
  | false =>
    rw [lookup_enter_name env is hslot] at hscope ⊢
    exact List.mem_append_right _ (h m hscope)
  | true =>
    cases m with
    | slot j =>
      rw [lookup_enter_slot] at hscope ⊢
      by_cases hj : j ∈ is
      · rw [if_pos hj]
        exact List.mem_append_left _ (List.mem_map_of_mem hj)
      · rw [if_neg hj] at hscope ⊢
        exact List.mem_append_right _ (h _ hscope)
    | topLevel namespaces name => cases hslot
    | machine name index => cases hslot

/-- What is found in a covered environment may be read. -/
theorem Covers.known {known : List ScopedName} {env : Env} {names : List Name} {n : ScopedName}
    (h : Covers known env) (hn : FoundIn env names n) (hscope : n.scope = .local) : n ∈ known := by
  rcases hn with hbuiltin | ⟨m, -, rfl⟩
  · rw [hscope] at hbuiltin
    cases hbuiltin
  · exact h m hscope

/-- The continuation that takes a value to a variable, or out of the function. -/
def toTarget : Option ScopedName → Continuation
  | none => returnValue
  | some n => bindTo n

/-- The continuation reads the value, and then leaves the function or binds the variable. -/
theorem toTarget_flow {known : List ScopedName} {x : Script.Expr}
    (hx : ∀ n ∈ x.names, n.scope = .local → n ∈ known) (target : Option ScopedName) :
    BindsFirst known [toTarget target x] ∧ Reaches target [toTarget target x] := by
  cases target with
  | none =>
    have hpaths : (toTarget none x).paths = [⟨x.names.map .reads ++ [], true⟩] := by
      rw [List.append_nil]
      rfl
    exact ⟨Script.bindsFirst_singleton hpaths hx rfl, Script.reaches_singleton hpaths (.inl rfl)⟩
  | some n =>
    have hpaths : (toTarget (some n) x).paths = [⟨x.names.map .reads ++ [.binds n], false⟩] := rfl
    refine ⟨Script.bindsFirst_singleton hpaths hx rfl, Script.reaches_singleton hpaths (.inr ?_)⟩
    exact ⟨n, rfl, List.mem_append_right _ List.mem_cons_self⟩

/-- **A leaf** reads known variables only, and delivers unless it is a statement. -/
theorem leaf_flow {known : List ScopedName} {env : Env} (hcovers : Covers known env) {e : Ir.Expr}
    (hleaf : isLeaf e = true) {target : Option ScopedName} {block : Block}
    (hlow : lower env (toTarget target) e = .ok block) :
    BindsFirst known block ∧ (e.delivers = true → Reaches target block) := by
  rw [Ir.delivers_of_isLeaf hleaf]
  cases leafCode env hleaf with
  | value x _ hlower hnames =>
    rw [hlower] at hlow
    cases hlow
    obtain ⟨hfirst, hreaches⟩ :=
      toTarget_flow (fun n hn => hcovers.known (hnames n hn)) target
    exact ⟨hfirst, fun _ => hreaches⟩
  | echo x hkind hlower hnames =>
    rw [hlower] at hlow
    cases hlow
    have hpaths : (Script.Stmt.command "echo" x).paths = [⟨x.names.map .reads ++ [], false⟩] := by
      rw [List.append_nil]
      rfl
    refine ⟨Script.bindsFirst_singleton hpaths ?_ rfl, fun hdelivers => absurd hkind hdelivers⟩
    exact fun n hn => hcovers.known (hnames n hn)
  | setItem list index x hkind hlower hnames =>
    rw [hlower] at hlow
    cases hlow
    -- the value is read first, then the list and the place in it
    have hpaths : (Script.Stmt.assign (.item (.name list) (.single index)) x).paths =
        [⟨(x.names ++ list :: index.names).map .reads ++ [], false⟩] := by
      rw [List.append_nil]
      rfl
    refine ⟨Script.bindsFirst_singleton hpaths ?_ rfl, fun hdelivers => absurd hkind hdelivers⟩
    intro n hn
    have hmem : n ∈ list :: (index.names ++ x.names) := by
      simp only [List.mem_append, List.mem_cons] at hn ⊢
      tauto
    exact hcovers.known (hnames n hmem)
  | throw message _ hlower =>
    rw [hlower] at hlow
    cases hlow
    have hpaths : (Script.Stmt.command "throw" (.str message)).paths =
        [⟨([] : List ScopedName).map .reads ++ [], true⟩] := rfl
    refine ⟨Script.bindsFirst_singleton hpaths (List.forall_mem_nil _) rfl, fun _ => ?_⟩
    exact Script.reaches_singleton hpaths (.inl rfl)
  | refused error hlower =>
    rw [hlower] at hlow
    cases hlow

/-- An arm loads fields before its body, where their slots are known. -/
theorem bindsFirst_loads_append {known : List ScopedName} {scrutinee : Script.Expr} {is : List Int}
    {body : Block} (hscrutinee : ∀ n ∈ scrutinee.names, n.scope = .local → n ∈ known)
    (hbody : BindsFirst (is.map localName ++ known) body) :
    BindsFirst known (loads scrutinee 1 is ++ body) := by
  have hload : BindsFirst known (loads scrutinee 1 is) := by
    intro p hp
    rw [blockPaths_loads, List.mem_singleton] at hp
    rw [hp, readsBound_loadActions hscrutinee]
  refine hload.append hbody fun q hq _ n hn => ?_
  rw [blockPaths_loads, List.mem_singleton] at hq
  rcases List.mem_append.1 hn with hn | hn
  · obtain ⟨i, hi, rfl⟩ := List.mem_map.1 hn
    rw [hq]
    exact .inr (mem_loadActions _ hi)
  · exact .inl hn

/-- The defaults in a row. -/
theorem defaults_flow {known : List ScopedName} {env : Env} {target : Option ScopedName}
    {scrutinee : Script.Expr} {alts : List Ir.Alt} {branches : List Branch}
    (h : List.Forall₂ (fun alt b => lowerAlt scrutinee env (toTarget target) alt = .ok b) alts
      branches)
    (hbody : ∀ alt ∈ alts, ∀ block, lower env (toTarget target) alt.body = .ok block →
      BindsFirst known block ∧ (alt.body.delivers = true → Reaches target block)) :
    BindsFirst known (branches.filterMap Branch.fallback?).flatten ∧
      (alts.any Ir.Alt.isDefault = true → (∀ alt ∈ alts, alt.body.delivers = true) →
        Reaches target (branches.filterMap Branch.fallback?).flatten) := by
  induction h with
  | nil =>
    refine ⟨fun p hp => ?_, fun hany => (by cases hany)⟩
    rw [List.mem_singleton.1 hp]
    rfl
  | @cons alt branch alts branches hbranch _ ih =>
    obtain ⟨halt, hbody⟩ := List.forall_mem_cons.1 hbody
    obtain ⟨hfirst, hreaches⟩ := ih hbody
    rcases lowerAlt_eq_ok hbranch with ⟨test, is, body, hkind, -, -, rfl⟩ | ⟨body, -, hlower, rfl⟩
    · refine ⟨hfirst, fun hany hdeliver => ?_⟩
      rw [List.any_cons, hkind, Bool.false_or] at hany
      exact hreaches hany (List.forall_mem_cons.1 hdeliver).2
    · -- one default that delivers is enough, and later ones only add to the path
      obtain ⟨hbinds, hdelivers⟩ := halt body hlower
      refine ⟨hbinds.append hfirst fun _ _ _ n hn => .inl hn, fun _ hdeliver => ?_⟩
      exact (hdelivers (List.forall_mem_cons.1 hdeliver).1).append_left _

/-- **Variables are bound before they are read**, on all paths through the statements of an
expression where the values of bindings deliver; and an expression that delivers does so on all of
them. -/
theorem lower_flow (e : Ir.Expr) : ∀ (target : Option ScopedName) {known : List ScopedName}
    {env : Env} {block : Block}, Covers known env → e.valuesDeliver = true →
    lower env (toTarget target) e = .ok block →
    BindsFirst known block ∧ (e.delivers = true → Reaches target block) := by
  induction e using Ir.Expr.byParts with
  | leaf e hleaf =>
    intro target known env block hcovers _ hlow
    exact leaf_flow hcovers hleaf hlow
  | bind v value body hvalue hbody =>
    intro target known env block hcovers hvalues hlow
    obtain ⟨hdelivers, hvalues⟩ := Bool.and_eq_true_iff.1 hvalues
    obtain ⟨hinner, hrest⟩ := Bool.and_eq_true_iff.1 hvalues
    cases v with
    | glob n => cases hlow
    | loc i =>
      obtain ⟨first, second, hfirst, hsecond, rfl⟩ := lower_bind_ok.1 hlow
      obtain ⟨hbinds, hreaches⟩ := hvalue (some (localName i)) hcovers hinner hfirst
      obtain ⟨hbinds', hreaches'⟩ := hbody target (hcovers.enter [i]) hrest hsecond
      refine ⟨hbinds.append hbinds' fun q hq hgoes n hn => ?_, fun h => ?_⟩
      · -- a path that goes on after the value has bound the slot
        rcases List.mem_cons.1 hn with rfl | hn
        · rcases hreaches hdelivers q hq with hexits | ⟨m, hm, hmem⟩
          · rw [hgoes] at hexits
            cases hexits
          · cases hm
            exact .inr hmem
        · exact .inl hn
      · exact (hreaches' h).append_right first
  | update v value hvalue =>
    intro target known env block hcovers hvalues hlow
    exact hvalue target hcovers hvalues hlow
  | case v alts checked shared halts =>
    intro target known env block hcovers hvalues hlow
    obtain ⟨branches, hbranches, rfl⟩ := lower_case_eq_ok hlow
    have hinner := Ir.valuesDeliver_of_mem hvalues
    have hscrutinee : ∀ n ∈ (resolve env v).names, n.scope = .local → n ∈ known := by
      intro n hn
      rw [List.mem_singleton.1 hn]
      exact hcovers v.name
    -- in the body of an arm the fields are known besides, but its test stands outside
    have harms : ∀ test body, Arm.mk test body ∈ branches.filterMap Branch.arm? →
        (∀ n ∈ test.names, n ∈ (resolve env v).names) ∧ BindsFirst known body ∧
          ((∀ alt ∈ alts, alt.body.delivers = true) → Reaches target body) := by
      intro test body hmem
      obtain ⟨alt, halt, is, block, htest, hblock, rfl⟩ := exists_of_mem_arms hbranches hmem
      obtain ⟨hbinds, hreaches⟩ :=
        halts alt halt target (hcovers.enter is) (hinner alt halt) hblock
      refine ⟨htest, bindsFirst_loads_append hscrutinee hbinds, fun h => ?_⟩
      exact (hreaches (h alt halt)).append_right _
    obtain ⟨hdefaults, hdeliver⟩ := defaults_flow hbranches
      fun alt halt block hlower => halts alt halt target hcovers (hinner alt halt) hlower
    refine ⟨bindsFirst_joinBranches ?_ (fun test body hmem => (harms test body hmem).2.1) hdefaults,
      fun h => ?_⟩
    · exact fun test body hmem n hn => hscrutinee n ((harms test body hmem).1 n hn)
    · obtain ⟨hany, hall⟩ := Bool.and_eq_true_iff.1 h
      have hall := Ir.delivers_of_mem hall
      exact reaches_joinBranches (fun test body hmem => (harms test body hmem).2.2 hall)
        (hdeliver hany hall)

/-! ## Functions -/

/-- No local variables are in scope where a body starts. -/
theorem covers_bodyEnv (definitions : List Ir.Definition) (arity : Nat) :
    Covers [] (bodyEnv definitions arity) := by
  have hglobal : ∀ n, ((globalEnv definitions).lookup n).scope ≠ .local := by
    intro n
    rw [lookup_globalEnv]
    split <;> simp [functionName]
  intro m hscope
  cases hslot : m.isSlot with
  | false =>
    rw [lookup_bodyEnv_name definitions arity hslot] at hscope
    exact absurd hscope (hglobal m)
  | true =>
    cases m with
    | slot i =>
      rw [lookup_bodyEnv_slot] at hscope
      split at hscope
      · cases hscope
      · exact absurd hscope (hglobal _)
    | topLevel namespaces name => cases hslot
    | machine name index => cases hslot

/-- **The flow of a function.** If the values of all bindings in a definition deliver, then on every
path through its function a local variable is bound before it is read; and if the body delivers,
every path ends with a return or a throw. -/
theorem lowerDefinition_flow {definitions : List Ir.Definition} {d : Ir.Definition}
    {name : ScopedName} {params : List String} {body : Block}
    (hlow : lowerDefinition (globalEnv definitions) d = .ok (.function name params body))
    (hvalues : d.body.valuesDeliver = true) :
    (∀ p ∈ blockPaths body, ∀ before after n, p.actions = before ++ .reads n :: after →
      n.scope = .local → .binds n ∈ before) ∧
    (d.body.delivers = true → ∀ p ∈ blockPaths body, p.exits = true) := by
  obtain ⟨block, hbody, hfunction⟩ := bind_eq_ok.1 hlow
  cases hfunction
  obtain ⟨hbinds, hreaches⟩ :=
    lower_flow d.body none (covers_bodyEnv definitions d.arity) hvalues hbody
  refine ⟨fun p hp before after n hsplit hn => ?_, fun hdelivers p hp => ?_⟩
  · have hbound := hbinds p hp
    rw [hsplit] at hbound
    rcases Script.binds_of_readsBound hbound hn with hknown | hbefore
    · cases hknown
    · exact hbefore
  · rcases hreaches hdelivers p hp with hexits | ⟨n, hn, -⟩
    · exact hexits
    · cases hn

/-- Takes the second of a pair, and puts it together with the pair unless it is zero. -/
def secondOfPair : Ir.Definition where
  name := .plain "second"
  params := [.plain "pair"]
  body :=
    .bind (.loc 1)
      (.case (.loc 0) [.con 2 7 (.plain "pair") [.plain "x", .plain "y"] (.var (.loc 3)),
        .default (.error "no pair")] false true)
      (.case (.loc 1) [.const (.int 0) (.var (.loc 1)),
        .default (.con 9 (.plain "both") [.loc 1, .loc 0] none)] false true)

theorem lowerDefinition_flow_secondOfPair :
    secondOfPair.body.valuesDeliver = true ∧ secondOfPair.body.delivers = true ∧
    ∃ name params body,
      lowerDefinition (globalEnv [secondOfPair]) secondOfPair = .ok (.function name params body) ∧
      (blockPaths body).length = 3 ∧
      (∀ p ∈ blockPaths body, ∀ before after n, p.actions = before ++ .reads n :: after →
        n.scope = .local → .binds n ∈ before) ∧
      ∀ p ∈ blockPaths body, p.exits = true := by
  have hvalues : secondOfPair.body.valuesDeliver = true := by decide
  have hdelivers : secondOfPair.body.delivers = true := by decide
  obtain ⟨name, params, body, hlow, hcount⟩ : ∃ name params body,
      lowerDefinition (globalEnv [secondOfPair]) secondOfPair = .ok (.function name params body) ∧
        (blockPaths body).length = 3 := ⟨_, _, _, rfl, rfl⟩
  obtain ⟨hbound, hexits⟩ := lowerDefinition_flow hlow hvalues
  exact ⟨hvalues, hdelivers, name, params, body, hlow, hcount, hbound, hexits hdelivers⟩

end Vimgen.Lower
