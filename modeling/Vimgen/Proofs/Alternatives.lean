import Vimgen.Proofs.Parts

/-!
# The two lists behind a choice

The alternatives of a choice come in any order, and lowering keeps two lists of them: those with a
test, which become arms, and the defaults, whose statements run in a row. `ChoiceCode` says what a
choice becomes in terms of these two lists and of what each alternative becomes by itself;
`lowerCase_eq_ok_iff` says that this is what lowering gives. How tested alternatives and defaults
are interleaved is therefore of no account.
-/

namespace Vimgen.Ir

/-- The alternatives with a test, in order. -/
def testedAlts (alts : List Alt) : List Alt := alts.filter fun alt => !alt.isDefault

/-- The defaults, in order. -/
def defaultAlts (alts : List Alt) : List Alt := alts.filter Alt.isDefault

theorem testedAlts_cons (alt : Alt) (rest : List Alt) :
    testedAlts (alt :: rest) =
      if alt.isDefault then testedAlts rest else alt :: testedAlts rest := by
  cases h : alt.isDefault with
  | false => exact List.filter_cons_of_pos (by rw [h]; rfl)
  | true => exact List.filter_cons_of_neg (by rw [h]; decide)

theorem defaultAlts_cons (alt : Alt) (rest : List Alt) :
    defaultAlts (alt :: rest) =
      if alt.isDefault then alt :: defaultAlts rest else defaultAlts rest :=
  List.filter_cons

end Vimgen.Ir

namespace Vimgen.Lower

open Ir (Alt defaultAlts testedAlts)
open Script (Arm Block)

/-- The arm of an alternative: a choice with no other alternative is a condition with this arm. -/
def LoneArm (scrutinee : Script.Expr) (env : Env) (ret : Continuation) (alt : Alt) (arm : Arm) :
    Prop :=
  lowerCase scrutinee env ret [alt] = .ok [.cond [arm] none]

/-- The statements of a default: those of its body. -/
def LoneBody (env : Env) (ret : Continuation) (alt : Alt) (body : Block) : Prop :=
  lower env ret alt.body = .ok body

/-- What a choice becomes, from its tested alternatives and its defaults. -/
inductive ChoiceCode (scrutinee : Script.Expr) (env : Env) (ret : Continuation)
    (tested defaults : List Alt) : Block → Prop
  /-- Without a test, the defaults in a row. -/
  | inline (bodies : List Block) (htested : tested = [])
    (hbodies : List.Forall₂ (LoneBody env ret) defaults bodies) :
    ChoiceCode scrutinee env ret tested defaults bodies.flatten
  /-- Without a default, one condition with no last branch. -/
  | cond (arms : List Arm) (htested : tested ≠ []) (hdefaults : defaults = [])
    (harms : List.Forall₂ (LoneArm scrutinee env ret) tested arms) :
    ChoiceCode scrutinee env ret tested defaults [.cond arms none]
  /-- With both, one condition, and the defaults in a row in its last branch, even if they have no
  statements. -/
  | condElse (arms : List Arm) (bodies : List Block) (htested : tested ≠ [])
    (hdefaults : defaults ≠ []) (harms : List.Forall₂ (LoneArm scrutinee env ret) tested arms)
    (hbodies : List.Forall₂ (LoneBody env ret) defaults bodies) :
    ChoiceCode scrutinee env ret tested defaults [.cond arms (some bodies.flatten)]

variable {scrutinee : Script.Expr} {env : Env} {ret : Continuation}

/-! ## One alternative -/

theorem lowerCase_singleton (alt : Alt) :
    lowerCase scrutinee env ret [alt] =
      (lowerAlt scrutinee env ret alt).map fun branch => joinBranches [branch] := by
  rw [lowerCase, lowerAlts, lowerAlts]
  cases lowerAlt scrutinee env ret alt with
  | error e => rfl
  | ok branch => rfl

theorem exists_arm_of_lowerAlt {alt : Alt} (hkind : alt.isDefault = false) {branch : Branch}
    (h : lowerAlt scrutinee env ret alt = .ok branch) : ∃ arm, branch = .tested arm := by
  rcases lowerAlt_eq_ok h with ⟨test, is, body, -, -, -, rfl⟩ | ⟨body, hdefault, -, -⟩
  · exact ⟨_, rfl⟩
  · rw [hkind] at hdefault
    cases hdefault

/-- **The arm of a tested alternative** among others is its arm by itself. -/
theorem loneArm_iff {alt : Alt} (hkind : alt.isDefault = false) {arm : Arm} :
    LoneArm scrutinee env ret alt arm ↔ lowerAlt scrutinee env ret alt = .ok (.tested arm) := by
  rw [LoneArm, lowerCase_singleton]
  constructor
  · intro h
    cases hlower : lowerAlt scrutinee env ret alt with
    | error e => rw [hlower] at h; cases h
    | ok branch =>
      obtain ⟨own, rfl⟩ := exists_arm_of_lowerAlt hkind hlower
      rw [hlower] at h
      cases h
      rfl
  · intro h
    rw [h]
    rfl

/-- A default becomes the statements of its body. -/
theorem loneBody_iff {alt : Alt} (hkind : alt.isDefault = true) {branch : Branch} :
    lowerAlt scrutinee env ret alt = .ok branch ↔
      ∃ body, branch = .fallback body ∧ LoneBody env ret alt body := by
  cases alt with
  | const | con => cases hkind
  | default body =>
    rw [lowerAlt_default_ok]
    exact exists_congr fun block => and_comm

/-! ## All alternatives -/

/-- Branches in the order of the alternatives: their arms are those of the tested alternatives by
themselves, and their bodies those of the defaults. -/
theorem lone_of_branches {alts : List Alt} {branches : List Branch}
    (h : List.Forall₂ (fun alt b => lowerAlt scrutinee env ret alt = .ok b) alts branches) :
    List.Forall₂ (LoneArm scrutinee env ret) (testedAlts alts) (branches.filterMap Branch.arm?) ∧
    List.Forall₂ (LoneBody env ret) (defaultAlts alts) (branches.filterMap Branch.fallback?) := by
  induction h with
  | nil => exact ⟨.nil, .nil⟩
  | @cons alt branch rest branches hlower _ ih =>
    cases hkind : alt.isDefault with
    | false =>
      obtain ⟨arm, rfl⟩ := exists_arm_of_lowerAlt hkind hlower
      rw [Ir.testedAlts_cons, Ir.defaultAlts_cons, hkind]
      exact ⟨.cons ((loneArm_iff hkind).2 hlower) ih.1, ih.2⟩
    | true =>
      obtain ⟨body, rfl, hbody⟩ := (loneBody_iff hkind).1 hlower
      rw [Ir.testedAlts_cons, Ir.defaultAlts_cons, hkind]
      exact ⟨ih.1, .cons hbody ih.2⟩

/-- The other way: arms and bodies of the alternatives by themselves come from branches in the order
of the alternatives. -/
theorem exists_branches {alts : List Alt} {arms : List Arm} {bodies : List Block}
    (harms : List.Forall₂ (LoneArm scrutinee env ret) (testedAlts alts) arms)
    (hbodies : List.Forall₂ (LoneBody env ret) (defaultAlts alts) bodies) :
    ∃ branches,
      List.Forall₂ (fun alt b => lowerAlt scrutinee env ret alt = .ok b) alts branches ∧
      branches.filterMap Branch.arm? = arms ∧ branches.filterMap Branch.fallback? = bodies := by
  induction alts generalizing arms bodies with
  | nil =>
    cases harms
    cases hbodies
    exact ⟨[], .nil, rfl, rfl⟩
  | cons alt rest ih =>
    -- by its kind, the first alternative has the first arm or the first body
    rw [Ir.testedAlts_cons] at harms
    rw [Ir.defaultAlts_cons] at hbodies
    cases hkind : alt.isDefault with
    | false =>
      rw [hkind] at harms hbodies
      cases harms with
      | cons harm harms =>
        obtain ⟨branches, hbranches, rfl, rfl⟩ := ih harms hbodies
        exact ⟨_ :: branches, .cons ((loneArm_iff hkind).1 harm) hbranches, rfl, rfl⟩
    | true =>
      rw [hkind] at harms hbodies
      cases hbodies with
      | cons hbody hbodies =>
        obtain ⟨branches, hbranches, rfl, rfl⟩ := ih harms hbodies
        exact ⟨_ :: branches, .cons ((loneBody_iff hkind).2 ⟨_, rfl, hbody⟩) hbranches, rfl, rfl⟩

/-- **A choice is lowered from its two lists.** It has a script exactly if every alternative has one
by itself. -/
theorem lowerCase_eq_ok_iff {alts : List Alt} {block : Block} :
    lowerCase scrutinee env ret alts = .ok block ↔
      ChoiceCode scrutinee env ret (testedAlts alts) (defaultAlts alts) block := by
  rw [lowerCase_eq_join_iff]
  constructor
  · rintro ⟨branches, hbranches, rfl⟩
    obtain ⟨harms, hbodies⟩ := lone_of_branches hbranches
    -- a list is empty exactly if the one it corresponds to is
    refine joinBranches_cases branches (fun hnil => ?_) (fun hne hnil => ?_) (fun hne hne' => ?_)
    · have htested : testedAlts alts = [] := List.forall₂_nil_right_iff.1 (hnil ▸ harms)
      exact .inline _ htested hbodies
    · have htested : testedAlts alts ≠ [] := fun h =>
        hne (List.forall₂_nil_left_iff.1 (h ▸ harms))
      exact .cond _ htested (List.forall₂_nil_right_iff.1 (hnil ▸ hbodies)) harms
    · have htested : testedAlts alts ≠ [] := fun h =>
        hne (List.forall₂_nil_left_iff.1 (h ▸ harms))
      have hdefaults : defaultAlts alts ≠ [] := fun h =>
        hne' (List.forall₂_nil_left_iff.1 (h ▸ hbodies))
      exact .condElse _ _ htested hdefaults harms hbodies
  · intro hcode
    -- the branches are put back in the order of the alternatives, and joined again
    cases hcode with
    | inline bodies htested hbodies =>
      have hnone : List.Forall₂ (LoneArm scrutinee env ret) (testedAlts alts) [] := by
        rw [htested]; exact .nil
      obtain ⟨branches, hbranches, harms, hfallbacks⟩ := exists_branches hnone hbodies
      exact ⟨branches, hbranches, by rw [joinBranches, harms, hfallbacks]; rfl⟩
    | cond arms htested hdefaults harms =>
      have hnone : List.Forall₂ (LoneBody env ret) (defaultAlts alts) [] := by
        rw [hdefaults]; exact .nil
      obtain ⟨branches, hbranches, hown, hfallbacks⟩ := exists_branches harms hnone
      refine ⟨branches, hbranches, ?_⟩
      cases arms with
      | nil => exact absurd (List.forall₂_nil_right_iff.1 harms) htested
      | cons arm arms => rw [joinBranches, hown, hfallbacks]; rfl
    | condElse arms bodies htested hdefaults harms hbodies =>
      obtain ⟨branches, hbranches, hown, hfallbacks⟩ := exists_branches harms hbodies
      refine ⟨branches, hbranches, ?_⟩
      cases arms with
      | nil => exact absurd (List.forall₂_nil_right_iff.1 harms) htested
      | cons arm arms =>
        cases bodies with
        | nil => exact absurd (List.forall₂_nil_right_iff.1 hbodies) hdefaults
        | cons body bodies => rw [joinBranches, hown, hfallbacks]; rfl

/-- **A choice depends on its tested alternatives and its defaults only**, each kind in order. Its
script is told from the two lists, and every choice with the same two lists has the same script, in
whatever way they are interleaved. -/
theorem lowerCase_interleaved (scrutinee : Script.Expr) (env : Env) (ret : Continuation)
    (alts : List Alt) :
    (∀ block, lowerCase scrutinee env ret alts = .ok block ↔
      ChoiceCode scrutinee env ret (testedAlts alts) (defaultAlts alts) block) ∧
    ∀ others, testedAlts others = testedAlts alts → defaultAlts others = defaultAlts alts →
      ∀ block, lowerCase scrutinee env ret others = .ok block ↔
        lowerCase scrutinee env ret alts = .ok block := by
  refine ⟨fun block => lowerCase_eq_ok_iff, fun others htested hdefaults block => ?_⟩
  rw [lowerCase_eq_ok_iff, lowerCase_eq_ok_iff, htested, hdefaults]

/-- Two tests, and between them a default that has no statements. -/
def defaultBetween : List Alt :=
  [.const (.int 0) .nothing, .default (.case (.loc 0) [] false true),
    .con 1 2 (.plain "Some") [.plain "x"] (.var (.loc 1))]

/-- The same with the default in front. -/
def defaultInFront : List Alt :=
  [.default (.case (.loc 0) [] false true), .const (.int 0) .nothing,
    .con 1 2 (.plain "Some") [.plain "x"] (.var (.loc 1))]

theorem lowerCase_interleaved_emptyDefault :
    testedAlts defaultInFront = testedAlts defaultBetween ∧
    defaultAlts defaultInFront = defaultAlts defaultBetween ∧
    ∃ arms, arms.length = 2 ∧
      lowerCase (.str "any") .empty returnValue defaultBetween = .ok [.cond arms (some [])] ∧
      lowerCase (.str "any") .empty returnValue defaultInFront = .ok [.cond arms (some [])] := by
  have hsame := (lowerCase_interleaved (.str "any") .empty returnValue defaultBetween).2
    defaultInFront rfl rfl
  refine ⟨rfl, rfl, ?_⟩
  obtain ⟨arms, hlength, hbetween⟩ : ∃ arms, arms.length = 2 ∧
      lowerCase (.str "any") .empty returnValue defaultBetween = .ok [.cond arms (some [])] :=
    ⟨_, rfl, rfl⟩
  exact ⟨arms, hlength, hbetween, (hsame _).2 hbetween⟩

end Vimgen.Lower
