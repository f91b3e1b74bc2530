import Vimgen.Proofs.Numeral
import Vimgen.Script.Draft

/-!
# Scripts that can be rendered

A script has a text if every node of it belongs where it stands, every condition has an arm, and all
integers can be spelled. `Stmt.Renderable` says so for any condition on the integers.

* `Stmt.Renderable.spelled`: a renderable statement is stopped by its integers only.
* `Program.Renderable.render_cases`: so a renderable script has a text, if its integers can be
  spelled, and otherwise fails because one of them has too many digits.
-/

namespace Vimgen.Script

open Numeral (Spellable)

/-! ## Renderable trees -/

section
variable (fits : Int → Prop)

mutual

/-- All nodes of an expression belong where they stand, and all its integers fit. -/
def Expr.Renderable : Expr → Prop
  | .int value => fits value
  | .str _ | .ref _ => True
  | .list items => exprsRenderable items
  | .apply function args => function.Renderable ∧ exprsRenderable args
  | .binary _ left right => left.Renderable ∧ right.Renderable
  | .proj base projection => base.Renderable ∧ projection.Renderable
  | .stray _ => False

def Projection.Renderable : Projection → Prop
  | .single index => index.Renderable
  | .onward start => start.Renderable
  | .stray _ => False

def exprsRenderable : List Expr → Prop
  | [] => True
  | e :: rest => e.Renderable ∧ exprsRenderable rest

end

def Target.Renderable : Target → Prop
  | .name _ => True
  | .item base projection => base.Renderable ∧ projection.Renderable fits
  | .stray _ => False

mutual

/-- All nodes of a statement belong where they stand, every condition has an arm, and all integers
fit. -/
def Stmt.Renderable : Stmt → Prop
  | .bind _ value => value.Renderable fits
  | .assign target value => target.Renderable fits ∧ value.Renderable fits
  | .ret value => value.Renderable fits
  | .call _ args => exprsRenderable fits args
  | .command _ arg => arg.Renderable fits
  | .cond arms default => arms ≠ [] ∧ armsRenderable arms ∧ defaultRenderable default
  | .function _ _ body => blockRenderable body
  | .stray _ => False

def blockRenderable : List Stmt → Prop
  | [] => True
  | s :: rest => s.Renderable ∧ blockRenderable rest

def armsRenderable : List Arm → Prop
  | [] => True
  | .mk test body :: rest => test.Renderable fits ∧ blockRenderable body ∧ armsRenderable rest

def defaultRenderable : Option (List Stmt) → Prop
  | none => True
  | some default => blockRenderable default

end

/-- Scripts of renderable statements. -/
def Program.Renderable (p : Program) : Prop := blockRenderable fits p.items

end

variable {fits : Int → Prop}

theorem blockRenderable_iff {b : List Stmt} :
    blockRenderable fits b ↔ ∀ s ∈ b, s.Renderable fits := by
  induction b with
  | nil => exact ⟨fun _ => List.forall_mem_nil _, fun _ => trivial⟩
  | cons s b ih => rw [blockRenderable, ih, List.forall_mem_cons]

theorem blockRenderable_append {b c : List Stmt} :
    blockRenderable fits (b ++ c) ↔ blockRenderable fits b ∧ blockRenderable fits c := by
  rw [blockRenderable_iff, List.forall_mem_append, ← blockRenderable_iff, ← blockRenderable_iff]

theorem exprsRenderable_iff {es : List Expr} :
    exprsRenderable fits es ↔ ∀ e ∈ es, e.Renderable fits := by
  induction es with
  | nil => exact ⟨fun _ => List.forall_mem_nil _, fun _ => trivial⟩
  | cons e es ih => rw [exprsRenderable, ih, List.forall_mem_cons]

theorem armsRenderable_iff {arms : List Arm} :
    armsRenderable fits arms ↔
      ∀ test body, .mk test body ∈ arms → test.Renderable fits ∧ blockRenderable fits body := by
  induction arms with
  | nil => exact ⟨nofun, fun _ => trivial⟩
  | cons arm arms ih =>
    obtain ⟨test, body⟩ := arm
    rw [armsRenderable, ih]
    constructor
    · rintro ⟨htest, hbody, hrest⟩ test' body' hmem
      rcases List.mem_cons.1 hmem with heq | hmem
      · cases heq
        exact ⟨htest, hbody⟩
      · exact hrest test' body' hmem
    · intro h
      obtain ⟨htest, hbody⟩ := h test body List.mem_cons_self
      exact ⟨htest, hbody, fun test' body' hmem => h test' body' (List.mem_cons_of_mem _ hmem)⟩

/-! ## What stops rendering -/

/-- What stops the rendering of parts whose integers fit: nothing, and then `P` holds of them, or an
integer that fits and cannot be spelled. -/
inductive Spelled (fits : Int → Prop) (P : Prop) : Option RenderError → Prop
  | done (h : P) : Spelled fits P none
  | oversized {n : Int} (hfits : fits n) (hlong : ¬Spellable n) : Spelled fits P (some .digits)

namespace Spelled

variable {P Q : Prop} {a b : Option RenderError}

theorem imp (h : Spelled fits P a) (himp : P → Q) : Spelled fits Q a := by
  cases h with
  | done hP => exact .done (himp hP)
  | oversized hfits hlong => exact .oversized hfits hlong

/-- One part after the other: what stops the first stops both. -/
theorem or (ha : Spelled fits P a) (hb : Spelled fits Q b) : Spelled fits (P ∧ Q) (a.or b) := by
  cases ha with
  | done hP =>
    rw [Option.none_or]
    exact hb.imp fun hQ => ⟨hP, hQ⟩
  | oversized hfits hlong => exact .oversized hfits hlong

end Spelled

theorem Expr.fault?_int (value : Int) :
    (Expr.int value).fault? = if Spellable value then none else some .digits := rfl

mutual

/-- **A renderable expression is stopped by its integers only.** -/
theorem Expr.Renderable.spelled :
    ∀ {e : Expr}, e.Renderable fits → Spelled fits (e.Renderable Spellable) e.fault?
  | .int value, h => by
    by_cases hspell : Spellable value
    · rw [Expr.fault?_int, if_pos hspell]
      exact .done hspell
    · rw [Expr.fault?_int, if_neg hspell]
      exact .oversized h hspell
  | .str _, _ | .ref _, _ => .done trivial
  | .list _, h => exprsRenderable_spelled h
  | .apply _ _, h => ((exprsRenderable_spelled h.2).or h.1.spelled).imp And.symm
  | .binary _ _ _, h => h.1.spelled.or h.2.spelled
  | .proj _ _, h => h.1.spelled.or h.2.spelled

theorem Projection.Renderable.spelled :
    ∀ {p : Projection}, p.Renderable fits → Spelled fits (p.Renderable Spellable) p.fault?
  | .single _, h => Expr.Renderable.spelled h
  | .onward _, h => Expr.Renderable.spelled h

theorem exprsRenderable_spelled : ∀ {es : List Expr}, exprsRenderable fits es →
    Spelled fits (exprsRenderable Spellable es) (exprsFault? es)
  | [], _ => .done trivial
  | _ :: _, h => h.1.spelled.or (exprsRenderable_spelled h.2)

end

theorem Target.Renderable.spelled :
    ∀ {t : Target}, t.Renderable fits → Spelled fits (t.Renderable Spellable) t.fault?
  | .name _, _ => .done trivial
  | .item _ _, h => h.1.spelled.or h.2.spelled

/-! ## Drafts -/

namespace Draft

theorem append_eq {a b : Draft} (ha : a.halt = none) : a ++ b = ⟨a.lines ++ b.lines, b.halt⟩ := by
  change Draft.append a b = _
  rw [Draft.append, ha]

theorem append_assoc (a b c : Draft) : a ++ b ++ c = a ++ (b ++ c) := by
  obtain ⟨lines, halt⟩ := a
  cases halt with
  | none =>
    obtain ⟨others, halt⟩ := b
    cases halt with
    | none => simp [append_eq]
    | some h => rfl
  | some h => rfl

/-- Why a draft was cut short. -/
def error? (d : Draft) : Option RenderError := d.halt.map Halt.error

theorem error?_eq_none {d : Draft} : d.error? = none ↔ d.halt = none := Option.map_eq_none_iff

@[simp] theorem error?_mk_none (lines : List Line) : (⟨lines, none⟩ : Draft).error? = none := rfl

@[simp] theorem error?_append (a b : Draft) : (a ++ b).error? = a.error?.or b.error? := by
  obtain ⟨lines, halt⟩ := a
  cases halt with
  | none => rfl
  | some h => rfl

theorem halt_append {a b : Draft} :
    (a ++ b).halt = none ↔ a.halt = none ∧ b.halt = none := by
  rw [← error?_eq_none, error?_append, Option.or_eq_none_iff, error?_eq_none, error?_eq_none]

@[simp] theorem error?_nest (d : Draft) : d.nest.error? = d.error? := by
  rw [error?, nest, Option.map_map]
  rfl

@[simp] theorem error?_line (fault? : Option RenderError) (text : String) :
    (Draft.line fault? text).error? = fault? := by
  cases fault? with
  | none => rfl
  | some e => rfl

end Draft

theorem Spelled.line {P : Prop} {fault? : Option RenderError} (h : Spelled fits P fault?)
    (text : String) : Spelled fits P (Draft.line fault? text).error? := by
  rw [Draft.error?_line]
  exact h

mutual

/-- **A renderable statement is stopped by its integers only.** -/
theorem Stmt.Renderable.spelled :
    ∀ {s : Stmt}, s.Renderable fits → Spelled fits (s.Renderable Spellable) s.draft.error?
  | .bind _ _, h => (Expr.Renderable.spelled h).line _
  | .assign _ _, h => (h.1.spelled.or h.2.spelled).line _
  | .ret _, h => (Expr.Renderable.spelled h).line _
  | .call _ _, h => (exprsRenderable_spelled h).line _
  | .command _ _, h => (Expr.Renderable.spelled h).line _
  | .cond [] _, h => absurd rfl h.1
  | .cond (.mk _ _ :: _) none, h => by
    obtain ⟨-, ⟨htest, hbody, hrest⟩, -⟩ := h
    simp only [Stmt.draft, Draft.error?_append, Draft.error?_nest, Draft.error?_line,
      Option.or_none]
    have hthen := htest.spelled.or (blockRenderable_spelled hbody)
    exact (hthen.or (armsRenderable_spelled hrest)).imp fun ⟨⟨htest, hbody⟩, hrest⟩ =>
      ⟨List.cons_ne_nil _ _, ⟨htest, hbody, hrest⟩, trivial⟩
  | .cond (.mk _ _ :: _) (some _), h => by
    obtain ⟨-, ⟨htest, hbody, hrest⟩, hdefault⟩ := h
    simp only [Stmt.draft, Draft.error?_append, Draft.error?_nest, Draft.error?_line,
      Option.or_none]
    have hthen := htest.spelled.or (blockRenderable_spelled hbody)
    have helse := (hthen.or (armsRenderable_spelled hrest)).or (blockRenderable_spelled hdefault)
    exact helse.imp fun ⟨⟨⟨htest, hbody⟩, hrest⟩, hdefault⟩ =>
      ⟨List.cons_ne_nil _ _, ⟨htest, hbody, hrest⟩, hdefault⟩
  | .function name params body, h => by
    have herror : (Stmt.draft (.function name params body)).error? = (blockDraft body).error? := by
      simp only [Stmt.draft, Draft.error?_append, Draft.error?_nest, Draft.error?_line,
        Draft.error?_mk_none, Option.none_or, Option.or_none]
    rw [herror]
    exact blockRenderable_spelled h

theorem blockRenderable_spelled : ∀ {b : List Stmt}, blockRenderable fits b →
    Spelled fits (blockRenderable Spellable b) (blockDraft b).error?
  | [], _ => .done trivial
  | _ :: _, h => by
    rw [blockDraft, Draft.error?_append]
    exact h.1.spelled.or (blockRenderable_spelled h.2)

theorem armsRenderable_spelled : ∀ {arms : List Arm}, armsRenderable fits arms →
    Spelled fits (armsRenderable Spellable arms) (armsDraft arms).error?
  | [], _ => .done trivial
  | .mk _ _ :: _, h => by
    obtain ⟨htest, hbody, hrest⟩ := h
    simp only [armsDraft, Draft.error?_append, Draft.error?_nest, Draft.error?_line]
    have hthen := htest.spelled.or (blockRenderable_spelled hbody)
    exact (hthen.or (armsRenderable_spelled hrest)).imp fun ⟨⟨htest, hbody⟩, hrest⟩ =>
      ⟨htest, hbody, hrest⟩

end

/-! ## Texts -/

theorem blockDraft_append (b c : List Stmt) :
    blockDraft (b ++ c) = blockDraft b ++ blockDraft c := by
  induction b with
  | nil => rfl
  | cons s b ih => rw [List.cons_append, blockDraft, blockDraft, ih, Draft.append_assoc]

theorem render_eq_ok_iff {p : Program} {indentText text : String} :
    p.render indentText = .ok text ↔ (blockDraft p.items).halt = none ∧
      joinLines ((blockDraft p.items).lines.map (·.write indentText 0)) = text := by
  rw [Program.render]
  cases (blockDraft p.items).halt with
  | none => simp
  | some h => simp

/-- **A renderable script has a text**, unless one of its integers has too many digits. -/
theorem Program.Renderable.render_cases {p : Program} (h : p.Renderable fits)
    (indentText : String) :
    (p.Renderable Spellable ∧ ∃ text, p.render indentText = .ok text) ∨
      (∃ n, fits n ∧ ¬Spellable n) ∧ p.render indentText = .error .digits := by
  have hspelled := blockRenderable_spelled h
  generalize herror : (blockDraft p.items).error? = error? at hspelled
  cases hspelled with
  | done hspell =>
    exact .inl ⟨hspell, _, render_eq_ok_iff.2 ⟨Draft.error?_eq_none.1 herror, rfl⟩⟩
  | oversized hfits hlong =>
    obtain ⟨halt, hhalt, hdigits⟩ := Option.map_eq_some_iff.1 herror
    refine .inr ⟨⟨_, hfits, hlong⟩, ?_⟩
    rw [Program.render, hhalt, ← hdigits]

end Vimgen.Script
