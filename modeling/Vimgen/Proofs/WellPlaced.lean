import Vimgen.Script.Draft

/-!
# Scripts up to spelling

A script is well placed if all its nodes belong where they stand and its names are written with
letters, digits and underscores. Two differences between scripts cannot be seen in their text:
numbers and lists are added by the same sign, and a name is bound and assigned to by the same words.
`Program.merged` keeps one of each two, and `render_merged` says that it changes no text.
-/

namespace Vimgen.Script

/-! ## Well-placed scripts -/

/-- Characters of names. -/
def isNameChar (c : Char) : Bool := c.isAlphanum || c = '_'

/-- Names without a scope. -/
def isBaseName (s : String) : Bool := !s.toList.isEmpty && s.toList.all isNameChar

/-- A digit comes first. -/
def startsWithDigit : List Char → Bool
  | c :: _ => c.isDigit
  | [] => false

/-- Names that can be told from numbers, with a scope or on their own. -/
def ScopedName.isWellFormed (n : ScopedName) : Bool :=
  isBaseName n.base && (n.scope ≠ .builtin || !startsWithDigit n.base.toList)

mutual

def Expr.isWellPlaced : Expr → Bool
  | .int _ | .str _ => true
  | .list items => exprsWellPlaced items
  | .ref name => name.isWellFormed
  | .apply function args => function.isWellPlaced && exprsWellPlaced args
  | .binary _ left right => left.isWellPlaced && right.isWellPlaced
  | .proj base projection => base.isWellPlaced && projection.isWellPlaced
  | .stray _ => false

def Projection.isWellPlaced : Projection → Bool
  | .single index => index.isWellPlaced
  | .onward start => start.isWellPlaced
  | .stray _ => false

def exprsWellPlaced : List Expr → Bool
  | [] => true
  | e :: rest => e.isWellPlaced && exprsWellPlaced rest

end

def Target.isWellPlaced : Target → Bool
  | .name n => n.isWellFormed
  | .item base projection => base.isWellPlaced && projection.isWellPlaced
  | .stray _ => false

/-- The commands of scripts. -/
def commands : List String := ["echo", "throw"]

mutual

/-- All nodes of a statement belong where they stand, all names are well formed, and every condition
has an arm. -/
def Stmt.isWellPlaced : Stmt → Bool
  | .bind name value => name.isWellFormed && value.isWellPlaced
  | .assign target value => target.isWellPlaced && value.isWellPlaced
  | .ret value => value.isWellPlaced
  | .call name args => name.isWellFormed && exprsWellPlaced args
  | .command command arg => commands.contains command && arg.isWellPlaced
  | .cond arms default => !arms.isEmpty && armsWellPlaced arms && defaultWellPlaced default
  | .function name params body => name.isWellFormed && params.all isBaseName && blockWellPlaced body
  | .stray _ => false

def blockWellPlaced : List Stmt → Bool
  | [] => true
  | s :: rest => s.isWellPlaced && blockWellPlaced rest

def armsWellPlaced : List Arm → Bool
  | [] => true
  | .mk test body :: rest => test.isWellPlaced && blockWellPlaced body && armsWellPlaced rest

def defaultWellPlaced : Option (List Stmt) → Bool
  | none => true
  | some default => blockWellPlaced default

end

/-- Scripts of well-placed statements. -/
def Program.isWellPlaced (p : Program) : Bool := blockWellPlaced p.items

/-! ## Merging what is written alike -/

/-- Lists are added like numbers. -/
def BinOp.merged : BinOp → BinOp
  | .listConcat => .add
  | op => op

mutual

def Expr.merged : Expr → Expr
  | .int value => .int value
  | .str value => .str value
  | .list items => .list (exprsMerged items)
  | .ref name => .ref name
  | .apply function args => .apply function.merged (exprsMerged args)
  | .binary op left right => .binary op.merged left.merged right.merged
  | .proj base projection => .proj base.merged projection.merged
  | .stray node => .stray node

def Projection.merged : Projection → Projection
  | .single index => .single index.merged
  | .onward start => .onward start.merged
  | .stray node => .stray node

def exprsMerged : List Expr → List Expr
  | [] => []
  | e :: rest => e.merged :: exprsMerged rest

end

def Target.merged : Target → Target
  | .name n => .name n
  | .item base projection => .item base.merged projection.merged
  | .stray node => .stray node

mutual

/-- A name is assigned to like it is bound, and lists are added like numbers. -/
def Stmt.merged : Stmt → Stmt
  | .bind name value => .bind name value.merged
  | .assign (.name name) value => .bind name value.merged
  | .assign target value => .assign target.merged value.merged
  | .ret value => .ret value.merged
  | .call name args => .call name (exprsMerged args)
  | .command command arg => .command command arg.merged
  | .cond arms default => .cond (armsMerged arms) (defaultMerged default)
  | .function name params body => .function name params (blockMerged body)
  | .stray node => .stray node

def blockMerged : List Stmt → List Stmt
  | [] => []
  | s :: rest => s.merged :: blockMerged rest

def armsMerged : List Arm → List Arm
  | [] => []
  | .mk test body :: rest => .mk test.merged (blockMerged body) :: armsMerged rest

def defaultMerged : Option (List Stmt) → Option (List Stmt)
  | none => none
  | some default => some (blockMerged default)

end

/-- The script with what is written alike made the same. -/
def Program.merged (p : Program) : Program := ⟨blockMerged p.items⟩

/-! ## Merging changes no text -/

theorem BinOp.text_merged (op : BinOp) : op.merged.text = op.text := by
  cases op <;> rfl

mutual

theorem Expr.text_merged : ∀ e : Expr, e.merged.text = e.text
  | .int _ | .str _ | .ref _ | .stray _ => rfl
  | .list items => by simp only [Expr.merged, Expr.text, exprTexts_merged items]
  | .apply function args => by
    simp only [Expr.merged, Expr.text, function.text_merged, exprTexts_merged args]
  | .binary op left right => by
    simp only [Expr.merged, Expr.text, op.text_merged, left.text_merged, right.text_merged]
  | .proj base projection => by
    simp only [Expr.merged, Expr.text, base.text_merged, projection.text_merged]

theorem Projection.text_merged : ∀ p : Projection, p.merged.text = p.text
  | .single index => by simp only [Projection.merged, Projection.text, index.text_merged]
  | .onward start => by simp only [Projection.merged, Projection.text, start.text_merged]
  | .stray _ => rfl

theorem exprTexts_merged : ∀ es : List Expr, exprTexts (exprsMerged es) = exprTexts es
  | [] => rfl
  | e :: rest => by simp only [exprsMerged, exprTexts, e.text_merged, exprTexts_merged rest]

end

mutual

theorem Expr.fault?_merged : ∀ e : Expr, e.merged.fault? = e.fault?
  | .int _ | .str _ | .ref _ | .stray _ => rfl
  | .list items => by simp only [Expr.merged, Expr.fault?, exprsFault?_merged items]
  | .apply function args => by
    simp only [Expr.merged, Expr.fault?, function.fault?_merged, exprsFault?_merged args]
  | .binary op left right => by
    simp only [Expr.merged, Expr.fault?, left.fault?_merged, right.fault?_merged]
  | .proj base projection => by
    simp only [Expr.merged, Expr.fault?, base.fault?_merged, projection.fault?_merged]

theorem Projection.fault?_merged : ∀ p : Projection, p.merged.fault? = p.fault?
  | .single index => by simp only [Projection.merged, Projection.fault?, index.fault?_merged]
  | .onward start => by simp only [Projection.merged, Projection.fault?, start.fault?_merged]
  | .stray _ => rfl

theorem exprsFault?_merged : ∀ es : List Expr, exprsFault? (exprsMerged es) = exprsFault? es
  | [] => rfl
  | e :: rest => by simp only [exprsMerged, exprsFault?, e.fault?_merged, exprsFault?_merged rest]

end

theorem Target.text_merged : ∀ t : Target, t.merged.text = t.text
  | .name _ | .stray _ => rfl
  | .item base projection => by
    simp only [Target.merged, Target.text, base.text_merged, projection.text_merged]

theorem Target.fault?_merged : ∀ t : Target, t.merged.fault? = t.fault?
  | .name _ | .stray _ => rfl
  | .item base projection => by
    simp only [Target.merged, Target.fault?, base.fault?_merged, projection.fault?_merged]

mutual

theorem Stmt.draft_merged : ∀ s : Stmt, s.merged.draft = s.draft
  | .bind name value => by
    simp only [Stmt.merged, Stmt.draft, value.fault?_merged, value.text_merged]
  | .assign (.name name) value => by
    simp only [Stmt.merged, Stmt.draft, value.fault?_merged, value.text_merged, Target.text,
      Target.fault?, Option.none_or]
  | .assign (.item base projection) value => by
    simp only [Stmt.merged, Stmt.draft, value.fault?_merged, value.text_merged, Target.text_merged,
      Target.fault?_merged]
  | .assign (.stray node) value => by
    simp only [Stmt.merged, Stmt.draft, value.fault?_merged, value.text_merged, Target.text_merged,
      Target.fault?_merged]
  | .ret value => by simp only [Stmt.merged, Stmt.draft, value.fault?_merged, value.text_merged]
  | .call name args => by
    simp only [Stmt.merged, Stmt.draft, exprsFault?_merged args, exprTexts_merged args]
  | .command command arg => by
    simp only [Stmt.merged, Stmt.draft, arg.fault?_merged, arg.text_merged]
  | .cond [] none => rfl
  | .cond [] (some default) => rfl
  | .cond (.mk test body :: rest) none => by
    simp only [Stmt.merged, armsMerged, defaultMerged, Stmt.draft, test.fault?_merged,
      test.text_merged, blockDraft_merged body, armsDraft_merged rest]
  | .cond (.mk test body :: rest) (some default) => by
    simp only [Stmt.merged, armsMerged, defaultMerged, Stmt.draft, test.fault?_merged,
      test.text_merged, blockDraft_merged body, armsDraft_merged rest, blockDraft_merged default]
  | .function name params body => by simp only [Stmt.merged, Stmt.draft, blockDraft_merged body]
  | .stray _ => rfl

theorem blockDraft_merged : ∀ b : List Stmt, blockDraft (blockMerged b) = blockDraft b
  | [] => rfl
  | s :: rest => by simp only [blockMerged, blockDraft, s.draft_merged, blockDraft_merged rest]

theorem armsDraft_merged : ∀ arms : List Arm, armsDraft (armsMerged arms) = armsDraft arms
  | [] => rfl
  | .mk test body :: rest => by
    simp only [armsMerged, armsDraft, test.fault?_merged, test.text_merged, blockDraft_merged body,
      armsDraft_merged rest]

end

/-- **Merging does not show in the text**, whether there is one or not. -/
theorem render_merged (indentText : String) (p : Program) :
    p.merged.render indentText = p.render indentText := by
  simp only [Program.render, Program.merged, blockDraft_merged]

end Vimgen.Script
