import Vimgen.Script.Text

/-!
# Drafts: the lines of statements

A `Draft` is what rendering some statements comes to, wherever they stand: lines with their depth
of nesting, and the failure that cut them short, if any, with the number of blocks that were open
at that point. `Stmt.draft` gives the draft of a statement.
-/

namespace Vimgen.Script

/-- A line: a text at a depth, or the empty line after a function. -/
inductive Line where
  | text (depth : Nat) (content : String)
  | blank
  deriving DecidableEq, Repr

/-- The line one block deeper. -/
def Line.nest : Line → Line
  | .text depth content => .text (depth + 1) content
  | .blank => .blank

/-- A step of indentation, repeated. -/
def indentation (indentText : String) (depth : Nat) : String :=
  String.join (List.replicate depth indentText)

/-- The line as written from a base depth on; the empty line is not indented. -/
def Line.write (indentText : String) (base : Nat) : Line → String
  | .text depth content => indentation indentText (base + depth) ++ content
  | .blank => ""

/-- A point where rendering stopped: why, and inside how many blocks. -/
structure Halt where
  error : RenderError
  openBlocks : Nat
  deriving DecidableEq, Repr

/-- The lines of some statements, up to the point where rendering stopped, if it did. -/
structure Draft where
  lines : List Line
  halt : Option Halt
  deriving DecidableEq, Repr

namespace Draft

/-- No lines. -/
def empty : Draft := ⟨[], none⟩

/-- Nothing but a failure. -/
def fail (e : RenderError) : Draft := ⟨[], some ⟨e, 0⟩⟩

/-- A line, unless one of its parts cannot be rendered. -/
def line (fault? : Option RenderError) (text : String) : Draft :=
  match fault? with
  | some e => fail e
  | none => ⟨[.text 0 text], none⟩

/-- One draft after the other; nothing follows a failure. -/
def append (a b : Draft) : Draft :=
  match a.halt with
  | some _ => a
  | none => ⟨a.lines ++ b.lines, b.halt⟩

instance : Append Draft := ⟨append⟩

/-- The draft inside a block. -/
def nest (d : Draft) : Draft :=
  ⟨d.lines.map Line.nest, d.halt.map fun h => ⟨h.error, h.openBlocks + 1⟩⟩

end Draft

mutual

/-- The lines of a statement. -/
def Stmt.draft : Stmt → Draft
  | .function name params body =>
    .line none ("function! " ++ name.text ++ "(" ++ commaList params ++ ") abort")
      ++ (blockDraft body).nest ++ .line none "endfunction" ++ ⟨[.blank], none⟩
  | .bind name value => .line value.fault? ("let " ++ name.text ++ " = " ++ value.text)
  | .assign target value =>
    .line (target.fault?.or value.fault?) ("let " ++ target.text ++ " = " ++ value.text)
  | .ret value => .line value.fault? ("return " ++ value.text)
  | .call name args =>
    .line (exprsFault? args) ("call " ++ name.text ++ "(" ++ commaList (exprTexts args) ++ ")")
  | .command command arg => .line arg.fault? (command ++ " " ++ arg.text)
  | .cond [] _ => .fail .noArms
  | .cond (.mk test body :: rest) none =>
    .line test.fault? ("if " ++ test.text) ++ (blockDraft body).nest ++ armsDraft rest
      ++ .line none "endif"
  | .cond (.mk test body :: rest) (some default) =>
    .line test.fault? ("if " ++ test.text) ++ (blockDraft body).nest ++ armsDraft rest
      ++ .line none "else" ++ (blockDraft default).nest ++ .line none "endif"
  | .stray node => .fail (.statement node.kind)

/-- The lines of statements in a row. -/
def blockDraft : List Stmt → Draft
  | [] => .empty
  | s :: rest => s.draft ++ blockDraft rest

/-- The lines of the arms after the first. -/
def armsDraft : List Arm → Draft
  | [] => .empty
  | .mk test body :: rest =>
    .line test.fault? ("elseif " ++ test.text) ++ (blockDraft body).nest ++ armsDraft rest

end

/-- The indentation of scripts. -/
def defaultIndent : String := "  "

/-- Lines as a text that ends in a newline. -/
def joinLines (lines : List String) : String := String.intercalate "\n" lines ++ "\n"

/-- The text of a script, or the first reason why there is none. -/
def Program.render (indentText : String) (p : Program) : Except RenderError String :=
  let draft := blockDraft p.items
  match draft.halt with
  | some h => .error h.error
  | none => .ok (joinLines (draft.lines.map (·.write indentText 0)))

end Vimgen.Script
