import Vimgen.Ir.Expr
import Vimgen.Ir.FormatError

/-!
# Reading programs

From S-expressions to programs, one reader for each part: `readConst`, `readDescriptor`, `readVar`,
`readExpr`, `readAlt`, `readDefinition`, `readProgram`. A form is read by its head and the number of
its fields, and its fields in a fixed order, so that of several faults the first in that order is
reported. `Program.read` starts from text.
-/

namespace Vimgen.Ir

open Sexp (Datum)

/-! ## Fields -/

/-- Reads an integer field; `role` is how a message mentions it. -/
def readInt (role : String) : Datum → Read Int
  | .integer n => .ok n
  | d => .fail (.field role .integer d)

/-- Reads a field that is a quoted text. -/
def readText (role : String) : Datum → Read String
  | .text s => .ok s
  | d => .fail (.field role .text d)

/-- Reads a field that is a list. -/
def readList (role : String) : Datum → Read (List Datum)
  | .list items => .ok items
  | d => .fail (.field role .list d)

/-- Reads a name, which is written as a quoted text. -/
def readName (d : Datum) : Read Name := do
  let s ← readText "name" d
  match Name.parse s with
  | .ok n => .ok n
  | .error e => .error (.nameDigits e.count)

/-- Reads a list of names. -/
def readNames (role : String) (d : Datum) : Read (List Name) := do
  (← readList role d).mapM readName

/-! ## Constants, descriptors and variables -/

/-- Reads a floating point constant; an integer is taken to the nearest one. -/
def readFloat : Datum → Read Const
  | .real x => .ok (.float x)
  | .integer n =>
    match Binary64.ofInt? n with
    | some x => .ok (.float x)
    | none => .error .floatRange
  | d => .fail (.notANumber d)

/-- Reads a character, which is written as a text of length one. -/
def readChar (d : Datum) : Read Const := do
  let s ← readText "char constant" d
  match s.toList with
  | [c] => .ok (.char c)
  | _ => .fail (.notOneChar s)

/-- The kinds of constants by the head of their form. -/
inductive ConstHead where
  | int
  | bigInt
  | float
  | char
  | str
  | bits
  | world
  | type
  deriving DecidableEq, Repr

namespace ConstHead

/-- All kinds of constants. -/
def all : List ConstHead := [.int, .bigInt, .float, .char, .str, .bits, .world, .type]

/-- The head of a kind of constant. -/
def head : ConstHead → String
  | .int => "int"
  | .bigInt => "bigint"
  | .float => "float"
  | .char => "char"
  | .str => "str"
  | .bits => "bits"
  | .world => "world"
  | .type => "type"

/-- The number of fields. -/
def arity : ConstHead → Nat
  | .bits => 2
  | .world => 0
  | _ => 1

/-- The kind of constant of a head. -/
def ofHead? (s : String) : Option ConstHead := all.find? (·.head = s)

end ConstHead

/-- Reads a constant. -/
def readConst : Datum → Read Const
  | .list (.symbol tag :: fields) =>
    match ConstHead.ofHead? tag with
    | none => .fail (.unknownForm "constant" tag)
    | some kind =>
      match kind, fields with
      | .int, [n] => return .int (← readInt "integer constant" n)
      | .bigInt, [n] => return .bigInt (← readInt "integer constant" n)
      | .float, [x] => readFloat x
      | .char, [c] => readChar c
      | .str, [s] => return .str (← readText "string constant" s)
      | .bits, [width, n] => return .bits (← readInt "bit width" width) (← readInt "bits constant" n)
      | .world, [] => return .world
      | .type, [name] => return .type (← readText "type name" name)
      | kind, fields => .fail (.arity kind.head kind.arity fields.length)
  | d => .fail (.notAForm .constant d)

mutual

/-- Reads a foreign descriptor. -/
def readDescriptor : Datum → Read Descriptor
  | .list (.symbol tag :: fields) =>
    if tag = "con" then
      match fields with
      | [name] => return .con (← readText "foreign tag" name)
      | _ => .fail (.arity tag 1 fields.length)
    else if tag = "str" then
      match fields with
      | [value] => return .str (← readText "foreign string" value)
      | _ => .fail (.arity tag 1 fields.length)
    else if tag = "app" then
      match fields with
      | [] => .fail .noDescriptorName
      | name :: args => return .app (← readText "foreign tag" name) (← readDescriptors args)
    else if tag = "unknown" then .ok .unknown
    else .fail (.unknownForm "foreign descriptor" tag)
  | d => .fail (.notAForm .descriptor d)

def readDescriptors : List Datum → Read (List Descriptor)
  | [] => .ok []
  | d :: rest => return (← readDescriptor d) :: (← readDescriptors rest)

end

/-- Reads a variable. -/
def readVar : Datum → Read Var
  | .list (.symbol tag :: fields) =>
    if tag = "loc" then
      match fields with
      | [n] => return .loc (← readInt "local slot" n)
      | _ => .fail (.arity tag 1 fields.length)
    else if tag = "glob" then
      match fields with
      | [name] => return .glob (← readName name)
      | _ => .fail (.arity tag 1 fields.length)
    else .fail (.unexpectedHead "(loc N) or (glob NAME)" tag)
  | d => .fail (.notAForm .variable d)

/-- Reads a list of variables. -/
def readVars (d : Datum) : Read (List Var) := do
  (← readList "variable list" d).mapM readVar

/-- Reads an argument of a foreign call with its type. -/
def readForeignArg (d : Datum) : Read ForeignArg := do
  match ← readList "foreign argument" d with
  | [type, var] => return ⟨← readDescriptor type, ← readVar var⟩
  | _ => .fail .notAPair

/-! ## Primitives -/

/-- The spelling of a tag or type, and how a message mentions it: a symbol and a quoted string are
the same to a reader. -/
def spelled : Datum → Option String × String
  | .symbol name => (some name, Text.quoted name)
  | .text s => (some s, Text.quoted s)
  | d => (none, d.spelling)

/-- Reads the tag of a primitive. -/
def readPrimTag (d : Datum) : Read PrimTag :=
  match (spelled d).1.bind PrimTag.ofSpelling? with
  | some tag => .ok tag
  | none => .fail (.unknownSpelling "primitive" (spelled d).2)

/-- Reads an arithmetic type. -/
def readArithType (d : Datum) : Read ArithType :=
  match (spelled d).1.bind ArithType.ofSpelling? with
  | some type => .ok type
  | none => .fail (.unknownSpelling "arithmetic type" (spelled d).2)

/-- Reads a primitive; one outside the language has a name where others have types. -/
def readPrimOp (tag types : Datum) : Read PrimOp := do
  let tag ← readPrimTag tag
  if tag = .external then return { tag, name := ← readText "external primitive name" types }
  else return { tag, types := ← (← readList "primitive types" types).mapM readArithType }

/-! ## Expressions -/

/-- The kinds of expressions by the head of their form. -/
inductive ExprHead where
  | var
  | app (tailCall : Bool)
  | bind
  | update
  | con
  | case (checked : Bool)
  | proj
  | const
  | foreign
  | op
  | nothing
  | error
  deriving DecidableEq, Repr

namespace ExprHead

/-- The kind of a head; a tail call has two spellings. -/
def ofHead? (s : String) : Option ExprHead :=
  if s = "var" then some .var
  else if s = "app" then some (.app false)
  else if s = "app-tail" || s = "app_tail" then some (.app true)
  else if s = "let" then some .bind
  else if s = "update" then some .update
  else if s = "con" then some .con
  else if s = "case" then some (.case false)
  else if s = "chkcase" then some (.case true)
  else if s = "proj" then some .proj
  else if s = "const" then some .const
  else if s = "foreign" then some .foreign
  else if s = "op" then some .op
  else if s = "nothing" then some .nothing
  else if s = "error" then some .error
  else none

/-- The fault of a form with the wrong number of fields. -/
def misfit (found : Nat) : ExprHead → FormatError
  | .var => .arity "var" 1 found
  | .app _ => .arity "app" 2 found
  | .bind => .arity "let" 3 found
  | .update => .arity "update" 2 found
  | .con => .arity "con" 3 found
  | .case _ => .noScrutinee
  | .proj => .arity "proj" 2 found
  | .const => .arity "const" 1 found
  | .foreign => .arity "foreign" 2 found
  | .op => .arity "op" 3 found
  | .nothing => .arity "nothing" 0 found
  | .error => .arity "error" 1 found

end ExprHead

mutual

/-- Reads an expression. -/
def readExpr : Datum → Read Expr
  | .list (.symbol tag :: fields) =>
    match ExprHead.ofHead? tag with
    | none => .fail (.unknownForm "expression form" tag)
    | some kind =>
      match kind, fields with
      | .var, [v] => return .var (← readVar v)
      | .app tailCall, [function, args] =>
        return .app (← readName function) (← readVars args) tailCall
      | .bind, [v, value, body] =>
        return .bind (← readVar v) (← readExpr value) (← readExpr body)
      | .update, [v, value] => return .update (← readVar v) (← readExpr value)
      | .con, [tag, name, args] =>
        return .con (← readInt "constructor tag" tag) (← readName name) (← readVars args) none
      | .case checked, scrutinee :: alts =>
        return .case (← readVar scrutinee) (← readAlts alts) checked true
      | .proj, [v, index] => return .proj (← readVar v) (← readInt "projection index" index)
      | .const, [c] => return .const (← readConst c)
      | .foreign, [function, args] => do
        let args ← (← readList "foreign argument list" args).mapM readForeignArg
        return .foreign (← readDescriptor function) args none
      | .op, [tag, types, args] => return .op (← readPrimOp tag types) (← readVars args)
      | .nothing, [] => return .nothing
      | .error, [message] => return .error (← readText "error message" message)
      | kind, fields => .fail (kind.misfit fields.length)
  | d => .fail (.notAForm .expression d)

/-- Reads an alternative. -/
def readAlt : Datum → Read Alt
  | .list (.symbol tag :: fields) =>
    if tag = "const-case" then
      match fields with
      | [c, body] => return .const (← readConst c) (← readExpr body)
      | _ => .fail (.arity tag 2 fields.length)
    else if tag = "con-case" then
      match fields with
      | [first, con, name, names, body] => do
        let names ← readNames "field names" names
        return .con (← readInt "first local" first) (← readInt "constructor tag" con)
          (← readName name) names (← readExpr body)
      | _ => .fail (.arity tag 5 fields.length)
    else if tag = "default" then
      match fields with
      | [body] => return .default (← readExpr body)
      | _ => .fail (.arity tag 1 fields.length)
    else .fail (.unknownForm "alternative" tag)
  | d => .fail (.notAForm .alternative d)

def readAlts : List Datum → Read (List Alt)
  | [] => .ok []
  | d :: rest => return (← readAlt d) :: (← readAlts rest)

end

/-! ## Programs -/

/-- Reads a definition. -/
def readDefinition : Datum → Read Definition
  | .list (.symbol tag :: fields) =>
    if tag = "fun" then
      match fields with
      | [name, params, body] => do
        let params ← readNames "argument list" params
        return { name := ← readName name, params, body := ← readExpr body }
      | _ => .fail (.arity tag 3 fields.length)
    else .fail (.unexpectedHead "(fun ...)" tag)
  | d => .fail (.notAForm .definition d)

/-- Reads a program. -/
def readProgram : Datum → Read Program
  | .list (.symbol tag :: definitions) =>
    if tag = "program" then return ⟨← definitions.mapM readDefinition⟩
    else .fail (.unexpectedHead "(program ...)" tag)
  | d => .fail (.notAForm .program d)

/-- Reads the text of a program. -/
def Program.read (text : String) : Read Program :=
  match Datum.read text with
  | .ok d => readProgram d
  | .error e => .fail (.malformed e)

end Vimgen.Ir
