import Vimgen.Inspect

/-!
# Foreign functions

A foreign call names what it calls by a `Descriptor`. The functions known to the code generator are
listed by `ForeignTag`, with the symbol that names them and the number of arguments they take.
-/

namespace Vimgen.Ir

open Inspect

/-- What a foreign function or the type of its argument is called. -/
inductive Descriptor where
  | con (name : String)
  | str (value : String)
  | app (name : String) (args : List Descriptor)
  | unknown
  deriving Repr, Inhabited

namespace Descriptor

mutual

/-- The descriptor as messages mention it. -/
def display : Descriptor → String
  | .con name => name
  | .str value => "\"" ++ value ++ "\""
  | .app name args => String.intercalate " " (name :: displays args)
  | .unknown => "<unknown>"

def displays : List Descriptor → List String
  | [] => []
  | d :: rest => d.display :: displays rest

end

mutual

/-- The view of a descriptor for messages. -/
def shape : Descriptor → Shape
  | .con name => .record "ForeignCon" [.mk "name" (.text name)]
  | .str value => .record "ForeignStr" [.mk "value" (.text value)]
  | .app name args =>
    .record "ForeignApp" [.mk "name" (.text name), .mk "args" (.tuple (shapes args))]
  | .unknown => .record "ForeignUnknown" []

def shapes : List Descriptor → List Shape
  | [] => []
  | d :: rest => d.shape :: shapes rest

end

mutual

/-- Equality of descriptors. -/
def same : Descriptor → Descriptor → Bool
  | .con a, .con b => a = b
  | .str a, .str b => a = b
  | .app a as, .app b bs => a = b && sameAll as bs
  | .unknown, .unknown => true
  | _, _ => false

def sameAll : List Descriptor → List Descriptor → Bool
  | [], [] => true
  | a :: as, b :: bs => a.same b && sameAll as bs
  | _, _ => false

end

end Descriptor

/-- Foreign functions known to the code generator. -/
inductive ForeignTag where
  | echo
  | listEmpty
  | listIndex
  | listCons
  | listSnoc
  | listConcat
  | listSetAt
  deriving DecidableEq, Repr, Inhabited

namespace ForeignTag

/-- All known foreign functions. -/
def all : List ForeignTag :=
  [.echo, .listEmpty, .listIndex, .listCons, .listSnoc, .listConcat, .listSetAt]

/-- The name in descriptors. -/
def symbol : ForeignTag → String
  | .echo => "VIM_Echo"
  | .listEmpty => "VIM_ListEmpty"
  | .listIndex => "VIM_ListIndex"
  | .listCons => "VIM_ListCons"
  | .listSnoc => "VIM_ListSnoc"
  | .listConcat => "VIM_ListConcat"
  | .listSetAt => "VIM_ListSetAt"

/-- The name of a known foreign function in upper case. -/
def member : ForeignTag → String
  | .echo => "ECHO"
  | .listEmpty => "LIST_EMPTY"
  | .listIndex => "LIST_INDEX"
  | .listCons => "LIST_CONS"
  | .listSnoc => "LIST_SNOC"
  | .listConcat => "LIST_CONCAT"
  | .listSetAt => "LIST_SET_AT"

/-- The number of arguments. -/
def arity : ForeignTag → Nat
  | .echo => 1
  | .listEmpty => 0
  | .listIndex => 2
  | .listCons => 2
  | .listSnoc => 2
  | .listConcat => 2
  | .listSetAt => 3

/-- The known foreign function of a symbol. -/
def ofSymbol? (s : String) : Option ForeignTag := all.find? (·.symbol = s)

end ForeignTag

end Vimgen.Ir
