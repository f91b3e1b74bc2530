import Vimgen.Inspect

/-!
# Primitive operations

The primitives of the intermediate language by tag, with the arithmetic types they work on.
-/

namespace Vimgen.Ir

open Inspect

/-- Arithmetic types. -/
inductive ArithType where
  | native
  | big
  | char
  | bits8
  | bits16
  | bits32
  | bits64
  | float
  deriving DecidableEq, Repr, Inhabited

namespace ArithType

/-- All arithmetic types. -/
def all : List ArithType := [.native, .big, .char, .bits8, .bits16, .bits32, .bits64, .float]

/-- The type as it is written. -/
def spelling : ArithType → String
  | .native => "ITNative"
  | .big => "ITBig"
  | .char => "ITChar"
  | .bits8 => "IT8"
  | .bits16 => "IT16"
  | .bits32 => "IT32"
  | .bits64 => "IT64"
  | .float => "ATFloat"

/-- The name of an arithmetic type in upper case. -/
def member : ArithType → String
  | .native => "NATIVE"
  | .big => "BIG"
  | .char => "CHAR"
  | .bits8 => "B8"
  | .bits16 => "B16"
  | .bits32 => "B32"
  | .bits64 => "B64"
  | .float => "FLOAT"

/-- The arithmetic type of a spelling. -/
def ofSpelling? (s : String) : Option ArithType := all.find? (·.spelling = s)

/-- All types but one are integral. -/
def isIntegral (t : ArithType) : Bool := t ≠ .float

/-- The view of an arithmetic type for messages. -/
def shape (t : ArithType) : Shape := .member "ArithTy" t.member t.spelling

end ArithType

/-- Tags of primitives. -/
inductive PrimTag where
  | plus
  | minus
  | times
  | udiv
  | sdiv
  | urem
  | srem
  | and
  | or
  | xor
  | compl
  | shl
  | lshr
  | ashr
  | eq
  | lt
  | le
  | gt
  | ge
  | slt
  | sle
  | sgt
  | sge
  | sext
  | zext
  | trunc
  | intFloat
  | floatInt
  | intStr
  | strInt
  | floatStr
  | strFloat
  | chInt
  | intCh
  | strConcat
  | strLt
  | strEq
  | strLen
  | strHead
  | strTail
  | strCons
  | strIndex
  | strRev
  | strSubstr
  | readStr
  | writeStr
  | systemInfo
  | fork
  | par
  | crash
  | noOp
  | external
  deriving DecidableEq, Repr, Inhabited

namespace PrimTag

/-- All primitives. -/
def all : List PrimTag :=
  [.plus, .minus, .times, .udiv, .sdiv, .urem, .srem, .and, .or, .xor, .compl, .shl, .lshr, .ashr,
   .eq, .lt, .le, .gt, .ge, .slt, .sle, .sgt, .sge, .sext, .zext, .trunc, .intFloat, .floatInt,
   .intStr, .strInt, .floatStr, .strFloat, .chInt, .intCh, .strConcat, .strLt, .strEq, .strLen,
   .strHead, .strTail, .strCons, .strIndex, .strRev, .strSubstr, .readStr, .writeStr, .systemInfo,
   .fork, .par, .crash, .noOp, .external]

/-- The tag as it is written. -/
def spelling : PrimTag → String
  | .plus => "LPlus"
  | .minus => "LMinus"
  | .times => "LTimes"
  | .udiv => "LUDiv"
  | .sdiv => "LSDiv"
  | .urem => "LURem"
  | .srem => "LSRem"
  | .and => "LAnd"
  | .or => "LOr"
  | .xor => "LXOr"
  | .compl => "LCompl"
  | .shl => "LSHL"
  | .lshr => "LLSHR"
  | .ashr => "LASHR"
  | .eq => "LEq"
  | .lt => "LLt"
  | .le => "LLe"
  | .gt => "LGt"
  | .ge => "LGe"
  | .slt => "LSLt"
  | .sle => "LSLe"
  | .sgt => "LSGt"
  | .sge => "LSGe"
  | .sext => "LSExt"
  | .zext => "LZExt"
  | .trunc => "LTrunc"
  | .intFloat => "LIntFloat"
  | .floatInt => "LFloatInt"
  | .intStr => "LIntStr"
  | .strInt => "LStrInt"
  | .floatStr => "LFloatStr"
  | .strFloat => "LStrFloat"
  | .chInt => "LChInt"
  | .intCh => "LIntCh"
  | .strConcat => "LStrConcat"
  | .strLt => "LStrLt"
  | .strEq => "LStrEq"
  | .strLen => "LStrLen"
  | .strHead => "LStrHead"
  | .strTail => "LStrTail"
  | .strCons => "LStrCons"
  | .strIndex => "LStrIndex"
  | .strRev => "LStrRev"
  | .strSubstr => "LStrSubstr"
  | .readStr => "LReadStr"
  | .writeStr => "LWriteStr"
  | .systemInfo => "LSystemInfo"
  | .fork => "LFork"
  | .par => "LPar"
  | .crash => "LCrash"
  | .noOp => "LNoOp"
  | .external => "LExternal"

/-- The name of a primitive in upper case. -/
def member : PrimTag → String
  | .plus => "PLUS"
  | .minus => "MINUS"
  | .times => "TIMES"
  | .udiv => "UDIV"
  | .sdiv => "SDIV"
  | .urem => "UREM"
  | .srem => "SREM"
  | .and => "AND"
  | .or => "OR"
  | .xor => "XOR"
  | .compl => "COMPL"
  | .shl => "SHL"
  | .lshr => "LSHR"
  | .ashr => "ASHR"
  | .eq => "EQ"
  | .lt => "LT"
  | .le => "LE"
  | .gt => "GT"
  | .ge => "GE"
  | .slt => "SLT"
  | .sle => "SLE"
  | .sgt => "SGT"
  | .sge => "SGE"
  | .sext => "SEXT"
  | .zext => "ZEXT"
  | .trunc => "TRUNC"
  | .intFloat => "INT_FLOAT"
  | .floatInt => "FLOAT_INT"
  | .intStr => "INT_STR"
  | .strInt => "STR_INT"
  | .floatStr => "FLOAT_STR"
  | .strFloat => "STR_FLOAT"
  | .chInt => "CH_INT"
  | .intCh => "INT_CH"
  | .strConcat => "STR_CONCAT"
  | .strLt => "STR_LT"
  | .strEq => "STR_EQ"
  | .strLen => "STR_LEN"
  | .strHead => "STR_HEAD"
  | .strTail => "STR_TAIL"
  | .strCons => "STR_CONS"
  | .strIndex => "STR_INDEX"
  | .strRev => "STR_REV"
  | .strSubstr => "STR_SUBSTR"
  | .readStr => "READ_STR"
  | .writeStr => "WRITE_STR"
  | .systemInfo => "SYSTEM_INFO"
  | .fork => "FORK"
  | .par => "PAR"
  | .crash => "CRASH"
  | .noOp => "NO_OP"
  | .external => "EXTERNAL"

/-- The primitive of a spelling. -/
def ofSpelling? (s : String) : Option PrimTag := all.find? (·.spelling = s)

/-- The view of a primitive's tag for messages. -/
def shape (t : PrimTag) : Shape := .member "PrimTag" t.member t.spelling

end PrimTag

/-- A primitive: its tag, the types it is used at, and a name if it is outside the language. -/
structure PrimOp where
  tag : PrimTag
  types : List ArithType := []
  name : Option String := none
  deriving DecidableEq, Repr, Inhabited

namespace PrimOp

/-- The type that decides how the primitive works. -/
def arith? (op : PrimOp) : Option ArithType := op.types.head?

/-- The primitive as messages mention it. -/
def display (op : PrimOp) : String :=
  String.intercalate " " (op.tag.spelling :: op.types.map ArithType.spelling ++ op.name.toList)

/-- The view of a primitive for messages. -/
def shape (op : PrimOp) : Shape :=
  .record "PrimOp"
    [.mk "tag" op.tag.shape, .mk "types" (.tuple (op.types.map ArithType.shape)),
      .mk "name" ((op.name.map Shape.text).getD (.atom "None"))]

end PrimOp

end Vimgen.Ir
