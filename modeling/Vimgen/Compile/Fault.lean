import Vimgen.Files.Tree
import Vimgen.Ir.FormatError
import Vimgen.Lower.Error
import Vimgen.Script.Text
import Vimgen.Sexp.Printer
import Vimgen.Text.Utf8

/-!
# Faults

What can stop a compilation apart from the failures that are reported as diagnostics: numbers that
are too large, values without a text, and files that cannot be read or written.

The depth of the interpreter's stack is left out throughout: forms that are nested a few hundred
deep are read, lowered, printed and rendered like all others, and not given up with a recursion
error.
-/

namespace Vimgen.Compile

/-- What stops a compilation without a diagnostic. -/
inductive Fault where
  | nameDigits (count : Nat)
  | floatRange
  | slotDigits
  | render (error : Script.RenderError)
  | unprintable (error : Sexp.Datum.Unprintable)
  | emptyName (path : Files.Path)
  | system (error : Files.OsError)
  | undecodable (fault : Text.Utf8.Fault)

/-- The message on a number in a name that has too many digits. -/
def nameDigitsMessage (count : Nat) : String :=
  s!"Exceeds the limit ({Numeral.digitLimit} digits) for integer string conversion: " ++
    s!"value has {count} digits; use sys.set_int_max_str_digits() to increase the limit"

/-- The wording of a fault. -/
def Fault.message : Fault → String
  | .nameDigits count => nameDigitsMessage count
  | .floatRange => "int too large to convert to float"
  | .slotDigits => Lower.LowerError.slotDigits.message
  | .render error => error.message
  | .unprintable error => error.message
  | .emptyName path => s!"PosixPath({path.quoted}) has an empty name"
  | .system error => error.message
  | .undecodable fault => fault.message

/-- What stops a reader is a failure to report or a fault. -/
def ofReadFault : Ir.ReadFault → Failure ⊕ Fault
  | .format error => .inl (.make .badFormat error.message none none)
  | .nameDigits count => .inr (.nameDigits count)
  | .floatRange => .inr .floatRange

end Vimgen.Compile
