import Vimgen.Diagnostic

/-!
# Settings

What the user's environment says about colour and about dumps. A variable counts when it is set to
a text that is not empty.
-/

namespace Vimgen

/-- The variables of the environment that matter, each perhaps unset. -/
structure Settings where
  noColor : Option String := none
  colorChoice : Option String := none
  dumpIr : Option String := none
  deriving DecidableEq, Repr, Inhabited

namespace Settings

/-- The variable that turns colour off. -/
def noColorVar : String := "NO_COLOR"
/-- The variable that chooses colour. -/
def colorChoiceVar : String := "IDRISVIM_COLOR"
/-- The variable that asks for dumps. -/
def dumpIrVar : String := "IDRISVIM_DUMP_IR"

/-- Choices that turn colour off, in any letter case. -/
def declining : List String := ["0", "false", "no", "never"]

/-- Whether diagnostics are coloured. -/
def useColor (s : Settings) : Bool :=
  (nonempty? s.noColor).isNone && !declining.contains (s.colorChoice.getD "").toLower

/-- Whether the program read is written out again. -/
def wantsDump (s : Settings) : Bool := (nonempty? s.dumpIr).isSome

end Settings

end Vimgen
