import Vimgen.Name.Basic

/-!
# Names as identifiers

`mangle` spells any text with ASCII letters, digits and underscores: letters and digits stand for
themselves, and any other character is its code point between underscores. `Name.target` is the
identifier of a name.
-/

namespace Vimgen

/-- Letters and digits of ASCII. -/
def isPlainChar (c : Char) : Bool := c.isAlphanum

/-- The spelling of a character. -/
def mangleChar (c : Char) : List Char :=
  if isPlainChar c then [c] else '_' :: Nat.toDigits 10 c.toNat ++ ['_']

/-- The start of every spelled name. -/
def mangleHead : String := "Idris_"

/-- A text spelled as an identifier. -/
def mangle (s : String) : String := mangleHead ++ String.ofList (s.toList.flatMap mangleChar)

/-- The identifier of a name; slots are identifiers as they are. -/
def Name.target (n : Name) : String :=
  if n.isSlot then n.display else mangle n.display

end Vimgen
