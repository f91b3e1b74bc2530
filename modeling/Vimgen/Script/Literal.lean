import Vimgen.Text.Quoted

/-!
# String literals

`literal` writes any text between double quotes. Backslash, quote and three common controls have
short escapes; any other control is two hexadecimal digits, so no following digit can join them.
-/

namespace Vimgen.Script

/-- The escape of a character in a string literal. -/
def escapeChar (c : Char) : List Char :=
  if c = '\\' then ['\\', '\\']
  else if c = '"' then ['\\', '"']
  else if c = '\n' then ['\\', 'n']
  else if c = '\r' then ['\\', 'r']
  else if c = '\t' then ['\\', 't']
  else if c.toNat < 0x20 || c.toNat = 0x7F then '\\' :: 'x' :: Text.hexDigits 2 c.toNat
  else [c]

/-- A text as a string literal. -/
def literal (s : String) : String := String.ofList ('"' :: s.toList.flatMap escapeChar ++ ['"'])

end Vimgen.Script
