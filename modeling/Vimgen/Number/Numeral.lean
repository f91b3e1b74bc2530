import Vimgen.Text.Ranges
import Vimgen.Number.Binary64

/-!
# Numerals

The spellings of integers and of double precision numbers: `readInt?` and `readReal?`. Both take
digits of any script, blanks around the numeral, and single underscores between digits; an integer
has at most `digitLimit` digits. `intText` spells an integer.
-/

namespace Vimgen.Numeral

/-- The most digits an integer may be read from or spelled with. -/
def digitLimit : Nat := 4300

/-- The complaint about an integer that has too many digits to be spelled. -/
def limitMessage : String :=
  s!"Exceeds the limit ({digitLimit} digits) for integer string conversion; " ++
    "use sys.set_int_max_str_digits() to increase the limit"

/-- An integer in decimal. -/
def intText : Int → String
  | .ofNat n => n.repr
  | .negSucc n => "-" ++ (n + 1).repr

/-- The number of decimal digits of an integer. -/
def digitCount (n : Int) : Nat := (Nat.toDigits 10 n.natAbs).length

/-- Removes blanks at both ends. -/
def trim (cs : List Char) : List Char :=
  ((cs.dropWhile Text.isBlank).reverse.dropWhile Text.isBlank).reverse

/-- Removes underscores, each of which must stand between two digits; `prev` is the character
before. -/
def dropSeparators (prev : Char) : List Char → Option (List Char)
  | [] => if prev = '_' then none else some []
  | c :: rest =>
    if c = '_' then
      if prev.isDigit then dropSeparators '_' rest else none
    else if prev = '_' && !c.isDigit then none
    else (dropSeparators c rest).map (c :: ·)

/-- The numeral of a token in plain ASCII, without padding and separators. -/
def plain? (token : List Char) : Option (List Char) :=
  dropSeparators ' ' ((trim token).map Text.asciiDigit)

/-- Splits off a sign; the flag tells a minus. -/
def splitSign : List Char → Bool × List Char
  | '-' :: rest => (true, rest)
  | '+' :: rest => (false, rest)
  | cs => (false, cs)

/-- Reads an integer: a sign if any, and digits. -/
def readInt? (token : List Char) : Option Int :=
  match plain? token with
  | none => none
  | some cs =>
    let (negative, ds) := splitSign cs
    if ds.isEmpty || !ds.all Char.isDigit || digitLimit < ds.length then none
    else
      let n : Int := Nat.ofDigitChars 10 ds 0
      some (if negative then -n else n)

/-- Splits a list after its leading digits. -/
def spanDigits (cs : List Char) : List Char × List Char :=
  (cs.takeWhile Char.isDigit, cs.dropWhile Char.isDigit)

/-- The exponent part: nothing, or a mark, a sign if any, and digits. -/
def readExponent? : List Char → Option Int
  | [] => some 0
  | c :: rest =>
    if c = 'e' || c = 'E' then
      let (negative, ds) := splitSign rest
      if ds.isEmpty || !ds.all Char.isDigit then none
      else
        let n : Int := Nat.ofDigitChars 10 ds 0
        some (if negative then -n else n)
    else none

/-- A decimal: digits with a point among or around them, and an exponent part. -/
def readDecimal? (negative : Bool) (cs : List Char) : Option Binary64 :=
  let (whole, rest) := spanDigits cs
  let (fraction, rest) : List Char × List Char :=
    match rest with
    | '.' :: tail => spanDigits tail
    | _ => ([], rest)
  if whole.isEmpty && fraction.isEmpty then none
  else
    (readExponent? rest).map fun e =>
      Binary64.ofDecimal negative (Nat.ofDigitChars 10 (whole ++ fraction) 0) (e - fraction.length)

/-- Reads a double precision number: a sign if any, and a decimal or the name of a number that has
none. -/
def readReal? (token : List Char) : Option Binary64 :=
  match plain? token with
  | none => none
  | some cs =>
    let (negative, body) := splitSign cs
    let word := String.ofList (body.map Char.toLower)
    if word = "inf" || word = "infinity" then some (.infinite negative)
    else if word = "nan" then some .nan
    else readDecimal? negative body

end Vimgen.Numeral
