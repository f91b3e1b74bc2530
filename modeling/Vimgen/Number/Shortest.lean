import Vimgen.Number.Binary64

/-!
# Shortest decimals

The text of a double precision number has the fewest digits that read back as the same number, and
of those the nearest to it. `shortest` finds the digits on ever finer decimal grids: if any point
of a grid reads back, so does one of the number's two neighbours on it. `text` writes them.
-/

namespace Vimgen.Binary64

/-- A decimal `digits * 10 ^ exponent`. -/
structure Decimal where
  digits : Nat
  exponent : Int
  deriving DecidableEq, Repr

/-- The largest `e` with `10 ^ e ≤ num / den`, for a positive quotient. -/
def decimalExponent (num den : Nat) : Int :=
  if den ≤ num then ((Nat.toDigits 10 (num / den)).length : Int) - 1
  else
    let k := (Nat.toDigits 10 (den / num)).length
    if den ≤ num * 10 ^ (k - 1) then -((k : Int) - 1) else -(k : Int)

/-- `num / den` in units of `10 ^ exponent`, as a quotient again. -/
def onGrid (num den : Nat) (exponent : Int) : Nat × Nat :=
  if 0 ≤ exponent then (num, den * 10 ^ exponent.toNat) else (num * 10 ^ (-exponent).toNat, den)

/-- The magnitude `mantissa * 2 ^ shift` as a quotient. -/
def asRatio (mantissa shift : Nat) : Nat × Nat := (mantissa * 2 ^ shift, 2 ^ unitExponent)

/-- The neighbour of the magnitude on a decimal grid that reads back, the nearer one if both do,
and of two equally near the even one. -/
def neighbour? (mantissa shift : Nat) (exponent : Int) : Option Decimal :=
  let (num, den) := onGrid (asRatio mantissa shift).1 (asRatio mantissa shift).2 exponent
  let below := num / den
  let readsBack (d : Nat) : Bool := ofDecimal false d exponent = .finite false mantissa shift
  let nearer : Nat :=
    if 2 * num < (2 * below + 1) * den then below
    else if (2 * below + 1) * den < 2 * num then below + 1
    else below + below % 2
  match readsBack below, readsBack (below + 1) with
  | true, true => some ⟨nearer, exponent⟩
  | true, false => some ⟨below, exponent⟩
  | false, true => some ⟨below + 1, exponent⟩
  | false, false => none

/-- The first of the grids with `n`, `n + 1`, … digits that has a neighbour reading back; `fuel`
grids are tried. -/
def firstNeighbour? (mantissa shift : Nat) (top : Int) : Nat → Nat → Option Decimal
  | 0, _ => none
  | fuel + 1, n =>
    match neighbour? mantissa shift (top - n + 1) with
    | some d => some d
    | none => firstNeighbour? mantissa shift top fuel (n + 1)

/-- Digits that always suffice. -/
def maxDigits : Nat := 17

/-- The whole binary expansion as a decimal. -/
def exactDecimal (mantissa shift : Nat) : Decimal :=
  ⟨mantissa * 2 ^ shift * 5 ^ unitExponent, -(unitExponent : Int)⟩

/-- The shortest decimal of a positive magnitude. The whole expansion is never taken for a canonical
number: seventeen digits always suffice. -/
def shortest (mantissa shift : Nat) : Decimal :=
  let (num, den) := asRatio mantissa shift
  (firstNeighbour? mantissa shift (decimalExponent num den) maxDigits 1).getD
    (exactDecimal mantissa shift)

/-- Drops the zeros at the end of a list of digits. -/
def dropTrailingZeros (ds : List Char) : List Char := (ds.reverse.dropWhile (· = '0')).reverse

/-- Exponents from which on, and below which, a number is written with an exponent. -/
def positionalExponents : Int × Int := (-4, 16)

/-- The exponent has a sign and at least two digits. -/
def exponentText (e : Int) : List Char :=
  let ds := Nat.toDigits 10 e.natAbs
  (if e < 0 then '-' else '+') :: (if ds.length < 2 then '0' :: ds else ds)

/-- The digits `ds`, of which the first stands for `10 ^ e`: positional, with a point always, or
with an exponent, and then with a point only before a digit. -/
def layout (ds : List Char) (e : Int) : List Char :=
  if positionalExponents.1 ≤ e && e < positionalExponents.2 then
    if e < 0 then '0' :: '.' :: List.replicate ((-e).toNat - 1) '0' ++ ds
    else
      let whole := e.toNat + 1
      let fraction := ds.drop whole
      ds.take whole ++ List.replicate (whole - ds.length) '0' ++ '.' ::
        (if fraction.isEmpty then ['0'] else fraction)
  else
    match ds with
    | [] => []
    | [d] => d :: 'e' :: exponentText e
    | d :: rest => d :: '.' :: rest ++ 'e' :: exponentText e

/-- The text of a magnitude. -/
def magnitudeText (mantissa shift : Nat) : List Char :=
  if mantissa = 0 then ['0', '.', '0']
  else
    let d := shortest mantissa shift
    let all := Nat.toDigits 10 d.digits
    layout (dropTrailingZeros all) (all.length - 1 + d.exponent)

/-- The text of a number, which reads back as that number. -/
def text : Binary64 → String
  | .nan => "nan"
  | .infinite negative => if negative then "-inf" else "inf"
  | .finite negative m s =>
    String.ofList (if negative then '-' :: magnitudeText m s else magnitudeText m s)

end Vimgen.Binary64
