/-!
# Double precision numbers

A finite number is a natural mantissa shifted left, counted in units of the least positive
number `2⁻¹⁰⁷⁴`. `ofRatio` rounds a quotient to the nearest number, a tie to the even mantissa;
`ofDecimal` and `ofInt?` are that rounding on decimals and on integers.
-/

namespace Vimgen

/-- A double precision number; `finite` stands for `± mantissa * 2 ^ shift * 2⁻¹⁰⁷⁴`. -/
inductive Binary64 where
  | nan
  | infinite (negative : Bool)
  | finite (negative : Bool) (mantissa shift : Nat)
  deriving DecidableEq, Repr, Inhabited

namespace Binary64

/-- Powers are the core library's here, whatever algebra is in scope. -/
scoped instance natPow : Pow Nat Nat := instPowNat

/-- Bits of a mantissa. -/
def precision : Nat := 53

/-- The unit is `2 ^ -unitExponent`. -/
def unitExponent : Nat := 1074

/-- The largest shift of a finite number. -/
def maxShift : Nat := 2045

/-- Each finite number is written in one way: the mantissa fits, and it is shifted only when it
uses all its bits. -/
def IsCanonical : Binary64 → Prop
  | finite _ m s => m < 2 ^ precision ∧ (s = 0 ∨ 2 ^ (precision - 1) ≤ m) ∧ s ≤ maxShift
  | _ => True

/-- The quotient rounded to the nearest natural number, a tie to the even one. -/
def roundDiv (num den : Nat) : Nat :=
  let q := num / den
  let r := num % den
  if 2 * r < den then q
  else if den < 2 * r then q + 1
  else q + q % 2

/-- The magnitude `mantissa * 2 ^ shift`, infinite when it is out of range. A mantissa that was
rounded up to one bit too many takes the next shift. -/
def ofMagnitude (negative : Bool) (mantissa shift : Nat) : Binary64 :=
  let (m, s) := if mantissa = 2 ^ precision then (2 ^ (precision - 1), shift + 1) else (mantissa, shift)
  if s ≤ maxShift then .finite negative m s else .infinite negative

/-- The number nearest to `± num / den`. -/
def ofRatio (negative : Bool) (num den : Nat) : Binary64 :=
  let units := num * 2 ^ unitExponent
  let shift := (units / den).log2 + 1 - precision
  ofMagnitude negative (roundDiv units (den * 2 ^ shift)) shift

/-- Decimals of at least this many places before the point are out of range. -/
def maxPlaces : Int := 310

/-- Decimals that start this many places after the point round to zero. -/
def minPlaces : Int := -330

/-- The number nearest to `± digits * 10 ^ exponent`. Far outside the range nothing is computed. -/
def ofDecimal (negative : Bool) (digits : Nat) (exponent : Int) : Binary64 :=
  let places : Int := (Nat.toDigits 10 digits).length + exponent
  if digits = 0 then .finite negative 0 0
  else if maxPlaces < places then .infinite negative
  else if places < minPlaces then .finite negative 0 0
  else if 0 ≤ exponent then ofRatio negative (digits * 10 ^ exponent.toNat) 1
  else ofRatio negative digits (10 ^ (-exponent).toNat)

/-- The number nearest to an integer, if it is in range. -/
def ofInt? (n : Int) : Option Binary64 :=
  match ofDecimal (n < 0) n.natAbs 0 with
  | .infinite _ => none
  | x => some x

/-- Numeric equality: both zeros are equal, and an undefined number equals none. -/
def equals : Binary64 → Binary64 → Bool
  | .nan, _ => false
  | _, .nan => false
  | .finite _ 0 _, .finite _ 0 _ => true
  | x, y => x = y

end Binary64

end Vimgen
