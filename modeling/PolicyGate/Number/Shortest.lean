import PolicyGate.Number.Binary64

/-!
The shortest decimal that reads back as a given floating-point number. For one, two, … digits the
number's two neighbours on the grid of decimals with that many digits are rounded back; the first
grid with a hit wins, and of two hits the nearer one, a tie going to the even digit. Main statement:
what is found reads back.
-/

namespace PolicyGate.Binary64

/-- A decimal `digits · 10 ^ exponent`. -/
structure Decimal where
  digits : Nat
  exponent : Int
  deriving DecidableEq, Repr

namespace Decimal

def fraction (d : Decimal) : Nat × Nat :=
  (d.digits * Nat.pow 10 d.exponent.toNat, Nat.pow 10 (-d.exponent).toNat)

/-- Whether the decimal rounds to the number with this mantissa and exponent. -/
def readsAs (d : Decimal) (mantissa : Nat) (exponent : Int) : Bool :=
  roundFraction d.fraction.1 d.fraction.2 = some (mantissa, exponent)

/-- The decimal without the zeros at the end of its digits. -/
def strip (d : Decimal) : Decimal :=
  if h : d.digits ≠ 0 ∧ d.digits % 10 = 0 then strip ⟨d.digits / 10, d.exponent + 1⟩ else d
termination_by d.digits
decreasing_by omega

end Decimal

/-- The number of decimal digits of a whole number. -/
def digitCount (n : Nat) : Nat := (Nat.toDigits 10 n).length

/-- The least `k` with `num / den < 10 ^ k`, for a positive fraction. -/
def decimalMagnitude (num den : Nat) : Int :=
  if den ≤ num then digitCount (num / den)
  else 1 - digitCount ((den - 1) / num)

/-- The two neighbours of `num / den` on the grid of `count` digits, the nearer one first. -/
def neighbours (num den count : Nat) : List Decimal :=
  let unit := decimalMagnitude num den - count
  let scaledNum := num * Nat.pow 10 (-unit).toNat
  let scaledDen := den * Nat.pow 10 unit.toNat
  let low := scaledNum / scaledDen
  let twice := 2 * (scaledNum % scaledDen)
  if scaledDen < twice || (twice = scaledDen && low % 2 = 1) then [⟨low + 1, unit⟩, ⟨low, unit⟩]
  else [⟨low, unit⟩, ⟨low + 1, unit⟩]

/-- The better of the two neighbours of `num / den` on the grid of `count` digits, if one of them
rounds to the given number. -/
def neighbour? (num den mantissa : Nat) (exponent : Int) (count : Nat) : Option Decimal :=
  (neighbours num den count).find? fun d => d.readsAs mantissa exponent

/-- The decimal with the fewest digits that reads back as the magnitude of `x`, a number other than
zero; the exact decimal stands behind the seventeen grids that are tried. -/
def shortest (x : Binary64) : Decimal :=
  let (num, den) := x.magnitude
  let exact : Decimal := ⟨num * Nat.pow 5 (-x.exponent).toNat, min x.exponent 0⟩
  let found := (List.range 17).findSome? fun n => neighbour? num den x.mantissa x.exponent (n + 1)
  (found.getD exact).strip

theorem readsAs_of_neighbour? {num den mantissa : Nat} {exponent : Int} {count : Nat} {d : Decimal}
    (h : neighbour? num den mantissa exponent count = some d) : d.readsAs mantissa exponent := by
  unfold neighbour? at h
  have := List.find?_some h
  simpa using this

end PolicyGate.Binary64
