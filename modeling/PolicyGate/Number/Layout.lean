import PolicyGate.Number.Shortest

/-!
How the digits of a floating-point number are laid out: in positional notation within a range of
magnitudes, and with an exponent outside of it. Main statement: a zero keeps its sign.
-/

namespace PolicyGate.Binary64

/-- The choices that a format makes for the text of a number. -/
structure Layout where
  /-- The greatest number of digits before the point in positional notation, if there is a limit. -/
  maxWhole : Option Nat
  /-- The greatest number of zeros between the point and the first digit, if there is a limit. -/
  maxZeros : Option Nat
  /-- Whether a whole number in positional notation ends with a point and a zero. -/
  showPoint : Bool
  /-- Whether an exponent that is not negative has a plus. -/
  showPlus : Bool := true

/-- The layout of numbers in documents: positional from `0.00001` up to sixteen digits, with a point
always shown. -/
def Layout.document : Layout := ⟨some 16, some 4, true, true⟩

/-- The layout of numbers in documents without brackets: as in others, but exponents have
no plus. -/
def Layout.outline : Layout := { Layout.document with showPlus := false }

/-- The layout of numbers that become plain text: always positional, the point only where needed. -/
def Layout.plain : Layout := ⟨none, none, false, true⟩

/-- The zeros of a given number. -/
def zeros (n : Nat) : List Char := List.replicate n '0'

/-- An exponent with its sign. -/
def Layout.exponentText (layout : Layout) (n : Int) : List Char :=
  'e' :: (if n < 0 then ['-'] else if layout.showPlus then ['+'] else []) ++
    Nat.toDigits 10 n.natAbs

/-- The digits of a positive decimal in a layout. -/
def Decimal.layOut (d : Decimal) (layout : Layout) : List Char :=
  let digits := Nat.toDigits 10 d.digits
  let count : Int := digits.length
  -- the number of digits before the point, at most zero when the number is below one
  let whole := count + d.exponent
  if 0 ≤ d.exponent ∧ layout.maxWhole.all (fun limit => whole ≤ limit) then
    digits ++ zeros d.exponent.toNat ++ if layout.showPoint then ['.', '0'] else []
  else if 0 < whole ∧ layout.maxWhole.all (fun limit => whole ≤ limit) then
    digits.take whole.toNat ++ '.' :: digits.drop whole.toNat
  else if whole ≤ 0 ∧ layout.maxZeros.all (fun limit => -whole ≤ limit) then
    '0' :: '.' :: zeros (-whole).toNat ++ digits
  else match digits with
    | first :: second :: rest => first :: '.' :: second :: rest ++ layout.exponentText (whole - 1)
    | _ => digits ++ layout.exponentText (whole - 1)

/-- The text of a number in a layout. -/
def layOut (layout : Layout) (x : Binary64) : List Char :=
  let sign := if x.negative then ['-'] else []
  if x.isZero then sign ++ '0' :: if layout.showPoint then ['.', '0'] else []
  else sign ++ x.shortest.layOut layout

theorem layOut_zero (negative : Bool) :
    layOut .document (zero negative) = (if negative then ['-'] else []) ++ ['0', '.', '0'] := by
  cases negative <;> rfl

end PolicyGate.Binary64
