/-!
Lengths of time in whole nanoseconds, and their text in the largest unit that fits, with a decimal
fraction. Main statement: a length of whole seconds is shown without a fraction.
-/

namespace PolicyGate

/-- A length of time. -/
structure Duration where
  nanos : Nat
  deriving DecidableEq, Repr, Inhabited

namespace Duration

instance : LE Duration := ⟨fun a b => a.nanos ≤ b.nanos⟩

def ofSeconds (n : Nat) : Duration := ⟨n * 1000000000⟩

def ofMillis (n : Nat) : Duration := ⟨n * 1000000⟩

def seconds (d : Duration) : Nat := d.nanos / 1000000000

/-- The nanoseconds beyond the whole seconds. -/
def subsecNanos (d : Duration) : Nat := d.nanos % 1000000000

def millis (d : Duration) : Nat := d.nanos / 1000000

def isZero (d : Duration) : Bool := d.nanos = 0

/-- A digit string filled up with zeros on the left. -/
def padLeft (width : Nat) (digits : List Char) : List Char :=
  List.replicate (width - digits.length) '0' ++ digits

/-- A count of units with the fraction `part / 10 ^ places`, whose trailing zeros are left out. -/
def decimalText (whole part places : Nat) (unit : String) : String :=
  let fraction := (padLeft places (Nat.toDigits 10 part)).reverse.dropWhile (· = '0')
  let tail := if part = 0 then [] else '.' :: fraction.reverse
  String.ofList (Nat.toDigits 10 whole ++ tail) ++ unit

/-- The text of a length in seconds, milliseconds, microseconds or nanoseconds, whichever is the
largest unit of which there is one. -/
def inspect (d : Duration) : String :=
  if 1000000000 ≤ d.nanos then decimalText d.seconds d.subsecNanos 9 "s"
  else if 1000000 ≤ d.nanos then decimalText (d.nanos / 1000000) (d.nanos % 1000000) 6 "ms"
  else if 1000 ≤ d.nanos then decimalText (d.nanos / 1000) (d.nanos % 1000) 3 "µs"
  else decimalText d.nanos 0 0 "ns"

theorem inspect_ofSeconds (n : Nat) (h : 0 < n) :
    (ofSeconds n).inspect = String.ofList (Nat.toDigits 10 n) ++ "s" := by
  have h₁ : 1000000000 ≤ n * 1000000000 := by omega
  have h₂ : n * 1000000000 / 1000000000 = n := by omega
  have h₃ : n * 1000000000 % 1000000000 = 0 := by omega
  simp [inspect, ofSeconds, seconds, subsecNanos, h₁, decimalText]

end Duration

end PolicyGate
