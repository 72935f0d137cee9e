import PolicyGate.Text.Blank
import PolicyGate.Time.Duration

/-!
Spans: lengths of time as people write them, such as `1h 30m`. A span is a list of numbers, each
with a unit; blanks may stand anywhere but inside a unit. Reading goes through the characters once.
Main statement: an empty text is no span, and a bare zero is one.
-/

namespace PolicyGate.Duration

/-- The greatest unsigned number of 64 bits, the limit for every number in a span. -/
def maxCount : Nat := 18446744073709551615

/-- A unit of time in spans: whole seconds, or nanoseconds below a second. -/
structure SpanUnit where
  /-- whether the unit is at least a second -/
  isLong : Bool
  /-- its length in seconds or, of a short unit, in nanoseconds -/
  length : Nat
  deriving DecidableEq, Repr

namespace SpanUnit

def nanos (u : SpanUnit) : Nat := if u.isLong then u.length * 1000000000 else u.length

/-- The nanoseconds in the grain of a fraction of a unit: whole seconds from an hour on, single
nanoseconds below. -/
def grain (u : SpanUnit) : Nat := if u.isLong ∧ 3600 ≤ u.length then 1000000000 else 1

/-- The units with the words for them. A month is a twelfth of a year of 365.28 days and a year has
365.25 days. -/
def table : List (List String × SpanUnit) := [
  (["nanos", "nsec", "ns"], ⟨false, 1⟩),
  (["usec", "us", "µs"], ⟨false, 1000⟩),
  (["millis", "msec", "ms"], ⟨false, 1000000⟩),
  (["seconds", "second", "secs", "sec", "s"], ⟨true, 1⟩),
  (["minutes", "minute", "mins", "min", "m"], ⟨true, 60⟩),
  (["hours", "hour", "hrs", "hr", "h"], ⟨true, 3600⟩),
  (["days", "day", "d"], ⟨true, 86400⟩),
  (["weeks", "week", "wks", "wk", "w"], ⟨true, 604800⟩),
  (["months", "month", "M"], ⟨true, 2630016⟩),
  (["years", "year", "yrs", "yr", "y"], ⟨true, 31557600⟩)]

def ofWord? (word : String) : Option SpanUnit :=
  (table.find? fun entry => entry.1.contains word).map Prod.snd

end SpanUnit

/-- The digits behind a point: their number as a whole, and how many they are. -/
structure Fraction where
  numerator : Nat
  places : Nat
  deriving DecidableEq, Repr

/-- Where the reading of a span stands. -/
inductive SpanState where
  /-- before a number; whether one has been read -/
  | ready (total : Duration) (hasPart : Bool)
  /-- in the whole part of a number -/
  | whole (total : Duration) (count : Nat)
  /-- behind the point of a number -/
  | fraction (total : Duration) (count : Nat) (fraction : Fraction)
  /-- in a unit, its letters last first -/
  | unit (total : Duration) (count : Nat) (fraction : Option Fraction) (letters : List Char)

/-- The number with one more digit, if it stays in range. -/
def appendDigit (n : Nat) (c : Char) : Option Nat :=
  let next := n * 10 + (c.toNat - 48)
  if next ≤ maxCount then some next else none

/-- Adds a count of units to a length. Whole units are counted in 64 bits. -/
def addUnits (total : Duration) (count : Nat) (unit : SpanUnit) : Option Duration :=
  let units := count * unit.length
  if maxCount < units then none
  else if unit.isLong then
    let seconds := total.seconds + units
    if maxCount < seconds then none else some ⟨seconds * 1000000000 + total.subsecNanos⟩
  else if maxCount < total.subsecNanos + units then none
  else
    let nanos := total.nanos + units
    if maxCount < nanos / 1000000000 then none else some ⟨nanos⟩

/-- Adds a fraction of a unit, which must be a whole number of its grain; a nanosecond has none. -/
def addFraction (total : Duration) (fraction : Fraction) (unit : SpanUnit) : Option Duration :=
  let scaled := fraction.numerator * (unit.nanos / unit.grain)
  let denominator := Nat.pow 10 fraction.places
  if unit.nanos = 1 ∨ maxCount < scaled ∨ scaled % denominator ≠ 0 then none
  else
    let nanos := total.nanos + scaled / denominator * unit.grain
    if maxCount < nanos / 1000000000 then none else some ⟨nanos⟩

/-- Adds a number with its unit. -/
def addPart (total : Duration) (count : Nat) (fraction : Option Fraction) (letters : List Char) :
    Option Duration := do
  let unit ← SpanUnit.ofWord? (String.ofList letters.reverse)
  let total ← addUnits total count unit
  match fraction with
  | none => return total
  | some fraction => addFraction total fraction unit

/-- Whether a character can stand in the name of a unit. -/
def isUnitLetter (c : Char) : Bool := c.isAlpha || c = 'µ'

/-- One character further. -/
def SpanState.step : SpanState → Char → Option SpanState
  | .ready total hasPart, c =>
    if c.isDigit then some (.whole total (c.toNat - 48))
    else if Text.isBlank c then some (.ready total hasPart)
    else none
  | .whole total count, c =>
    if c.isDigit then (appendDigit count c).map (.whole total)
    else if Text.isBlank c then some (.whole total count)
    else if isUnitLetter c then some (.unit total count none [c])
    else if c = '.' then some (.fraction total count ⟨0, 0⟩)
    else none
  | .fraction total count part, c =>
    if c.isDigit then
      if part.places < 19 then
        (appendDigit part.numerator c).map fun n => .fraction total count ⟨n, part.places + 1⟩
      else none
    else if Text.isBlank c then some (.fraction total count part)
    else if isUnitLetter c ∧ part.places ≠ 0 then some (.unit total count (some part) [c])
    else none
  | .unit total count part letters, c =>
    if c.isDigit then
      (addPart total count part letters).map fun total => .whole total (c.toNat - 48)
    else if Text.isBlank c then
      (addPart total count part letters).map fun total => .ready total true
    else if isUnitLetter c then some (.unit total count part (c :: letters))
    else none

/-- What has been read when the text ends. -/
def SpanState.finish : SpanState → Option Duration
  | .ready total true => some total
  | .unit total count part letters => addPart total count part letters
  | _ => none

/-- Reads a span; a bare zero needs no unit. -/
def ofSpan? (text : String) : Option Duration :=
  if text = "0" then some ⟨0⟩
  else (text.toList.foldlM SpanState.step (.ready ⟨0⟩ false)).bind SpanState.finish

/-- A count of units, left out when it is zero. -/
def spanPart (count : Nat) (unit : String) : List String :=
  if count = 0 then [] else [toString count ++ unit]

/-- A count of units whose word takes an `s` when there are several. -/
def spanPluralPart (count : Nat) (unit : String) : List String :=
  spanPart count (if 1 < count then unit ++ "s" else unit)

/-- The span of a length, from years down to nanoseconds. -/
def toSpan (d : Duration) : String :=
  if d.isZero then "0s"
  else
    let inYear := d.seconds % 31557600
    let inMonth := inYear % 2630016
    let inDay := inMonth % 86400
    let nanos := d.subsecNanos
    String.intercalate " " (spanPluralPart (d.seconds / 31557600) "year" ++
      spanPluralPart (inYear / 2630016) "month" ++
      spanPluralPart (inMonth / 86400) "day" ++
      spanPart (inDay / 3600) "h" ++
      spanPart (inDay % 3600 / 60) "m" ++
      spanPart (inDay % 60) "s" ++
      spanPart (nanos / 1000000) "ms" ++
      spanPart (nanos / 1000 % 1000) "us" ++
      spanPart (nanos % 1000) "ns")

theorem ofSpan?_empty : ofSpan? "" = none := rfl

theorem ofSpan?_zero : ofSpan? "0" = some ⟨0⟩ := rfl

end PolicyGate.Duration
