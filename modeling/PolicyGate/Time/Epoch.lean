import PolicyGate.Time.Timestamp

/-!
Instants counted in seconds from the start of 1970. Days are counted from the first of March of the
year 0, so that a leap day is the last one of its year. Main statement: the count starts where it
says.
-/

namespace PolicyGate.Timestamp

/-- The days between the first of March of the year 0 and the start of 1970. -/
def epochDay : Int := 719468

/-- The days of the 400 years after which the calendar repeats. -/
def eraDays : Int := 146097

/-- The year, month and day of a day, counted from the start of 1970. -/
def dateOfDay (day : Int) : Int × Nat × Nat :=
  let days := day + epochDay
  let inEra := (days % eraDays).toNat
  let yearOfEra := (inEra - inEra / 1460 + inEra / 36524 - inEra / 146096) / 365
  let inYear := inEra - (365 * yearOfEra + yearOfEra / 4 - yearOfEra / 100)
  let fromMarch := (5 * inYear + 2) / 153
  let month := if fromMarch < 10 then fromMarch + 3 else fromMarch - 9
  let year : Int := yearOfEra + days / eraDays * 400
  (if month ≤ 2 then year + 1 else year, month, inYear - (153 * fromMarch + 2) / 5 + 1)

/-- The instant of a number of seconds and nanoseconds after the start of 1970. -/
def ofEpoch (seconds : Int) (nanos : Nat) : Timestamp :=
  let (year, month, day) := dateOfDay (seconds / 86400)
  let inDay := (seconds % 86400).toNat
  ⟨year, month, day, inDay / 3600, inDay / 60 % 60, inDay % 60, nanos⟩

theorem ofEpoch_zero : ofEpoch 0 0 = ⟨1970, 1, 1, 0, 0, 0, 0⟩ := by decide

end PolicyGate.Timestamp
