import PolicyGate.Time.Duration

/-!
Points in time, counted from the start of a clock. The clock holds signed seconds of 64 bits, so
that a point too far in the future does not exist. Main statement: a later point is reached if and
only if its seconds fit.
-/

namespace PolicyGate

/-- A point in time, in nanoseconds since the start of the clock. -/
structure Instant where
  nanos : Nat
  deriving DecidableEq, Repr, Inhabited

namespace Instant

instance : LE Instant := ⟨fun a b => a.nanos ≤ b.nanos⟩

instance : LT Instant := ⟨fun a b => a.nanos < b.nanos⟩

instance (a b : Instant) : Decidable (a ≤ b) := inferInstanceAs (Decidable (a.nanos ≤ b.nanos))

instance (a b : Instant) : Decidable (a < b) := inferInstanceAs (Decidable (a.nanos < b.nanos))

/-- The start of the clock. -/
def start : Instant := ⟨0⟩

/-- The greatest number of seconds that the clock holds. -/
def maxSeconds : Nat := 9223372036854775807

/-- The point a length of time later, without regard to what the clock holds. -/
def plus (t : Instant) (d : Duration) : Instant := ⟨t.nanos + d.nanos⟩

/-- The point a length of time later, if the clock can hold it. -/
def after? (t : Instant) (d : Duration) : Option Instant :=
  if (t.nanos + d.nanos) / 1000000000 ≤ maxSeconds then some (t.plus d) else none

theorem after?_eq_some_iff {t u : Instant} {d : Duration} :
    t.after? d = some u ↔ u = t.plus d ∧ (t.nanos + d.nanos) / 1000000000 ≤ maxSeconds := by
  unfold after?
  split <;> simp_all [eq_comm]

theorem le_of_after? {t u : Instant} {d : Duration} (h : t.after? d = some u) : t ≤ u := by
  rw [after?_eq_some_iff] at h
  show t.nanos ≤ u.nanos
  simp [h.1, plus]

end Instant

end PolicyGate
