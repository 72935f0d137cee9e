import PolicyGate.Offset.Coordinator

/-!
The counts of the coordinator as text for monitoring: for every family of series a line of help, a
line with its type and a line per series. Main statement: a family without series has no lines.
-/

namespace PolicyGate

/-- A family of series of one name. -/
structure MetricFamily where
  name : String
  help : String
  isGauge : Bool
  /-- the labels of every series with its value -/
  series : List (List (String × String) × Int)
  deriving DecidableEq, Repr

namespace MetricFamily

/-- Labels between braces, if there are any. -/
def labelText (labels : List (String × String)) : String :=
  if labels.isEmpty then ""
  else "\x7b" ++ ",".intercalate (labels.map fun (name, value) => name ++ "=\"" ++ value ++ "\"")
    ++ "\x7d"

def lines (f : MetricFamily) : List String :=
  if f.series.isEmpty then []
  else ["# HELP " ++ f.name ++ " " ++ f.help,
    "# TYPE " ++ f.name ++ " " ++ if f.isGauge then "gauge" else "counter"] ++
    f.series.map fun (labels, value) => f.name ++ labelText labels ++ " " ++ toString value

theorem lines_of_series_nil {f : MetricFamily} (h : f.series = []) : f.lines = [] := by
  simp [lines, h]

end MetricFamily

namespace OffsetMetrics

/-- The series of replies with an outcome; there is none before the first reply. -/
def replySeries (outcome : String) (count : Nat) : List (List (String × String) × Int) :=
  if count = 0 then [] else [([("outcome", outcome)], count)]

/-- The families of the coordinator, ordered by name. Workers and requests are counted from the
first request on. -/
def families (m : OffsetMetrics) : List MetricFamily :=
  let counted (n : Int) := if m.requests = 0 then [] else [([], n)]
  [⟨"gatehouse_offset_replies_total", "Offset replies delivered grouped by outcome", false,
      replySeries "failure" m.failure ++ replySeries "success" m.success⟩,
    ⟨"gatehouse_offset_requests_total", "Offset requests received by the coordinator", false,
      counted m.requests⟩,
    ⟨"gatehouse_workers_active", "Live token-offset workers", true, counted m.active⟩]

/-- The text of all families. -/
def exposition (m : OffsetMetrics) : String :=
  String.join ((m.families.flatMap MetricFamily.lines).map (· ++ "\n"))

theorem exposition_zero : exposition .zero = "" := rfl

end OffsetMetrics

end PolicyGate
