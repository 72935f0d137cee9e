/-!
How much is logged: a word, or its place among the words. Main statement: the word of a level is
read as that level.
-/

namespace PolicyGate.CommandLine

/-- How much is logged; every level holds those before it. -/
inductive LogLevel where
  | error
  | warn
  | info
  | debug
  | trace
  deriving DecidableEq, Repr

namespace LogLevel

def all : List LogLevel := [error, warn, info, debug, trace]

def label : LogLevel → String
  | error => "error"
  | warn => "warn"
  | info => "info"
  | debug => "debug"
  | trace => "trace"

/-- The number that a text of digits behind an optional plus sign stands for. -/
def place? (text : String) : Option Nat :=
  let digits := match text.toList with
    | '+' :: digits => digits
    | digits => digits
  if digits.isEmpty || !digits.all Char.isDigit then none
  else some (digits.foldl (fun n d => n * 10 + (d.toNat - 48)) 0)

/-- The level of a text: its place, counted from one, or its word in any case. -/
def ofText? (text : String) : Option LogLevel :=
  match place? text with
  | some 0 => none
  | some (place + 1) => all[place]?
  | none => all.find? fun level => level.label = text.map Char.toLower

theorem ofText?_label (l : LogLevel) : ofText? l.label = some l := by
  cases l <;> decide +kernel

end LogLevel

end PolicyGate.CommandLine
