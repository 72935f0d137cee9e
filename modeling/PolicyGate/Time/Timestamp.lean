import PolicyGate.Text.Blank
import PolicyGate.Time.Duration

/-!
Instants of the calendar, in universal time and to the nanosecond, and their text. Reading takes a
date, a time of day and an offset from universal time; writing gives the instant in universal time
with as many fraction digits as it needs, in groups of three. Main statement: a month has between 28
and 31 days.
-/

namespace PolicyGate

/-- An instant, as date and time of day in universal time. A leap second is second 59 with more than
a second's worth of nanoseconds. -/
structure Timestamp where
  year : Int
  month : Nat
  day : Nat
  hour : Nat
  minute : Nat
  second : Nat
  nanos : Nat
  deriving DecidableEq, Repr, Inhabited

namespace Timestamp

def isLeapYear (year : Int) : Bool := year % 4 = 0 && (year % 100 ≠ 0 || year % 400 = 0)

def daysInMonth (year : Int) (month : Nat) : Nat :=
  if month = 2 then if isLeapYear year then 29 else 28
  else if month = 4 ∨ month = 6 ∨ month = 9 ∨ month = 11 then 30
  else 31

/-- The years that a date can have. -/
def hasYear (year : Int) : Bool := -262143 ≤ year && year ≤ 262142

def previousDay (year : Int) (month day : Nat) : Int × Nat × Nat :=
  if 1 < day then (year, month, day - 1)
  else if 1 < month then (year, month - 1, daysInMonth year (month - 1))
  else (year - 1, 12, 31)

def nextDay (year : Int) (month day : Nat) : Int × Nat × Nat :=
  if day < daysInMonth year month then (year, month, day + 1)
  else if month < 12 then (year, month + 1, 1)
  else (year + 1, 1, 1)

/-- The same instant in universal time, for a local time that is ahead of it by a number of
minutes, less than a day. -/
def toUniversal (t : Timestamp) (offset : Int) : Timestamp :=
  let minutes : Int := t.hour * 60 + t.minute - offset
  let (year, month, day) :=
    if minutes < 0 then previousDay t.year t.month t.day
    else if 1440 ≤ minutes then nextDay t.year t.month t.day
    else (t.year, t.month, t.day)
  let inDay := (minutes % 1440).toNat
  { t with year, month, day, hour := inDay / 60, minute := inDay % 60 }

/-- Drops blanks at the start. -/
def skipBlanks (cs : List Char) : List Char := cs.dropWhile Text.isBlank

def number (digits : List Char) : Nat := digits.foldl (fun n d => n * 10 + (d.toNat - 48)) 0

/-- A number of at least one and at most `width` digits. -/
def readNumber (width : Nat) (cs : List Char) : Option (Nat × List Char) :=
  match (cs.take width).takeWhile Char.isDigit with
  | [] => none
  | digits => some (number digits, cs.drop digits.length)

/-- A number that may follow blanks. -/
def readField (width : Nat) (cs : List Char) : Option (Nat × List Char) :=
  readNumber width (skipBlanks cs)

/-- A year: four digits at most, or any number of them behind a sign. -/
def readYear (cs : List Char) : Option (Int × List Char) :=
  match skipBlanks cs with
  | '-' :: rest => (readNumber rest.length rest).map fun (n, rest) => (-(n : Int), rest)
  | '+' :: rest => (readNumber rest.length rest).map fun (n, rest) => ((n : Int), rest)
  | rest => (readNumber 4 rest).map fun (n, rest) => ((n : Int), rest)

/-- A mark that may follow blanks. -/
def readMark (mark : Char) (cs : List Char) : Option (List Char) :=
  match skipBlanks cs with
  | c :: rest => if c = mark then some rest else none
  | [] => none

/-- The nanoseconds behind the point: nine digits count and further ones are passed over. -/
def readNanos : List Char → Option (Nat × List Char)
  | '.' :: rest =>
    match (rest.take 9).takeWhile Char.isDigit with
    | [] => none
    | digits =>
      some (number digits * Nat.pow 10 (9 - digits.length), rest.dropWhile Char.isDigit)
  | rest => some (0, rest)

/-- The offset from universal time in minutes: a sign, two digits of hours, any colons and blanks,
and two digits of minutes. -/
def readOffset (cs : List Char) : Option (Int × List Char) :=
  match cs with
  | 'Z' :: rest => some (0, rest)
  | 'z' :: rest => some (0, rest)
  | sign :: h₁ :: h₂ :: rest =>
    if ¬ (sign = '+' ∨ sign = '-' ∨ sign = '−') ∨ ¬ (h₁.isDigit && h₂.isDigit) then none
    else match rest.dropWhile fun c => c = ':' || Text.isBlank c with
      | m₁ :: m₂ :: rest =>
        if '0' ≤ m₁ ∧ m₁ ≤ '5' ∧ m₂.isDigit then
          let minutes : Int := number [h₁, h₂] * 60 + number [m₁, m₂]
          some (if sign = '+' then minutes else -minutes, rest)
        else none
      | _ => none
  | _ => none

/-- The name of universal time, or an offset from it. -/
def readZone (cs : List Char) : Option (Int × List Char) :=
  match cs with
  | u :: t :: c :: rest =>
    if u.toLower = 'u' ∧ t.toLower = 't' ∧ c.toLower = 'c' then some (0, rest) else readOffset cs
  | _ => readOffset cs

/-- Reads a date, a letter `T` or a blank, a time of day and a zone. -/
def parse (text : String) : Option Timestamp := do
  let (year, rest) ← readYear text.toList
  let rest ← readMark '-' rest
  let (month, rest) ← readField 2 rest
  let rest ← readMark '-' rest
  let (day, rest) ← readField 2 rest
  let rest ← match rest with
    | c :: rest => if c = 'T' ∨ c = 't' ∨ c = ' ' then some rest else none
    | [] => none
  let (hour, rest) ← readField 2 rest
  let rest ← readMark ':' rest
  let (minute, rest) ← readField 2 rest
  let rest ← readMark ':' rest
  let (second, rest) ← readField 2 rest
  let (nanos, rest) ← readNanos rest
  let (offset, rest) ← readZone (skipBlanks rest)
  if skipBlanks rest ≠ [] ∨ ¬ hasYear year ∨ month < 1 ∨ 12 < month ∨ day < 1 ∨
      daysInMonth year month < day ∨ 23 < hour ∨ 59 < minute ∨ 60 < second ∨
      offset ≤ -1440 ∨ 1440 ≤ offset then none
  else
    let (second, nanos) := if second = 60 then (59, nanos + 1000000000) else (second, nanos)
    let t := toUniversal ⟨year, month, day, hour, minute, second, nanos⟩ offset
    if hasYear t.year then some t else none

def twoDigits (n : Nat) : List Char := Duration.padLeft 2 (Nat.toDigits 10 n)

/-- A year of four digits, with a sign when it needs one. -/
def yearText (year : Int) : List Char :=
  let digits := Duration.padLeft 4 (Nat.toDigits 10 year.natAbs)
  if year < 0 then '-' :: digits else if 9999 < year then '+' :: digits else digits

/-- The fraction of a second in none, three, six or nine digits. -/
def fractionText (nanos : Nat) : List Char :=
  if nanos = 0 then []
  else if nanos % 1000000 = 0 then '.' :: Duration.padLeft 3 (Nat.toDigits 10 (nanos / 1000000))
  else if nanos % 1000 = 0 then '.' :: Duration.padLeft 6 (Nat.toDigits 10 (nanos / 1000))
  else '.' :: Duration.padLeft 9 (Nat.toDigits 10 nanos)

/-- The text of an instant. -/
def render (t : Timestamp) : String :=
  let (second, nanos) :=
    if 1000000000 ≤ t.nanos then (t.second + 1, t.nanos - 1000000000) else (t.second, t.nanos)
  String.ofList (yearText t.year ++ '-' :: twoDigits t.month ++ '-' :: twoDigits t.day ++
    'T' :: twoDigits t.hour ++ ':' :: twoDigits t.minute ++ ':' :: twoDigits second ++
    fractionText nanos ++ ['Z'])

theorem daysInMonth_bounds (year : Int) (month : Nat) :
    28 ≤ daysInMonth year month ∧ daysInMonth year month ≤ 31 := by
  unfold daysInMonth
  split
  · split <;> omega
  · split <;> omega

end Timestamp

end PolicyGate
