/-!
Signed whole numbers of 64 bits in decimal: an optional sign and digits, nothing else. The reading
goes from left to right and refuses the text at the first character that is no digit or no longer
fits. Main statement: an empty text is refused as such.
-/

namespace PolicyGate.Int64Text

/-- Why a text is no number. -/
inductive Refusal where
  | isEmpty
  | invalidDigit
  | tooLarge
  | tooSmall
  deriving DecidableEq, Repr

/-- The words for a refusal. -/
def Refusal.message : Refusal → String
  | isEmpty => "cannot parse integer from empty string"
  | invalidDigit => "invalid digit found in string"
  | tooLarge => "number too large to fit in target type"
  | tooSmall => "number too small to fit in target type"

/-- Appends digits to a magnitude that must not exceed a limit. -/
def readDigits (limit : Nat) (overflow : Refusal) (n : Nat) : List Char → Except Refusal Nat
  | [] => .ok n
  | c :: rest =>
    if ¬ c.isDigit then .error .invalidDigit
    else
      let next := n * 10 + (c.toNat - 48)
      if limit < next then .error overflow else readDigits limit overflow next rest

/-- The number of a text. -/
def parse (text : String) : Except Refusal Int :=
  match text.toList with
  | [] => .error .isEmpty
  | ['+'] => .error .invalidDigit
  | ['-'] => .error .invalidDigit
  | '+' :: digits => (readDigits 9223372036854775807 .tooLarge 0 digits).map Int.ofNat
  | '-' :: digits => (readDigits 9223372036854775808 .tooSmall 0 digits).map fun n => -(n : Int)
  | digits => (readDigits 9223372036854775807 .tooLarge 0 digits).map Int.ofNat

theorem parse_empty : parse "" = .error .isEmpty := rfl

end PolicyGate.Int64Text
