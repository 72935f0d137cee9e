import PolicyGate.Text.Glyph

/-!
Texts in double quotes as they are shown for inspection: a quote and a backslash get a backslash,
the usual controls their letter, and any other character without a glyph its code point in braces.
Main statement: what is shown starts and ends with a quote.
-/

namespace PolicyGate.Text

/-- One hexadecimal digit in lower case. -/
def hexDigit (n : Nat) : Char :=
  if n < 10 then Char.ofNat (48 + n) else Char.ofNat (87 + n)

/-- The hexadecimal digits of a number, without leading zeros. -/
def hexDigits (n : Nat) : List Char :=
  if n < 16 then [hexDigit n] else hexDigits (n / 16) ++ [hexDigit (n % 16)]
termination_by n
decreasing_by omega

/-- A character inside quotes. -/
def showChar (c : Char) : List Char :=
  if c = '"' then ['\\', '"']
  else if c = '\\' then ['\\', '\\']
  else if c = '\n' then ['\\', 'n']
  else if c = '\r' then ['\\', 'r']
  else if c = '\t' then ['\\', 't']
  else if c.toNat = 0 then ['\\', '0']
  else if isGlyphless c then ['\\', 'u', '\x7b'] ++ hexDigits c.toNat ++ ['\x7d']
  else [c]

/-- A text in double quotes. -/
def quote (s : String) : String :=
  String.ofList ('"' :: s.toList.flatMap showChar ++ ['"'])

/-- Texts in brackets, separated by a comma and a space. -/
def quoteList (items : List String) : String :=
  "[" ++ String.intercalate ", " (items.map quote) ++ "]"

theorem head?_quote (s : String) : (quote s).toList.head? = some '"' := by
  simp [quote]

theorem getLast?_quote (s : String) : (quote s).toList.getLast? = some '"' := by
  have : (quote s).toList = ('"' :: s.toList.flatMap showChar) ++ ['"'] := by simp [quote]
  rw [this, List.getLast?_concat]

end PolicyGate.Text
