import PolicyGate.Json.Value
import PolicyGate.Text.Quoted

/-!
The text of a JSON value: `render` writes it without any space, `renderPretty` with a line for each
item and member. Members are written in the order in which the value lists them. Main statement: a
text without quotes, backslashes and controls stands between its quotes as it is.
-/

namespace PolicyGate.Json

/-- A character inside a JSON string: quotes, backslashes and controls are escaped. -/
def escapeChar (c : Char) : List Char :=
  if c = '"' then ['\\', '"']
  else if c = '\\' then ['\\', '\\']
  else if c = '\x08' then ['\\', 'b']
  else if c = '\x0c' then ['\\', 'f']
  else if c = '\n' then ['\\', 'n']
  else if c = '\r' then ['\\', 'r']
  else if c = '\t' then ['\\', 't']
  else if c.toNat < 0x20 then
    ['\\', 'u', '0', '0', Text.hexDigit (c.toNat / 16), Text.hexDigit (c.toNat % 16)]
  else [c]

def renderString (s : String) : List Char :=
  '"' :: s.toList.flatMap escapeChar ++ ['"']

def renderInt (n : Int) : List Char :=
  (if n < 0 then ['-'] else []) ++ Nat.toDigits 10 n.natAbs

def renderNumber : JsonNumber → List Char
  | .integer n => renderInt n
  | .float x => x.layOut .document

mutual

/-- A value without spaces. -/
def renderChars : Json → List Char
  | .null => ['n', 'u', 'l', 'l']
  | .bool true => ['t', 'r', 'u', 'e']
  | .bool false => ['f', 'a', 'l', 's', 'e']
  | .number n => renderNumber n
  | .string s => renderString s
  | .array items => '[' :: renderItems true items ++ [']']
  | .object members => '\x7b' :: renderMembers true members ++ ['\x7d']

/-- Items separated by commas. -/
def renderItems (isFirst : Bool) : List Json → List Char
  | [] => []
  | item :: rest => (if isFirst then [] else [',']) ++ renderChars item ++ renderItems false rest

/-- Members separated by commas. -/
def renderMembers (isFirst : Bool) : List (String × Json) → List Char
  | [] => []
  | (key, value) :: rest =>
    (if isFirst then [] else [',']) ++ renderString key ++ ':' :: renderChars value ++
      renderMembers false rest

end

def render (j : Json) : String := String.ofList j.renderChars

/-- A new line and the indentation of a depth. -/
def newLine (depth : Nat) : List Char := '\n' :: List.replicate (2 * depth) ' '

mutual

/-- A value over several lines, two spaces per level; empty arrays and objects stay on one line. -/
def prettyChars (depth : Nat) : Json → List Char
  | .array [] => ['[', ']']
  | .array (item :: rest) =>
    '[' :: newLine (depth + 1) ++ prettyChars (depth + 1) item ++ prettyItems depth rest ++
      newLine depth ++ [']']
  | .object [] => ['\x7b', '\x7d']
  | .object ((key, value) :: rest) =>
    '\x7b' :: newLine (depth + 1) ++ renderString key ++ [':', ' '] ++
      prettyChars (depth + 1) value ++ prettyMembers depth rest ++ newLine depth ++ ['\x7d']
  | .null => ['n', 'u', 'l', 'l']
  | .bool b => if b then ['t', 'r', 'u', 'e'] else ['f', 'a', 'l', 's', 'e']
  | .number n => renderNumber n
  | .string s => renderString s

/-- The items behind the first one. -/
def prettyItems (depth : Nat) : List Json → List Char
  | [] => []
  | item :: rest =>
    ',' :: newLine (depth + 1) ++ prettyChars (depth + 1) item ++ prettyItems depth rest

/-- The members behind the first one. -/
def prettyMembers (depth : Nat) : List (String × Json) → List Char
  | [] => []
  | (key, value) :: rest =>
    ',' :: newLine (depth + 1) ++ renderString key ++ [':', ' '] ++ prettyChars (depth + 1) value ++
      prettyMembers depth rest

end

/-- The text of a value over several lines. -/
def renderPretty (j : Json) : String := String.ofList (prettyChars 0 j)

/-- A text without characters to escape is rendered as it stands. -/
theorem renderString_of_plain {s : String} (h : ∀ c ∈ s.toList, escapeChar c = [c]) :
    renderString s = '"' :: s.toList ++ ['"'] := by
  have : ∀ cs : List Char, (∀ c ∈ cs, escapeChar c = [c]) → cs.flatMap escapeChar = cs := by
    intro cs
    induction cs with
    | nil => intro _; rfl
    | cons c cs ih =>
      intro h
      simp [List.flatMap_cons, h c (by simp), ih fun d hd => h d (by simp [hd])]
  simp [renderString, this _ h]

end PolicyGate.Json
