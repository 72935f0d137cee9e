import PolicyGate.Json.Form
import PolicyGate.Json.Value

/-!
The values that JSON text stands for. A whole number that fits 64 bits stays whole and any other
number becomes floating point; escaped surrogates must come in pairs; nesting is limited. Main
statement: a string of plain characters is read as these characters.
-/

namespace PolicyGate.Json

/-- The greatest unsigned number of 64 bits. -/
def maxUnsigned : Nat := 18446744073709551615

/-- Appends digits to a number as long as it fits 64 bits; also the number of digits left over. -/
def appendDigits (n : Nat) : List Char → Nat × Nat
  | [] => (n, 0)
  | d :: rest =>
    let next := n * 10 + (d.toNat - 48)
    if next ≤ maxUnsigned then appendDigits next rest else (n, rest.length + 1)

/-- The number of a list of decimal digits. -/
def digitsValue (digits : List Char) : Nat :=
  digits.foldl (fun n d => n * 10 + (d.toNat - 48)) 0

namespace NumberText

/-- The floating-point number of a text: at most 64 bits of its digits count, the others only move
the point. -/
def float? (text : NumberText) : Option Binary64 :=
  let (whole, dropped) := appendDigits 0 text.whole
  let (significand, places) := match text.fraction with
    | none => (whole, (dropped : Int))
    | some digits =>
      let (significand, unread) := appendDigits whole digits
      (significand, (dropped : Int) - (digits.length - unread))
  let exponent := match text.exponent with
    | none => 0
    | some (negative, digits) =>
      if negative then -(digitsValue digits : Int) else digitsValue digits
  Binary64.ofDecimalFast? text.negative significand (places + exponent)

def value? (text : NumberText) : Option JsonNumber :=
  let isWhole := text.fraction.isNone && text.exponent.isNone
  let n := digitsValue text.whole
  if isWhole && !text.negative && n ≤ maxUnsigned then some (.integer n)
  else if isWhole && text.negative && n ≠ 0 && n ≤ 9223372036854775808 then some (.integer (-n))
  else text.float?.map .float

end NumberText

/-- The characters of a string; a high surrogate must be followed by a low one. -/
def stringChars? : List StringPart → Option (List Char)
  | [] => some []
  | .char c :: rest => (stringChars? rest).map (c :: ·)
  | .unit code :: rest =>
    if 0xD800 ≤ code ∧ code ≤ 0xDBFF then
      match rest with
      | .unit low :: rest =>
        if 0xDC00 ≤ low ∧ low ≤ 0xDFFF then
          (stringChars? rest).map
            (Char.ofNat (0x10000 + (code - 0xD800) * 0x400 + (low - 0xDC00)) :: ·)
        else none
      | _ => none
    else if 0xDC00 ≤ code ∧ code ≤ 0xDFFF then none
    else (stringChars? rest).map (Char.ofNat code :: ·)

def stringText? (parts : List StringPart) : Option String :=
  (stringChars? parts).map String.ofList

/-- The greatest depth to which values nest. -/
def maxDepth : Nat := 127

/-- The value of a form that nests at most to the given depth; the members of its objects are
ordered by key. -/
def Form.value? : Nat → Form → Option Json
  | _, .null => some .null
  | _, .bool b => some (.bool b)
  | _, .number text => text.value?.map .number
  | _, .string parts => (stringText? parts).map .string
  | 0, .array _ => none
  | depth + 1, .array items => (items.mapM (Form.value? depth)).map .array
  | 0, .object _ => none
  | depth + 1, .object members =>
    (members.mapM fun (key, value) => do
      return (← stringText? key, ← Form.value? depth value)).map ofMembers

def parse (text : String) : Option Json :=
  (Form.parse text).bind (Form.value? maxDepth)

theorem stringChars?_map_char (cs : List Char) :
    stringChars? (cs.map .char) = some cs := by
  induction cs with
  | nil => rfl
  | cons c cs ih => simp [stringChars?, ih]

end PolicyGate.Json
