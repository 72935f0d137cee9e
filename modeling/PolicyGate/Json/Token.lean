/-!
The tokens of JSON text. `lex` cuts a text into tokens and refuses what is no token; strings keep
their escapes by code unit and numbers their digits, so that a value that nobody looks at is checked
for its form alone. Main statement: every step of the lexer leaves less to read.
-/

namespace PolicyGate.Json

/-- A part of a string: a character, or a code unit given by its four hexadecimal digits. -/
inductive StringPart where
  | char (c : Char)
  | unit (code : Nat)
  deriving DecidableEq, Repr

/-- The text of a number, cut into its parts. -/
structure NumberText where
  negative : Bool
  whole : List Char
  fraction : Option (List Char)
  exponent : Option (Bool × List Char)
  deriving DecidableEq, Repr

inductive Token where
  | openObject
  | closeObject
  | openArray
  | closeArray
  | colon
  | comma
  | null
  | bool (value : Bool)
  | number (text : NumberText)
  | string (parts : List StringPart)
  deriving DecidableEq, Repr

/-- The value of a hexadecimal digit. -/
def hexValue? (c : Char) : Option Nat :=
  if c.isDigit then some (c.toNat - 48)
  else if 'a' ≤ c ∧ c ≤ 'f' then some (c.toNat - 87)
  else if 'A' ≤ c ∧ c ≤ 'F' then some (c.toNat - 55)
  else none

/-- The number of four hexadecimal digits. -/
def hexUnit? (a b c d : Char) : Option Nat := do
  return (((← hexValue? a) * 16 + (← hexValue? b)) * 16 + (← hexValue? c)) * 16 + (← hexValue? d)

/-- The character of an escape by a single letter. -/
def escapedChar? : Char → Option Char
  | '"' => some '"'
  | '\\' => some '\\'
  | '/' => some '/'
  | 'b' => some '\x08'
  | 'f' => some '\x0c'
  | 'n' => some '\n'
  | 'r' => some '\r'
  | 't' => some '\t'
  | _ => none

/-- The parts of a string up to its closing quote, and what follows. -/
def lexString : List Char → Option (List StringPart × List Char)
  | [] => none
  | '"' :: rest => some ([], rest)
  | '\\' :: 'u' :: a :: b :: c :: d :: rest => do
    let code ← hexUnit? a b c d
    let (parts, rest) ← lexString rest
    return (.unit code :: parts, rest)
  | '\\' :: letter :: rest => do
    let c ← escapedChar? letter
    let (parts, rest) ← lexString rest
    return (.char c :: parts, rest)
  | c :: rest =>
    if c.toNat < 0x20 ∨ c = '\\' then none
    else do
      let (parts, rest) ← lexString rest
      return (.char c :: parts, rest)

/-- The digits at the start of a text, at least one, and what follows. -/
def lexDigits (cs : List Char) : Option (List Char × List Char) :=
  match cs.takeWhile Char.isDigit with
  | [] => none
  | digits => some (digits, cs.dropWhile Char.isDigit)

/-- The fraction at the start of a text. -/
def lexFraction : List Char → Option (Option (List Char) × List Char)
  | '.' :: rest => (lexDigits rest).map fun (digits, rest) => (some digits, rest)
  | rest => some (none, rest)

/-- The exponent at the start of a text: whether it is negative, and its digits. -/
def lexExponent : List Char → Option (Option (Bool × List Char) × List Char)
  | [] => some (none, [])
  | c :: rest =>
    if c = 'e' ∨ c = 'E' then
      let (negative, rest) := match rest with
        | '-' :: rest => (true, rest)
        | '+' :: rest => (false, rest)
        | rest => (false, rest)
      (lexDigits rest).map fun (digits, rest) => (some (negative, digits), rest)
    else some (none, c :: rest)

/-- The whole part at the start of a number. One of several digits starts with none that is zero:
what follows a leading zero is left to the next token. -/
def lexWhole : List Char → Option (List Char × List Char)
  | '0' :: rest => some (['0'], rest)
  | cs => lexDigits cs

/-- The number at the start of a text. -/
def lexNumber (negative : Bool) (cs : List Char) : Option (NumberText × List Char) := do
  let (whole, rest) ← lexWhole cs
  let (fraction, rest) ← lexFraction rest
  let (exponent, rest) ← lexExponent rest
  return (⟨negative, whole, fraction, exponent⟩, rest)

/-- Whether a character is space between tokens. -/
def isSpace (c : Char) : Bool := c = ' ' || c = '\n' || c = '\t' || c = '\r'

/-- The token that starts with a character, and what follows. -/
def lexToken (c : Char) (rest : List Char) : Option (Token × List Char) :=
  match c, rest with
  | '\x7b', rest => some (.openObject, rest)
  | '\x7d', rest => some (.closeObject, rest)
  | '[', rest => some (.openArray, rest)
  | ']', rest => some (.closeArray, rest)
  | ':', rest => some (.colon, rest)
  | ',', rest => some (.comma, rest)
  | 'n', 'u' :: 'l' :: 'l' :: rest => some (.null, rest)
  | 't', 'r' :: 'u' :: 'e' :: rest => some (.bool true, rest)
  | 'f', 'a' :: 'l' :: 's' :: 'e' :: rest => some (.bool false, rest)
  | '"', rest => (lexString rest).map fun (parts, rest) => (.string parts, rest)
  | '-', rest => (lexNumber true rest).map fun (text, rest) => (.number text, rest)
  | c, rest => (lexNumber false (c :: rest)).map fun (text, rest) => (.number text, rest)

/-- A string takes characters off a text. -/
theorem length_of_lexString {cs rest : List Char} {parts : List StringPart}
    (h : lexString cs = some (parts, rest)) : rest.length < cs.length := by
  fun_induction lexString cs generalizing parts with
  | case1 => simp at h
  | case2 rest' => cases h; simp
  | case3 a b c d rest' ih =>
    cases hu : hexUnit? a b c d with
    | none => simp [hu] at h
    | some code =>
      cases hl : lexString rest' with
      | none => simp [hu, hl] at h
      | some r =>
        simp only [hu, hl, Option.bind_eq_bind, Option.bind_some, Option.pure_def,
          Option.some.injEq, Prod.mk.injEq] at h
        have := @ih r.1 (by rw [hl, ← h.2])
        simp only [List.length_cons]
        omega
  | case4 letter rest' _ ih =>
    cases hu : escapedChar? letter with
    | none => simp [hu] at h
    | some code =>
      cases hl : lexString rest' with
      | none => simp [hu, hl] at h
      | some r =>
        simp only [hu, hl, Option.bind_eq_bind, Option.bind_some, Option.pure_def,
          Option.some.injEq, Prod.mk.injEq] at h
        have := @ih r.1 (by rw [hl, ← h.2])
        simp only [List.length_cons]
        omega
  | case5 => simp at h
  | case6 c rest' _ _ _ _ ih =>
    cases hl : lexString rest' with
    | none => simp [hl] at h
    | some r =>
      simp only [hl, Option.bind_eq_bind, Option.bind_some, Option.pure_def, Option.some.injEq,
        Prod.mk.injEq] at h
      have := @ih r.1 (by rw [hl, ← h.2])
      simp only [List.length_cons]
      omega

theorem length_of_lexDigits {cs digits rest : List Char} (h : lexDigits cs = some (digits, rest)) :
    rest.length < cs.length := by
  unfold lexDigits at h
  split at h
  · cases h
  · next d hne =>
    cases h
    have := congrArg List.length (List.takeWhile_append_dropWhile (p := Char.isDigit) (l := cs))
    have : 0 < (cs.takeWhile Char.isDigit).length := List.length_pos_iff.2 hne
    simp only [List.length_append] at *
    omega

theorem length_of_lexFraction {cs rest : List Char} {fraction : Option (List Char)}
    (h : lexFraction cs = some (fraction, rest)) : rest.length ≤ cs.length := by
  unfold lexFraction at h
  split at h
  · next r =>
    obtain ⟨x, hx, he⟩ := Option.map_eq_some_iff.1 h
    cases he
    have := length_of_lexDigits hx
    simp only [List.length_cons]
    omega
  · cases h
    exact Nat.le_refl _

theorem length_of_lexExponent {cs rest : List Char} {exponent : Option (Bool × List Char)}
    (h : lexExponent cs = some (exponent, rest)) : rest.length ≤ cs.length := by
  unfold lexExponent at h
  split at h
  · cases h; exact Nat.le_refl _
  · next c r =>
    split at h
    · obtain ⟨x, hx, he⟩ := Option.map_eq_some_iff.1 h
      cases he
      have := length_of_lexDigits hx
      split at this <;> simp_all only [List.length_cons] <;> omega
    · cases h; exact Nat.le_refl _

theorem length_of_lexWhole {cs whole rest : List Char} (h : lexWhole cs = some (whole, rest)) :
    rest.length < cs.length := by
  unfold lexWhole at h
  split at h
  · cases h
    simp
  · exact length_of_lexDigits h

theorem length_of_lexNumber {negative : Bool} {cs rest : List Char} {text : NumberText}
    (h : lexNumber negative cs = some (text, rest)) : rest.length < cs.length := by
  simp only [lexNumber, Option.bind_eq_bind, Option.bind_eq_some_iff, Option.pure_def,
    Option.some.injEq, Prod.mk.injEq] at h
  obtain ⟨⟨whole, r₁⟩, h₁, ⟨fraction, r₂⟩, h₂, ⟨exponent, r₃⟩, h₃, -, rfl⟩ := h
  have := length_of_lexWhole h₁
  have := length_of_lexFraction h₂
  have := length_of_lexExponent h₃
  simp only at *
  omega

/-- A token takes characters off a text, so that lexing comes to an end. -/
theorem length_of_lexToken {c : Char} {cs rest : List Char} {token : Token}
    (h : lexToken c cs = some (token, rest)) : rest.length < (c :: cs).length := by
  unfold lexToken at h
  split at h
  all_goals first
    | cases h; simp only [List.length_cons]; omega
    | skip
  · obtain ⟨x, hx, he⟩ := Option.map_eq_some_iff.1 h
    cases he
    have := length_of_lexString hx
    simp only [List.length_cons]
    omega
  · obtain ⟨x, hx, he⟩ := Option.map_eq_some_iff.1 h
    cases he
    have := length_of_lexNumber hx
    simp only [List.length_cons]
    omega
  · obtain ⟨x, hx, he⟩ := Option.map_eq_some_iff.1 h
    cases he
    exact length_of_lexNumber hx

/-- The tokens of a text. -/
def lex : List Char → Option (List Token)
  | [] => some []
  | c :: rest =>
    if isSpace c then lex rest
    else match h : lexToken c rest with
      | some (token, rest') =>
        have : rest'.length < rest.length + 1 := length_of_lexToken h
        (lex rest').map fun tokens => token :: tokens
      | none => none
termination_by cs => cs.length

end PolicyGate.Json
