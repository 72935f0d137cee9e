import PolicyGate.Number.Binary64

/-!
Floating-point numbers in decimal text: an optional sign, digits with an optional point among them
or at either end, and an optional exponent. Main statement: a text without a digit is no number.
-/

namespace PolicyGate.DecimalText

/-- The number of a list of decimal digits. -/
def digitsValue (digits : List Char) : Nat :=
  digits.foldl (fun n d => n * 10 + (d.toNat - 48)) 0

/-- The sign at the start of a text, and what follows. -/
def sign : List Char → Bool × List Char
  | '-' :: rest => (true, rest)
  | '+' :: rest => (false, rest)
  | rest => (false, rest)

/-- The number that an exponent spells; a text without an exponent has exponent zero. -/
def exponent? : List Char → Option Int
  | [] => some 0
  | mark :: rest =>
    let (negative, digits) := sign rest
    if (mark = 'e' ∨ mark = 'E') ∧ digits ≠ [] ∧ digits.all Char.isDigit then
      some (if negative then -(digitsValue digits : Int) else digitsValue digits)
    else none

/-- The digits behind a point, and what follows. -/
def fraction : List Char → List Char × List Char
  | '.' :: rest => (rest.takeWhile Char.isDigit, rest.dropWhile Char.isDigit)
  | rest => ([], rest)

/-- The parts of a decimal: the number `± significand · 10 ^ exponent`. -/
structure Parts where
  negative : Bool
  significand : Nat
  exponent : Int

/-- The number nearest to a decimal, unless that is too large. -/
def Parts.nearest? (parts : Parts) : Option Binary64 :=
  Binary64.ofDecimal? parts.negative parts.significand parts.exponent

/-- The decimal that a text spells. -/
def parts? (cs : List Char) : Option Parts :=
  let (negative, cs) := sign cs
  let whole := cs.takeWhile Char.isDigit
  let (places, rest) := fraction (cs.dropWhile Char.isDigit)
  if whole ++ places = [] then none
  else (exponent? rest).map fun exponent =>
    ⟨negative, digitsValue (whole ++ places), exponent - places.length⟩

/-- The number nearest to what a text spells. -/
def parse? (cs : List Char) : Option Binary64 := (parts? cs).bind Parts.nearest?

/-- A text without digits spells no number. -/
theorem parse?_of_no_digit {cs : List Char} (h : ∀ c ∈ cs, c.isDigit = false) :
    parse? cs = none := by
  have hd : ∀ l : List Char, (∀ c ∈ l, c.isDigit = false) → l.takeWhile Char.isDigit = [] := by
    intro l hl
    cases l with
    | nil => rfl
    | cons c r => simp [hl c (by simp)]
  have hs : ∀ c ∈ (sign cs).2, c.isDigit = false := by
    intro c hc
    unfold sign at hc
    split at hc <;> first | exact h c (List.mem_cons_of_mem _ hc) | exact h c hc
  have hf : (fraction ((sign cs).2.dropWhile Char.isDigit)).1 = [] := by
    have hr : ∀ c ∈ (sign cs).2.dropWhile Char.isDigit, c.isDigit = false :=
      fun c hc => hs c ((List.dropWhile_sublist _).subset hc)
    unfold fraction
    split
    · next h' => exact hd _ fun c hc => hr c (by rw [h']; exact List.mem_cons_of_mem _ hc)
    · rfl
  simp [parse?, parts?, hd _ hs, hf]

end PolicyGate.DecimalText
