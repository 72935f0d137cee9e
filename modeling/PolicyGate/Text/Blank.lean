/-!
Blank characters and trimming. A character is blank when it has the Unicode property `White_Space`;
`trim` removes the blanks at both ends of a text. Main statements: every character that core calls
white space is blank, and `trim` leaves a text alone that neither starts nor ends with a blank.
-/

namespace PolicyGate.Text

/-- The characters with the Unicode property `White_Space`. -/
def isBlank (c : Char) : Bool :=
  let n := c.toNat
  (0x9 ≤ n && n ≤ 0xD) || n == 0x20 || n == 0x85 || n == 0xA0 || n == 0x1680 ||
    (0x2000 ≤ n && n ≤ 0x200A) || n == 0x2028 || n == 0x2029 || n == 0x202F || n == 0x205F ||
    n == 0x3000

theorem isBlank_of_isWhitespace {c : Char} (h : c.isWhitespace = true) : isBlank c = true := by
  simp only [Char.isWhitespace, Bool.or_eq_true, decide_eq_true_eq] at h
  rcases h with ((rfl | rfl) | rfl) | rfl <;> decide

/-- Drops the last characters of a text as long as they satisfy `p`. -/
def dropEndWhile (p : Char → Bool) (cs : List Char) : List Char :=
  (cs.reverse.dropWhile p).reverse

/-- The text without the blanks at its two ends. -/
def trimChars (cs : List Char) : List Char :=
  dropEndWhile isBlank (cs.dropWhile isBlank)

@[inherit_doc trimChars]
def trim (s : String) : String :=
  String.ofList (trimChars s.toList)

theorem trimChars_of_ends {cs : List Char} (first : ∀ c, cs.head? = some c → isBlank c = false)
    (last : ∀ c, cs.getLast? = some c → isBlank c = false) : trimChars cs = cs := by
  have drop : ∀ {l : List Char}, (∀ c, l.head? = some c → isBlank c = false) →
      l.dropWhile isBlank = l := by
    intro l h
    cases l with
    | nil => rfl
    | cons c r => simp [h c rfl]
  unfold trimChars dropEndWhile
  rw [drop first, drop (by simpa using last), List.reverse_reverse]

end PolicyGate.Text
