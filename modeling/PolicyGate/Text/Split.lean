/-!
Cutting a text at a character. `splitOn` gives the pieces between all occurrences, `splitOnce` cuts
at the first one. Main statements: joining the pieces again gives the text, and the part before a
single cut does not contain the separator.
-/

namespace PolicyGate.Text

/-- The pieces of a text between the occurrences of `sep`; there is always at least one. -/
def splitChars (sep : Char) : List Char → List (List Char)
  | [] => [[]]
  | c :: cs =>
    if c = sep then [] :: splitChars sep cs
    else match splitChars sep cs with
      | [] => [[c]]
      | piece :: pieces => (c :: piece) :: pieces

@[inherit_doc splitChars]
def splitOn (sep : Char) (s : String) : List String :=
  (splitChars sep s.toList).map String.ofList

/-- The parts before and after the first `sep`, if there is one. -/
def splitOnceChars (sep : Char) : List Char → Option (List Char × List Char)
  | [] => none
  | c :: cs =>
    if c = sep then some ([], cs)
    else (splitOnceChars sep cs).map fun (before, after) => (c :: before, after)

@[inherit_doc splitOnceChars]
def splitOnce (sep : Char) (s : String) : Option (String × String) :=
  (splitOnceChars sep s.toList).map fun (before, after) =>
    (String.ofList before, String.ofList after)

theorem splitChars_ne_nil (sep : Char) (cs : List Char) : splitChars sep cs ≠ [] := by
  cases cs with
  | nil => simp [splitChars]
  | cons c cs =>
    simp only [splitChars]
    split
    · simp
    · split <;> simp

/-- The pieces joined by the separator are the text. -/
theorem intercalate_splitChars (sep : Char) (cs : List Char) :
    List.intercalate [sep] (splitChars sep cs) = cs := by
  induction cs with
  | nil => rfl
  | cons c cs ih =>
    simp only [splitChars]
    cases h : splitChars sep cs with
    | nil => exact absurd h (splitChars_ne_nil sep cs)
    | cons piece pieces =>
      rw [h] at ih
      split
      · next hc =>
        subst hc
        simp only [List.intercalate, List.intersperse] at ih ⊢
        simp [ih]
      · cases pieces <;> simp_all [List.intercalate, List.intersperse]

/-- A text is split at its first separator. -/
theorem splitOnceChars_eq_some {sep : Char} {cs before after : List Char}
    (h : splitOnceChars sep cs = some (before, after)) :
    cs = before ++ sep :: after ∧ sep ∉ before := by
  induction cs generalizing before with
  | nil => simp [splitOnceChars] at h
  | cons c cs ih =>
    simp only [splitOnceChars] at h
    split at h
    · next hc => cases h; simp [hc]
    · next hc =>
      obtain ⟨⟨b, a⟩, hb, he⟩ := Option.map_eq_some_iff.1 h
      cases he
      obtain ⟨hcs, hmem⟩ := ih hb
      exact ⟨by simp [hcs], by simp [hmem, Ne.symm hc]⟩

theorem splitOnceChars_eq_none_iff {sep : Char} {cs : List Char} :
    splitOnceChars sep cs = none ↔ sep ∉ cs := by
  induction cs with
  | nil => simp [splitOnceChars]
  | cons c cs ih =>
    simp only [splitOnceChars]
    split
    · next hc => simp [hc]
    · next hc => simp [ih, Ne.symm hc]

end PolicyGate.Text
