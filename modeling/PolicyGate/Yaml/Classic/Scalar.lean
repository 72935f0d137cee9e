import PolicyGate.Yaml.Scalar

/-!
Scalars in the classic edition of YAML, 1.1, in which policy documents are written. Its texts hold
printable characters, and five characters end a line. Main statement: the characters that end a line
may occur in a text.
-/

namespace PolicyGate.Yaml.Classic

/-- Whether a character ends a line. -/
def isBreak (c : Char) : Bool :=
  c = '\n' || c = '\r' || c = '\u0085' || c = '\u2028' || c = '\u2029'

/-- Whether a character may occur in a text. -/
def isAllowed (c : Char) : Bool :=
  let n := c.toNat
  n == 0x9 || n == 0xA || n == 0xD || (0x20 ≤ n && n ≤ 0x7E) || n == 0x85 ||
    (0xA0 ≤ n && n ≤ 0xFFFD) || 0x10000 ≤ n

theorem isAllowed_of_isBreak {c : Char} (h : isBreak c = true) : isAllowed c = true := by
  simp only [isBreak, Bool.or_eq_true, decide_eq_true_eq] at h
  rcases h with (((rfl | rfl) | rfl) | rfl) | rfl <;> decide

/-- The characters of a word of a plain scalar. In a flow collection, a colon before a mark of flow
collections or a question mark is an error. -/
def plainWord (inFlow : Bool) : List Char → Option (List Char)
  | [] => some []
  | x :: rest =>
    let next := rest.head?
    if isBlank x || isBreak x then some []
    else if x = ':' ∧ next.all fun y => isBlank y || isBreak y then some []
    else if inFlow ∧ x = ':' ∧ next.any fun y => isFlowMark y || y = '?' then none
    else if inFlow ∧ isFlowMark x then some []
    else (plainWord inFlow rest).map (x :: ·)

/-- Reads a plain scalar: its text, whether it ended behind a line break, and where it ended. A line
must not have a tab in its indentation. -/
def readPlain (inFlow : Bool) (indent : Int) :
    Nat → Cursor → List Char → Gap → Option (List Char × Bool × Cursor)
  | 0, _, _, _ => none
  | fuel + 1, c, text, gap =>
    if c.isAtDocumentMark isBreak ∨ c.peek 0 = some '#' then
      some (text, gap.firstBreak.isSome, c)
    else do
      let word ← plainWord inFlow c.rest
      let (text, gap) := if word = [] then (text, gap) else (text ++ gap.fold ++ word, Gap.empty)
      let c := c.skip word.length
      if c.rest = [] ∨ ¬ c.isBlankOrEnd isBreak 0 then return (text, gap.firstBreak.isSome, c)
      let (gap, c) ← Gap.read isBreak
        (fun c => if (c.column : Int) < indent then none else some (c.skip 1)) c.rest.length c gap
      if ¬ inFlow ∧ (c.column : Int) < indent then return (text, gap.firstBreak.isSome, c)
      readPlain inFlow indent fuel c text gap

/-- Reads a quoted scalar behind its opening quote: its text and where it ended. -/
def readQuoted (isSingle : Bool) : Nat → Cursor → List Char → Option (List Char × Cursor)
  | 0, _, _ => none
  | fuel + 1, c, text =>
    if c.isAtDocumentMark isBreak ∨ c.rest = [] then none
    else do
      let (text, escapedBreak, c) ← readQuotedWord isBreak isSingle (c.rest.length + 1) c text
      if c.peek 0 = some (if isSingle then '\'' else '"') then return (text, c.skip 1)
      let gap : Gap := if escapedBreak then ⟨[], some [], []⟩ else .empty
      let (gap, c) ← Gap.read isBreak (fun c => some (c.skip 1)) c.rest.length c gap
      readQuoted isSingle fuel c (text ++ gap.fold)

/-- Reads a block scalar behind its indicator: its text and where it ended. The indentation is that
of the first line that is not empty, unless it is given. -/
def readBlock (isLiteral : Bool) (parentIndent : Int) (c : Cursor) :
    Option (List Char × Cursor) := do
  let (chomping, increment, c) ← readBlockHeader c
  let c := c.skipWhile isBlank
  let c := if c.peek 0 = some '#' then c.skipLine isBreak else c
  if ¬ c.isBreakOrEnd isBreak 0 then none
  let c := c.skipBreak
  let given : Option Nat :=
    if increment = 0 then none else some ((max parentIndent 0).toNat + increment)
  let (breaks, deepest, c) ← readBlockBreaks isBreak true given (c.rest.length + 1) c [] 0
  let indent := given.getD (max (max deepest (parentIndent + 1).toNat) 1)
  let (block, c) ← readBlockLines isBreak true (fun _ => false) isLiteral indent
    (c.rest.length + 1) c ⟨[], [], breaks, false⟩
  return (match chomping with
    | .strip => block.text
    | .clip => block.text ++ block.lineBreak
    | .keep => block.text ++ block.lineBreak ++ block.breaks, c)

end PolicyGate.Yaml.Classic
