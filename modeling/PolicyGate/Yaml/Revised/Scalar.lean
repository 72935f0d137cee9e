import PolicyGate.Yaml.Scalar

/-!
Scalars in the revised edition of YAML, 1.2, in which configuration files are written. Its texts
hold any character and two characters end a line. Further lines must be indented as deep as the
block around them, and what follows a token in its line must be set off by blanks. Main statement:
at the end of a text there is nothing to pass over.
-/

namespace PolicyGate.Yaml.Revised

/-- Whether a character ends a line. -/
def isBreak (c : Char) : Bool := c = '\n' || c = '\r'

/-- Passes over blanks and a comment behind a token. Whether tabs are blanks is an argument; a
comment must be set off by a blank. -/
def passBlanks (tabs : Bool) (c : Cursor) : Option (List Char × Cursor) :=
  let blanks := c.ahead fun x => x = ' ' || (tabs && x = '\t')
  let c := c.skip blanks.length
  if c.peek 0 = some '#' then if blanks = [] then none else some (blanks, c.skipLine isBreak)
  else some (blanks, c)

/-- Passes over blanks and a comment behind a token, up to the end of the line. -/
def passToEnd (c : Cursor) : Option Cursor := do
  let (_, c) ← passBlanks true c
  if c.isBreakOrEnd isBreak 0 then return c else none

theorem passBlanks_nil (tabs : Bool) (line column offset : Nat) (isFresh : Bool) :
    (passBlanks tabs ⟨[], line, column, offset, isFresh⟩).map Prod.fst = some [] := by
  simp [passBlanks, Cursor.ahead, Cursor.peek, Cursor.skip]

/-- The characters of a word of a plain scalar. -/
def plainWord (inFlow : Bool) : List Char → List Char
  | [] => []
  | x :: rest =>
    if isBlank x || isBreak x || (inFlow && isFlowMark x) then []
    else if x = ':' ∧
      (rest.head?.all (fun y => isBlank y || isBreak y) ∨ (inFlow ∧ rest.head?.any isFlowMark)) then
      []
    else x :: plainWord inFlow rest

/-- Reads a plain scalar: its text, whether it ended behind a line break, and where it ended. A tab
in the indentation of a line is passed over if the line is empty. -/
def readPlain (inFlow : Bool) (indent : Int) :
    Nat → Cursor → List Char → Gap → Option (List Char × Bool × Cursor)
  | 0, _, _, _ => none
  | fuel + 1, c, text, gap =>
    if c.isAtDocumentMark isBreak ∨ c.peek 0 = some '#' then
      some (text, gap.firstBreak.isSome, c)
    else if inFlow ∧ c.peek 0 = some '-' ∧ (c.peek 1).any isFlowMark then none
    else do
      let word := plainWord inFlow c.rest
      let (text, gap) := if word = [] then (text, gap) else (text ++ gap.fold ++ word, Gap.empty)
      let c := c.skip word.length
      if c.rest = [] ∨ ¬ c.isBlankOrEnd isBreak 0 then return (text, gap.firstBreak.isSome, c)
      let (gap, c) ← Gap.read isBreak
        (fun c => if (c.column : Int) < indent then passToEnd c else some (c.skip 1))
        c.rest.length c gap
      if ¬ inFlow ∧ (c.column : Int) < indent then return (text, gap.firstBreak.isSome, c)
      readPlain inFlow indent fuel c text gap

/-- Reads a quoted scalar behind its opening quote: its text and where it ended. -/
def readQuoted (isSingle : Bool) (indent : Int) :
    Nat → Cursor → List Char → Option (List Char × Cursor)
  | 0, _, _ => none
  | fuel + 1, c, text =>
    if c.isAtDocumentMark isBreak ∨ c.rest = [] ∨ (c.column : Int) < indent then none
    else do
      let (text, escapedBreak, c) ← readQuotedWord isBreak isSingle (c.rest.length + 1) c text
      if c.peek 0 = some (if isSingle then '\'' else '"') then return (text, c.skip 1)
      let gap : Gap := if escapedBreak then ⟨[], some [], []⟩ else .empty
      let (gap, c) ← Gap.read isBreak
        (fun c => if (c.column : Int) < indent then none else some (c.skip 1)) c.rest.length c gap
      readQuoted isSingle indent fuel c (text ++ gap.fold)

/-- Whether a block scalar without indentation ends at a cursor. -/
def isAtEndMark (c : Cursor) : Bool :=
  c.rest.take 3 = ['.', '.', '.'] && c.isBlankOrEnd isBreak 3

/-- The text of a block scalar that has no line before the text ends: only what is kept of the empty
lines, and of the break behind its marks if there is one. -/
def emptyBlock (chomping : Chomping) (headBreak breaks : List Char) : List Char :=
  match chomping with
  | .strip => []
  | .clip => headBreak
  | .keep => if breaks = [] then headBreak else breaks

/-- Reads a block scalar behind its indicator: its text and where it ended. The indentation is that
of the first line that is not empty, unless it is given. The end of the text counts as a line break
behind a line that is indented. -/
def readBlock (isLiteral : Bool) (parentIndent : Int) (c : Cursor) :
    Option (List Char × Cursor) := do
  let startLine := c.line
  let (chomping, increment, c) ← readBlockHeader c
  let c ← passToEnd c
  let headBreak := c.breakText
  let c := c.skipBreak
  if c.peek 0 = some '\t' then none
  let given : Option Nat :=
    if increment = 0 then none else some ((max parentIndent 0).toNat + increment)
  let (breaks, deepest, c) ← readBlockBreaks isBreak false given (c.rest.length + 1) c [] 0
  let least := if 0 < parentIndent then 1 else 0
  let indent := given.getD (max (max deepest (parentIndent + 1).toNat) least)
  if c.rest = [] then
    return (if c.line = startLine then [] else emptyBlock chomping headBreak breaks, c)
  if c.column < indent ∧ parentIndent < c.column then none
  let (block, c) ← readBlockLines isBreak false (fun c => indent = 0 && isAtEndMark c) isLiteral
    indent (c.rest.length + 1) c ⟨[], [], breaks, false⟩
  let lastBreak := if c.rest = [] ∧ max parentIndent 1 ≤ c.column then ['\n'] else []
  return (match chomping with
    | .strip => block.text
    | .clip => block.text ++ block.lineBreak ++ lastBreak
    | .keep => block.text ++ block.lineBreak ++ lastBreak ++ block.breaks, c)

end PolicyGate.Yaml.Revised
