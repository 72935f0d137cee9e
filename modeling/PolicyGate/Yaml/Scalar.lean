import PolicyGate.Yaml.Cursor
import PolicyGate.Yaml.Token

/-!
What the editions of YAML have in common about scalars: gaps between words and how they are folded,
escapes in double quotes, the marks of block scalars and their lines. Main statement: a gap without
a line break is kept as it is, and a single line break becomes a space.
-/

namespace PolicyGate.Yaml

/-- The white space between two words of a scalar. -/
structure Gap where
  /-- blanks within a line -/
  blanks : List Char
  /-- the first line break, if there is one -/
  firstBreak : Option (List Char)
  /-- the line breaks after the first one -/
  moreBreaks : List Char

namespace Gap

def empty : Gap := ⟨[], none, []⟩

/-- What a gap contributes to the text: a lone line break becomes a space, and the first of several
is left out. -/
def fold (g : Gap) : List Char :=
  match g.firstBreak with
  | none => g.blanks
  | some first =>
    if first = ['\n'] then if g.moreBreaks = [] then [' '] else g.moreBreaks
    else first ++ g.moreBreaks

theorem fold_blanks (blanks : List Char) : fold ⟨blanks, none, []⟩ = blanks := rfl

theorem fold_newline (blanks : List Char) : fold ⟨blanks, some ['\n'], []⟩ = [' '] := rfl

/-- Reads a gap. What happens at a tab that a line starts with is an argument. -/
def read (isBreak : Char → Bool) (passTab : Cursor → Option Cursor) :
    Nat → Cursor → Gap → Option (Gap × Cursor)
  | 0, c, g => some (g, c)
  | fuel + 1, c, g =>
    match c.peek 0 with
    | none => some (g, c)
    | some x =>
      if isBlank x then
        if g.firstBreak.isSome then
          if x = '\t' then (passTab c).bind fun c => read isBreak passTab fuel c g
          else read isBreak passTab fuel (c.skip 1) g
        else read isBreak passTab fuel (c.skip 1) { g with blanks := g.blanks ++ [x] }
      else if isBreak x then
        if g.firstBreak.isSome then
          read isBreak passTab fuel c.skipBreak { g with moreBreaks := g.moreBreaks ++ c.breakText }
        else read isBreak passTab fuel c.skipBreak { g with firstBreak := some c.breakText }
      else some (g, c)

end Gap

/-- The characters that start or end a flow collection, or separate its items. -/
def isFlowMark (c : Char) : Bool := c = ',' || c = '[' || c = ']' || c = '{' || c = '}'

/-- The number of hexadecimal digits. -/
def hexNumber? (digits : List Char) : Option Nat :=
  digits.foldlM (fun n x =>
    if x.isDigit then some (n * 16 + (x.toNat - 48))
    else if 'a' ≤ x ∧ x ≤ 'f' then some (n * 16 + (x.toNat - 87))
    else if 'A' ≤ x ∧ x ≤ 'F' then some (n * 16 + (x.toNat - 55))
    else none) 0

/-- The character of an escape by one letter. -/
def escaped? : Char → Option Char
  | '0' => some '\x00'
  | 'a' => some '\x07'
  | 'b' => some '\x08'
  | 't' => some '\t'
  | '\t' => some '\t'
  | 'n' => some '\n'
  | 'v' => some '\x0b'
  | 'f' => some '\x0c'
  | 'r' => some '\r'
  | 'e' => some '\x1b'
  | ' ' => some ' '
  | '"' => some '"'
  | '/' => some '/'
  | '\\' => some '\\'
  | 'N' => some '\u0085'
  | '_' => some '\u00a0'
  | 'L' => some '\u2028'
  | 'P' => some '\u2029'
  | _ => none

/-- How many hexadecimal digits follow an escape letter. -/
def escapeWidth? : Char → Option Nat
  | 'x' => some 2
  | 'u' => some 4
  | 'U' => some 8
  | _ => none

/-- Reads the words of a line of a quoted scalar, up to the next blank, line break or quote: the
text, whether it ended with an escaped line break, and where it ended. -/
def readQuotedWord (isBreak : Char → Bool) (isSingle : Bool) :
    Nat → Cursor → List Char → Option (List Char × Bool × Cursor)
  | 0, _, _ => none
  | fuel + 1, c, text =>
    match c.rest with
    | [] => some (text, false, c)
    | '\'' :: more =>
      if isSingle then
        if more.head? = some '\'' then
          readQuotedWord isBreak isSingle fuel (c.skip 2) (text ++ ['\''])
        else some (text, false, c)
      else readQuotedWord isBreak isSingle fuel (c.skip 1) (text ++ ['\''])
    | '\\' :: more =>
      if isSingle then readQuotedWord isBreak isSingle fuel (c.skip 1) (text ++ ['\\'])
      else match more with
        | [] => none
        | x :: digits =>
          if isBreak x then some (text, true, (c.skip 1).skipBreak)
          else match escapeWidth? x with
            | some width =>
              let digits := digits.take width
              if digits.length < width then none
              else match hexNumber? digits with
                | some code =>
                  if (0xD800 ≤ code ∧ code ≤ 0xDFFF) ∨ 0x10FFFF < code then none
                  else
                    readQuotedWord isBreak isSingle fuel (c.skip (2 + width))
                      (text ++ [Char.ofNat code])
                | none => none
            | none =>
              match escaped? x with
              | some y => readQuotedWord isBreak isSingle fuel (c.skip 2) (text ++ [y])
              | none => none
    | x :: _ =>
      if isBlank x || isBreak x || (x = '"' && !isSingle) then some (text, false, c)
      else readQuotedWord isBreak isSingle fuel (c.skip 1) (text ++ [x])

/-- What happens to the line breaks at the end of a block scalar. -/
inductive Chomping where
  | strip
  | clip
  | keep
  deriving DecidableEq, Repr

/-- The chomping of a mark. -/
def chomping? : Option Char → Option Chomping
  | some '+' => some .keep
  | some '-' => some .strip
  | _ => none

/-- Reads the marks behind the indicator of a block scalar, in either order. -/
def readBlockHeader (c : Cursor) : Option (Chomping × Nat × Cursor) :=
  let digit (c : Cursor) : Option (Nat × Cursor) :=
    match c.peek 0 with
    | some x =>
      if x = '0' then none
      else if x.isDigit then some (x.toNat - 48, c.skip 1)
      else some (0, c)
    | none => some (0, c)
  match chomping? (c.peek 0) with
  | some chomping => (digit (c.skip 1)).map fun (increment, c) => (chomping, increment, c)
  | none => do
    let (increment, c) ← digit c
    if increment = 0 then return (.clip, 0, c)
    match chomping? (c.peek 0) with
    | some chomping => return (chomping, increment, c.skip 1)
    | none => return (.clip, increment, c)

/-- Passes over the indentation and the empty lines before a line of a block scalar. Without a known
indentation, the deepest one of the empty lines is found. Whether a tab in the indentation is an
error is an argument. -/
def readBlockBreaks (isBreak : Char → Bool) (refusesTab : Bool) (indent : Option Nat) :
    Nat → Cursor → List Char → Nat → Option (List Char × Nat × Cursor)
  | 0, _, _, _ => none
  | fuel + 1, c, breaks, deepest =>
    let spaces := (c.ahead (· = ' ')).length
    let c := c.skip (match indent with
      | some indent => min spaces (indent - c.column)
      | none => spaces)
    let deepest := max deepest c.column
    if refusesTab ∧ indent.all (c.column < ·) ∧ c.peek 0 = some '\t' then none
    else if c.rest ≠ [] ∧ c.isBreakOrEnd isBreak 0 then
      readBlockBreaks isBreak refusesTab indent fuel c.skipBreak (breaks ++ c.breakText) deepest
    else some (breaks, deepest, c)

/-- What has been read of a block scalar. -/
structure BlockText where
  text : List Char
  /-- the break behind the last line -/
  lineBreak : List Char
  /-- the breaks of the empty lines after it -/
  breaks : List Char
  /-- whether the last line starts with a blank -/
  afterBlank : Bool

/-- Reads the lines of a block scalar, up to a cursor at which they stop. -/
def readBlockLines (isBreak : Char → Bool) (refusesTab : Bool) (stopsAt : Cursor → Bool)
    (isLiteral : Bool) (indent : Nat) : Nat → Cursor → BlockText → Option (BlockText × Cursor)
  | 0, _, _ => none
  | fuel + 1, c, block =>
    if c.column ≠ indent ∨ c.rest = [] ∨ stopsAt c then some (block, c)
    else do
      let startsBlank := (c.peek 0).any isBlank
      let joint :=
        if ¬ isLiteral ∧ block.lineBreak = ['\n'] ∧ ¬ block.afterBlank ∧ ¬ startsBlank then
          if block.breaks = [] then [' '] else []
        else block.lineBreak
      let line := c.ahead fun x => !isBreak x
      let c := c.skip line.length
      let text := block.text ++ joint ++ block.breaks ++ line
      let lineBreak := c.breakText
      let c := c.skipBreak
      let (breaks, _, c) ←
        readBlockBreaks isBreak refusesTab (some indent) (c.rest.length + 1) c [] 0
      readBlockLines isBreak refusesTab stopsAt isLiteral indent fuel c
        ⟨text, lineBreak, breaks, startsBlank⟩

end PolicyGate.Yaml
