import PolicyGate.Yaml.Revised.Scalar

/-!
The tokens of a text in the revised edition of YAML. Indentation becomes tokens that open and close
block collections; what follows a key or an item's mark must stand deeper than its collection, and
in a flow sequence a key makes a mapping of its own. Main statement: no flow collection opens in
more than 255 others.
-/

namespace PolicyGate.Yaml.Revised

/-- A column that was the innermost one before another took its place. -/
structure Indent where
  outer : Int
  /-- whether the other one is the column of a block collection -/
  isBlock : Bool

/-- How far the cutting of a text into tokens has come. -/
structure Scan where
  cursor : Cursor
  /-- the tokens found so far, last first -/
  tokens : List Token
  /-- the column behind which content must stand -/
  indent : Int
  /-- the columns that it took the place of, innermost first -/
  indents : List Indent
  /-- the possible key of the innermost flow collection, or of the block around all of them -/
  keyMark : Option Token.KeyMark
  /-- the possible keys of what is around it, innermost first -/
  outerKeyMarks : List (Option Token.KeyMark)
  /-- whether a key may start here -/
  keyAllowed : Bool
  /-- whether the mapping of a flow collection has a token of its own -/
  inFlowMapping : Bool
  /-- whether a mapping of a single entry is open in a flow sequence -/
  inPair : Bool
  /-- the place, in octets, at which a value mark needs no blank behind it -/
  adjacentPlace : Nat

namespace Scan

variable (s : Scan)

/-- The start of a text. -/
def ofChars (cs : List Char) : Scan := ⟨.ofChars cs, [], -1, [], none, [], true, false, false, 0⟩

/-- Whether a flow collection is open. -/
def inFlow : Bool := !s.outerKeyMarks.isEmpty

/-- The column at which the cursor stands. -/
def column : Int := s.cursor.column

/-- Adds a token at the end. -/
def push (token : Token) : Scan := { s with tokens := token :: s.tokens }

/-- Puts a token behind the first tokens, of which there are the given number. -/
def insert (place : Nat) (token : Token) : Scan :=
  { s with tokens := Token.insertAt place token s.tokens }

/-- Steps over characters of one line. -/
def skip (count : Nat) : Scan := { s with cursor := s.cursor.skip count }

/-- Passes over blanks and a comment. -/
def passBlanks : Option Scan := do
  let (_, c) ← Revised.passBlanks true s.cursor
  return { s with cursor := c }

/-- Gives up a possible key, unless it has to be one. -/
def giveUp : Option Token.KeyMark → Option (Option Token.KeyMark)
  | some mark => if mark.isRequired then none else some none
  | none => some none

/-- Gives up the innermost possible key. -/
def dropKey : Option Scan := do return { s with keyMark := ← giveUp s.keyMark }

/-- Gives up all possible keys. -/
def dropKeys : Option Scan := do
  let outerKeyMarks ← s.outerKeyMarks.mapM giveUp
  return { s with keyMark := ← giveUp s.keyMark, outerKeyMarks := outerKeyMarks }

/-- Gives up a possible key that lies too far back, counted in characters. In a flow collection none
does. -/
def refreshKey : Option Scan :=
  match s.keyMark with
  | some mark =>
    if !s.inFlow && (mark.line < s.cursor.line || mark.column + Token.keyLimit < s.cursor.column)
    then s.dropKey
    else some s
  | none => some s

/-- Whether the innermost column is that of a block collection. -/
def isBlock : Bool := s.indents.head?.any Indent.isBlock

/-- Remembers the cursor as the possible start of a key. -/
def markKey : Scan :=
  if s.keyAllowed then
    let isRequired := !s.inFlow && s.indent = s.column && s.isBlock
    { s with keyMark := some ⟨s.tokens.length, isRequired, s.cursor.line, s.cursor.column,
        s.cursor.offset⟩ }
  else s

/-- Goes back to the innermost column but one. -/
def popIndent : Scan :=
  match s.indents with
  | [] => s
  | indent :: rest =>
    { (if indent.isBlock then s.push .blockEnd else s) with
      indent := indent.outer, indents := rest }

/-- Goes back to the column of a block collection. -/
def popToBlock : Nat → Scan → Scan
  | 0, s => s
  | fuel + 1, s =>
    if s.indents.head?.any (!·.isBlock) then popToBlock fuel s.popIndent else s

/-- Leaves the columns that are not those of a block collection. -/
def leaveNested : Scan := popToBlock s.indents.length s

/-- Opens a block collection at a column to the right of the innermost one; its token goes behind
the given number of tokens. -/
def openBlock (column : Int) (place : Nat) (token : Token) : Scan :=
  if s.inFlow then s
  else
    let s := if s.indent ≤ column ∧ s.indents.head?.any (!·.isBlock) then s.popIndent else s
    if s.indent < column then
      { s.insert place token with indent := column, indents := ⟨s.indent, true⟩ :: s.indents }
    else s

/-- Goes back to a column or to one left of it. -/
def popTo (column : Int) : Nat → Scan → Scan
  | 0, s => s
  | fuel + 1, s => if column < s.indent then popTo column fuel s.popIndent else s

/-- Closes the block collections to the right of a column. -/
def closeBlocks (column : Int) : Scan :=
  if s.inFlow then s else popTo column s.indents.length s

/-- Makes content stand behind the column of the innermost block collection. -/
def nest : Scan :=
  if !s.inFlow && s.isBlock then
    { s with indent := s.indent + 1, indents := ⟨s.indent, false⟩ :: s.indents }
  else s

/-- Closes the mapping of a single entry. -/
def closePair : Scan :=
  if s.inPair then { s.push .flowMappingEnd with inPair := false, inFlowMapping := false } else s

/-- Steps over a line break. Outside of flow collections a key may follow it. -/
def skipBreak : Scan :=
  { s with cursor := s.cursor.skipBreak, keyAllowed := s.keyAllowed || !s.inFlow }

/-- Passes over blanks, comments and line breaks up to the next token. No content may follow a tab
in the indentation of a block. -/
def toNextToken : Nat → Scan → Option Scan
  | 0, s => some s
  | fuel + 1, s =>
    match s.cursor.peek 0 with
    | some '\t' =>
      if s.indents ≠ [] ∧ s.cursor.isFresh ∧ s.column < s.indent then
        (passToEnd s.cursor).bind fun c => toNextToken fuel { s with cursor := c }
      else toNextToken fuel (s.skip 1)
    | some ' ' => toNextToken fuel (s.skip 1)
    | some '\n' => toNextToken fuel s.skipBreak
    | some '\r' => toNextToken fuel s.skipBreak
    | some '#' => toNextToken fuel { s with cursor := s.cursor.skipLine isBreak }
    | _ => some s

/-- The most flow collections that may be open. -/
def maxFlowDepth : Nat := 255

/-- Starts a flow collection. -/
def openFlow (token : Token) : Option Scan := do
  let s := s.markKey.nest
  if s.outerKeyMarks.length = maxFlowDepth then none
  let s := { s.skip 1 with
    keyMark := none
    outerKeyMarks := s.keyMark :: s.outerKeyMarks
    keyAllowed := true
    inFlowMapping := s.inFlowMapping || token = Token.flowMapping }
  return (← s.passBlanks).push token

/-- Ends a flow collection. What stands around it may go on with a value at once. -/
def closeFlow (token : Token) : Option Scan := do
  let s ← s.dropKey
  let s := match s.outerKeyMarks with
    | mark :: rest => { s with keyMark := mark, outerKeyMarks := rest }
    | [] => s
  let s ← ({ s.closePair.skip 1 with keyAllowed := false }).passBlanks
  return { s.push token with
    adjacentPlace := if s.inFlow then s.cursor.offset else s.adjacentPlace }

/-- Separates the items of a flow collection. -/
def separate : Option Scan := do
  let s ← s.dropKey
  let s ← ({ s.closePair.skip 1 with keyAllowed := true }).passBlanks
  return s.push .flowEntry

/-- Whether a mark of an item stands at the cursor. -/
def isAtEntry : Bool := s.cursor.peek 0 = some '-' && s.cursor.isBlankOrEnd isBreak 1

/-- Starts an item of a block sequence. -/
def startEntry : Option Scan := do
  if s.inFlow ∨ ¬ s.keyAllowed then none
  let column := s.column
  let s := (s.skip 1).openBlock column s.tokens.length .blockSequence
  let (blanks, c) ← Revised.passBlanks true s.cursor
  let s := { s with cursor := c }
  if blanks.contains '\t' ∧ s.isAtEntry then none
  let s := if (c.peek 0).any fun x => isBreak x || isFlowMark x then s.nest else s
  let s ← s.dropKey
  return { s.push .entry with keyAllowed := true }

/-- Passes over the space behind the mark of a key: spaces, line breaks and comments, and at least
one of the first two. -/
def passSpace : Nat → Bool → Scan → Option Scan
  | 0, _, _ => none
  | fuel + 1, hasSpace, s =>
    match s.cursor.peek 0 with
    | some ' ' => passSpace fuel true (s.skip 1)
    | some '\n' => passSpace fuel true s.skipBreak
    | some '\r' => passSpace fuel true s.skipBreak
    | some '#' => passSpace fuel hasSpace { s with cursor := s.cursor.skipLine isBreak }
    | some '\t' => none
    | _ => if hasSpace then some s else none

/-- Starts a key that has its own mark. -/
def startKey : Option Scan := do
  if !s.inFlow && !s.keyAllowed then none
  let s := s.openBlock s.column s.tokens.length .blockMapping
  let s ← s.dropKey
  let s := { s.skip 1 with
    keyAllowed := !s.inFlow, inFlowMapping := s.inFlowMapping || s.inFlow }
  return (← passSpace (s.cursor.rest.length + 1) false s).push .key

/-- Whether a character may stand in a name. -/
def isNameChar (c : Char) : Bool := c.isAlphanum || c = '_' || c = '-'

/-- Steps over a value mark. A tab alone must not set it off from what could be a name or an
item. -/
def skipValueMark : Option Scan := do
  let s := s.skip 1
  if s.cursor.peek 0 ≠ some '\t' then return s
  let (blanks, c) ← Revised.passBlanks true s.cursor
  if ¬ blanks.contains ' ' ∧ (c.peek 0).any isNameChar then none
  return { s with cursor := c }

/-- Starts a value: what a possible key marked becomes its key. In a flow sequence, it makes a
mapping of its own unless there is one. -/
def startValue : Option Scan := do
  let isPair := s.inFlow && !s.inFlowMapping
  let line := s.cursor.line
  let column := s.column
  let s ← ({ s with inPair := isPair }).skipValueMark
  match s.keyMark with
  | some mark =>
    if isPair ∧ mark.line < line then none
    let s := s.insert mark.place .key
    let s := if isPair then s.insert mark.place .flowMapping else s
    let s := (s.openBlock mark.column mark.place .blockMapping).nest
    return { s.push .value with keyMark := none, keyAllowed := false }
  | none =>
    let s := if isPair then s.push .flowMapping else s
    if !s.inFlow && !s.keyAllowed then none
    let s := (s.openBlock column s.tokens.length .blockMapping).nest
    return { s.push .value with keyAllowed := !s.inFlow }

/-- Whether a character may stand in the name of an anchor. -/
def isAnchorChar (c : Char) : Bool :=
  !(isBlank c || isBreak c || isFlowMark c || c = '\uFEFF')

/-- Reads the name of an anchor, or of an alias. -/
def readName (token : String → Token) : Option Scan :=
  let s := s.markKey.skip 1
  let name := s.cursor.ahead isAnchorChar
  if name = [] then none
  else some { (s.skip name.length).push (token (String.ofList name)) with keyAllowed := false }

/-- Whether a character may stand in the name of a resource. -/
def isUriChar (c : Char) : Bool :=
  c.isAlphanum || "-#;/?:@&=+$,_.!~*'()[]%".contains c

/-- Whether a character may stand in a tag with a handle. -/
def isTagChar (c : Char) : Bool := isUriChar c && !isFlowMark c && c ≠ '!'

/-- The character of escaped octets: of one or two, since the code of more is out of range. The code
of two is the octets side by side. -/
def escapedChar? : List Char → Option (Char × List Char)
  | '%' :: a :: b :: rest => do
    let first ← hexNumber? [a, b]
    if first < 0x80 then return (Char.ofNat first, rest)
    if first < 0xC0 ∨ 0xDF < first then none
    match rest with
    | '%' :: a :: b :: rest =>
      let second ← hexNumber? [a, b]
      if second < 0x80 ∨ 0xBF < second then none
      let code := first * 256 + second
      if 0xD800 ≤ code then none
      return (Char.ofNat code, rest)
    | _ => none
  | _ => none

/-- Reads the characters of a tag: what they spell, and where they ended. -/
def readTagChars (p : Char → Bool) : Nat → Cursor → List Char → Option (List Char × Cursor)
  | 0, _, _ => none
  | fuel + 1, c, text =>
    match c.peek 0 with
    | some '%' => do
      let (x, rest) ← escapedChar? c.rest
      readTagChars p fuel (c.skip (c.rest.length - rest.length)) (text ++ [x])
    | some x =>
      if p x then readTagChars p fuel (c.skip 1) (text ++ [x]) else some (text, c)
    | none => some (text, c)

/-- The handle at the start of a tag: an exclamation mark, a name, and perhaps another mark. -/
def tagHandle (c : Cursor) : List Char :=
  let name := (c.skip 1).ahead isNameChar
  if c.peek (1 + name.length) = some '!' then '!' :: name ++ ['!'] else '!' :: name

/-- Reads a verbatim tag, behind its opening mark. -/
def readVerbatimTag (c : Cursor) : Option (Token × Cursor) := do
  let (text, c) ← readTagChars isUriChar (c.rest.length + 1) c []
  if c.peek 0 ≠ some '>' then none
  return (.tag "" (String.ofList text), c.skip 1)

/-- Reads a tag with a handle. A lone exclamation mark is a tag without a handle. -/
def readHandleTag (c : Cursor) : Option (Token × Cursor) := do
  let handle := tagHandle c
  let start := c.skip handle.length
  let (text, c) ← readTagChars isTagChar (start.rest.length + 1) start []
  if 2 ≤ handle.length ∧ handle.getLast? = some '!' then
    if c.offset = start.offset then none
    return (.tag (String.ofList handle) (String.ofList text), c)
  let text := handle.drop 1 ++ text
  return (if text = [] then .tag "" "!" else .tag "!" (String.ofList text), c)

def readTag : Option Scan := do
  let s := s.markKey
  let (token, c) ← if s.cursor.peek 1 = some '<' then readVerbatimTag (s.cursor.skip 2)
    else readHandleTag s.cursor
  if ¬ c.isBlankOrEnd isBreak 0 ∧ ¬ (s.inFlow ∧ (c.peek 0).any isFlowMark) then none
  return { s.push token with cursor := c, keyAllowed := false }

/-- Steps over digits of a version number, of which there is at least one. -/
def skipVersionPart (c : Cursor) : Option Cursor :=
  let digits := c.ahead Char.isDigit
  if digits = [] ∨ 9 < digits.length then none else some (c.skip digits.length)

/-- Reads the version of the language, behind the name of its directive. -/
def readVersion (c : Cursor) : Option (Token × Cursor) := do
  let c ← skipVersionPart (c.skipWhile isBlank)
  if c.peek 0 ≠ some '.' then none
  return (.version, ← skipVersionPart (c.skip 1))

/-- Reads the meaning of a tag handle, behind the name of its directive. -/
def readTagMeaning (c : Cursor) : Option (Token × Cursor) := do
  let c := c.skipWhile isBlank
  if c.peek 0 ≠ some '!' then none
  let handle := tagHandle c
  if handle ≠ ['!'] ∧ handle.getLast? ≠ some '!' then none
  let c := (c.skip handle.length).skipWhile isBlank
  let (lead, c) ← match c.peek 0 with
    | some '!' => readTagChars isUriChar (c.rest.length + 1) (c.skip 1) ['!']
    | some x => if isTagChar x then readTagChars isUriChar (c.rest.length + 1) c [] else none
    | none => none
  if ¬ c.isBlankOrEnd isBreak 0 then none
  return (.tagHandle (String.ofList handle) (String.ofList lead), c)

/-- Reads a directive. One of an unknown name means nothing, as the meaning of no handle. -/
def readDirective : Option Scan := do
  let s ← (s.closeBlocks (-1)).dropKey
  let c := s.cursor.skip 1
  let name := c.ahead isNameChar
  let c := c.skip name.length
  if name = [] ∨ ¬ c.isBlankOrEnd isBreak 0 then none
  let (token, c) ← if name = ['Y', 'A', 'M', 'L'] then readVersion c
    else if name = ['T', 'A', 'G'] then readTagMeaning c
    else some (.tagHandle "" "", c.skipLine isBreak)
  let c ← passToEnd c
  return { s.push token with cursor := c.skipBreak, keyAllowed := false }

/-- Reads the mark of a document; nothing may follow that of an end in its line. -/
def readDocumentMark (token : Token) : Option Scan := do
  let s ← (s.closeBlocks (-1)).dropKey
  let s := { (s.push token).skip 3 with keyAllowed := false }
  if token = .documentEnd then return { s with cursor := ← passToEnd s.cursor } else return s

def readBlockScalar (style : ScalarStyle) : Option Scan := do
  let s := { s.markKey with keyAllowed := true }.leaveNested
  let (text, c) ← readBlock (style = .literal) s.indent (s.cursor.skip 1)
  return { s.push (.scalar (String.ofList text) style) with cursor := c }

/-- Whether a quoted scalar may be followed by what stands at a cursor. Outside of flow collections,
a key must not have several lines. -/
def endsQuoted (inFlow isOneLine : Bool) (c : Cursor) : Bool :=
  (c.peek 0).all fun x =>
    isBreak x || (inFlow && (x = ',' || x = ']' || x = '\x7d')) ||
      (x = ':' && (inFlow || isOneLine))

/-- Reads a quoted scalar. A value may follow it at once. -/
def readQuotedScalar (isSingle : Bool) : Option Scan := do
  let s := { s.markKey with keyAllowed := false }
  let c := s.cursor.skip 1
  let (text, c) ← readQuoted isSingle s.indent (c.rest.length + 1) c []
  let (_, c) ← Revised.passBlanks true c
  if ¬ endsQuoted s.inFlow (c.line = s.cursor.line) c then none
  let s ← toNextToken (c.rest.length + 1) { s with cursor := c }
  return { s.push (.scalar (String.ofList text) .quoted) with adjacentPlace := s.cursor.offset }

/-- Reads a plain scalar. In a flow collection, it must stand behind the innermost column. -/
def readPlainScalar : Option Scan := do
  let s := s.markKey.leaveNested
  if s.inFlow ∧ s.column ≤ s.indent then none
  let (text, behindBreak, c) ←
    readPlain s.inFlow (s.indent + 1) (s.cursor.rest.length + 1) s.cursor [] .empty
  return { s.push (.scalar (String.ofList text) .plain) with
    cursor := c, keyAllowed := behindBreak }

/-- Whether the colon at the cursor is a value mark. -/
def isAtValue : Bool :=
  s.cursor.isBlankOrEnd isBreak 1 ||
    (s.inFlow && ((s.cursor.peek 1).any isFlowMark || s.cursor.offset = s.adjacentPlace))

/-- Reads the token at which the cursor stands; nothing is read at the end of the text. -/
def readToken (x : Char) : Option Scan :=
  let spaced := s.cursor.isBlankOrEnd isBreak 1
  let atMark := s.cursor.isAtDocumentMark isBreak
  if s.column = 0 ∧ x = '%' then s.readDirective
  else if atMark ∧ x = '-' then s.readDocumentMark .documentStart
  else if atMark then s.readDocumentMark .documentEnd
  else if s.column < s.indent then none
  else match x with
    | '[' => s.openFlow .flowSequence
    | '\x7b' => s.openFlow .flowMapping
    | ']' => s.closeFlow .flowSequenceEnd
    | '\x7d' => s.closeFlow .flowMappingEnd
    | ',' => s.separate
    | '*' => s.readName .alias
    | '&' => s.readName .anchor
    | '!' => s.readTag
    | '\'' => s.readQuotedScalar true
    | '"' => s.readQuotedScalar false
    | x =>
      if x = '-' ∧ spaced then s.startEntry
      else if x = '?' ∧ spaced then s.startKey
      else if x = ':' ∧ s.isAtValue then s.startValue
      else if x = '|' ∧ ¬ s.inFlow then s.readBlockScalar .literal
      else if x = '>' ∧ ¬ s.inFlow then s.readBlockScalar .folded
      else if "%@\x60".contains x then none
      else s.readPlainScalar

def run : Nat → Scan → Option (List Token)
  | 0, _ => none
  | fuel + 1, s => do
    let s ← toNextToken (s.cursor.rest.length + 1) s
    let s ← s.refreshKey
    let s := s.closeBlocks s.column
    match s.cursor.peek 0 with
    | none =>
      let s ← s.dropKeys
      return (s.closeBlocks (-1)).tokens.reverse
    | some x => run fuel (← s.readToken x)

theorem openFlow_deep (token : Token) (h : s.outerKeyMarks.length = maxFlowDepth) :
    s.openFlow token = none := by
  have hk : s.markKey.nest.outerKeyMarks = s.outerKeyMarks := by
    unfold nest markKey
    split <;> split <;> rfl
  simp [openFlow, hk, h]

end Scan

/-- The tokens of a text, which ends at its first null character. -/
def lex (text : String) : Option (List Token) :=
  let cs := text.toList.takeWhile (· ≠ '\x00')
  (Scan.ofChars cs).run (cs.length + 1)

end PolicyGate.Yaml.Revised
