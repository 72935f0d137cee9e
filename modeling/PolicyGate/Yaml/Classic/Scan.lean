import PolicyGate.Yaml.Classic.Scalar

/-!
The tokens of a text in the classic edition of YAML. Indentation becomes tokens that open and close
block collections; a value mark turns what lies before it in its line into a key. Main statement: a
token that is added comes last.
-/

namespace PolicyGate.Yaml.Classic

/-- How far the cutting of a text into tokens has come. -/
structure Scan where
  cursor : Cursor
  /-- the tokens found so far, last first -/
  tokens : List Token
  /-- the column of the innermost block collection -/
  indent : Int
  /-- the columns of the block collections around it, innermost first -/
  outerIndents : List Int
  /-- the possible key of the innermost flow collection, or of the block around all of them -/
  keyMark : Option Token.KeyMark
  /-- the possible keys of what is around it, innermost first -/
  outerKeyMarks : List (Option Token.KeyMark)
  /-- whether a key may start here -/
  keyAllowed : Bool

namespace Scan

variable (s : Scan)

/-- The start of a text. -/
def ofChars (cs : List Char) : Scan := ⟨.ofChars cs, [], -1, [], none, [], true⟩

/-- Whether a flow collection is open. -/
def inFlow : Bool := !s.outerKeyMarks.isEmpty

/-- The column at which the cursor stands. -/
def column : Int := s.cursor.column

/-- Adds a token at the end. -/
def push (token : Token) : Scan := { s with tokens := token :: s.tokens }

/-- Puts a token behind the first tokens, of which there are the given number. -/
def insert (place : Nat) (token : Token) : Scan :=
  { s with tokens := Token.insertAt place token s.tokens }

/-- Steps over characters of one line. -/
def skip (count : Nat) : Scan := { s with cursor := s.cursor.skip count }

/-- Gives up the possible key, unless it has to be one. -/
def dropKey : Option Scan :=
  match s.keyMark with
  | some mark => if mark.isRequired then none else some { s with keyMark := none }
  | none => some s

/-- Remembers the cursor as the possible start of a key. -/
def markKey : Option Scan :=
  if s.keyAllowed then do
    let s ← s.dropKey
    let mark : Token.KeyMark := ⟨s.tokens.length, !s.inFlow && s.indent = s.column,
      s.cursor.line, s.cursor.column, s.cursor.offset⟩
    return { s with keyMark := some mark }
  else some s

/-- Gives up a possible key that lies too far back, counted in octets. -/
def refreshMark (mark : Option Token.KeyMark) : Option (Option Token.KeyMark) :=
  match mark with
  | some m =>
    if m.line < s.cursor.line ∨ m.offset + Token.keyLimit < s.cursor.offset then
      if m.isRequired then none else some none
    else some (some m)
  | none => some none

/-- Gives up the possible keys that lie too far back. -/
def refreshKeys : Option Scan := do
  let keyMark ← s.refreshMark s.keyMark
  let outerKeyMarks ← s.outerKeyMarks.mapM s.refreshMark
  return { s with keyMark := keyMark, outerKeyMarks := outerKeyMarks }

/-- Opens a block collection at a column to the right of the innermost one; its token goes behind
the given number of tokens. -/
def openBlock (column : Int) (place : Nat) (token : Token) : Scan :=
  if s.inFlow ∨ column ≤ s.indent then s
  else { s.insert place token with indent := column, outerIndents := s.indent :: s.outerIndents }

/-- Closes the block collections to the right of a column: their number comes from the columns
around the innermost one. -/
def closeBlocksOf (column : Int) : List Int → Scan → Scan
  | [], s => s
  | outer :: rest, s =>
    if column < s.indent then
      closeBlocksOf column rest { s.push .blockEnd with indent := outer, outerIndents := rest }
    else s

/-- Closes the block collections to the right of a column. -/
def closeBlocks (column : Int) : Scan :=
  if s.inFlow then s else closeBlocksOf column s.outerIndents s

/-- Passes over blanks, comments and line breaks up to the next token. A line may start with a byte
order mark. -/
def toNextToken : Nat → Scan → Scan
  | 0, s => s
  | fuel + 1, s =>
    let tabs := s.inFlow || !s.keyAllowed
    let c := s.cursor
    let c := if c.column = 0 ∧ c.peek 0 = some '\uFEFF' then c.skip 1 else c
    let c := c.skipWhile fun x => x = ' ' || (tabs && x = '\t')
    let c := if c.peek 0 = some '#' then c.skipLine isBreak else c
    if c.rest ≠ [] ∧ c.isBreakOrEnd isBreak 0 then
      toNextToken fuel { s with cursor := c.skipBreak, keyAllowed := s.keyAllowed || !s.inFlow }
    else { s with cursor := c }

/-- Puts a token for a single character. -/
def mark (token : Token) : Scan := (s.push token).skip 1

/-- Starts a flow collection. -/
def openFlow (token : Token) : Option Scan := do
  let s ← s.markKey
  return { s.mark token with
    keyMark := none, outerKeyMarks := s.keyMark :: s.outerKeyMarks, keyAllowed := true }

/-- Ends a flow collection. -/
def closeFlow (token : Token) : Option Scan := do
  let s ← s.dropKey
  let s := { s.mark token with keyAllowed := false }
  match s.outerKeyMarks with
  | mark :: rest => return { s with keyMark := mark, outerKeyMarks := rest }
  | [] => return s

/-- Separates the items of a flow collection. -/
def separate : Option Scan := do
  let s ← s.dropKey
  return { s.mark .flowEntry with keyAllowed := true }

/-- Starts an item of a block sequence. -/
def startEntry : Option Scan := do
  if !s.inFlow && !s.keyAllowed then none
  let s := s.openBlock s.column s.tokens.length .blockSequence
  let s ← s.dropKey
  return { s.mark .entry with keyAllowed := true }

/-- Starts a key that has its own mark. -/
def startKey : Option Scan := do
  if !s.inFlow && !s.keyAllowed then none
  let s := s.openBlock s.column s.tokens.length .blockMapping
  let s ← s.dropKey
  return { s.mark .key with keyAllowed := !s.inFlow }

/-- Starts a value: what a possible key marked becomes its key. -/
def startValue : Option Scan :=
  match s.keyMark with
  | some mark =>
    let s := s.insert mark.place .key
    let s := s.openBlock mark.column mark.place .blockMapping
    some { s.mark .value with keyMark := none, keyAllowed := false }
  | none =>
    if !s.inFlow && !s.keyAllowed then none
    else
      let s := s.openBlock s.column s.tokens.length .blockMapping
      some { s.mark .value with keyAllowed := !s.inFlow }

/-- Whether a character may stand in a name. -/
def isNameChar (c : Char) : Bool := c.isAlphanum || c = '_' || c = '-'

/-- Reads the name of an anchor, or of an alias. -/
def readName (token : String → Token) : Option Scan := do
  let s ← s.markKey
  let s := s.skip 1
  let name := s.cursor.ahead isNameChar
  let s := s.skip name.length
  let ends := (s.cursor.peek 0).all fun x =>
    isBlank x || isBreak x || "?:,]\x7d%@`".contains x
  if name = [] ∨ ¬ ends then none
  return { s.push (token (String.ofList name)) with keyAllowed := false }

/-- Whether a character may stand in a tag; a verbatim tag may also hold marks of flow
collections. -/
def isTagChar (isVerbatim : Bool) (c : Char) : Bool :=
  isNameChar c || ";/?:@&=+$.%!~*'()".contains c || (isVerbatim && ",[]".contains c)

/-- The octets of the characters of a tag, in which a percent sign and two digits spell one. -/
def tagOctets : List Char → Option (List UInt8)
  | [] => some []
  | '%' :: a :: b :: rest => do
    let code ← hexNumber? [a, b]
    let octets ← tagOctets rest
    return UInt8.ofNat code :: octets
  | c :: rest =>
    if c = '%' then none else (tagOctets rest).map (UInt8.ofNat c.toNat :: ·)

def tagText? (cs : List Char) : Option String := do
  String.fromUTF8? ⟨(← tagOctets cs).toArray⟩

/-- The handle at the start of a tag: an exclamation mark, a name, and perhaps another mark. -/
def tagHandle (c : Cursor) : List Char :=
  let name := (c.skip 1).ahead isNameChar
  if c.peek (1 + name.length) = some '!' then '!' :: name ++ ['!'] else '!' :: name

/-- Reads a verbatim tag, behind its opening mark. -/
def readVerbatimTag (c : Cursor) : Option (Token × Cursor) := do
  let cs := c.ahead (isTagChar true)
  let c := c.skip cs.length
  if cs = [] ∨ c.peek 0 ≠ some '>' then none
  return (.tag "" (← tagText? cs), c.skip 1)

/-- Reads a tag with a handle. A lone exclamation mark is a tag without a handle. -/
def readHandleTag (c : Cursor) : Option (Token × Cursor) :=
  let handle := tagHandle c
  let c := c.skip handle.length
  let cs := c.ahead (isTagChar false)
  let c := c.skip cs.length
  if 2 ≤ handle.length ∧ handle.getLast? = some '!' then
    if cs = [] then none
    else (tagText? cs).map fun suffix => (.tag (String.ofList handle) suffix, c)
  else (tagText? (handle.drop 1 ++ cs)).map fun suffix =>
    (if suffix = "" then .tag "" "!" else .tag "!" suffix, c)

def readTag : Option Scan := do
  let s ← s.markKey
  let (token, c) ← if s.cursor.peek 1 = some '<' then readVerbatimTag (s.cursor.skip 2)
    else readHandleTag s.cursor
  if (¬ s.inFlow ∨ c.peek 0 ≠ some ',') ∧ ¬ c.isBlankOrEnd isBreak 0 then none
  return { s.push token with cursor := c, keyAllowed := false }

/-- Steps over digits of a version number, of which there is at least one. -/
def readVersionPart (c : Cursor) : Option (List Char × Cursor) :=
  let digits := c.ahead Char.isDigit
  if digits = [] ∨ 9 < digits.length then none else some (digits, c.skip digits.length)

/-- Reads the version of the language, behind the name of its directive. -/
def readVersion (c : Cursor) : Option (Token × Cursor) := do
  let (major, c) ← readVersionPart c
  if c.peek 0 ≠ some '.' then none
  let (minor, c) ← readVersionPart (c.skip 1)
  let minor := hexNumber? minor
  if hexNumber? major ≠ some 1 ∨ (minor ≠ some 1 ∧ minor ≠ some 2) then none
  return (.version, c)

/-- Reads the meaning of a tag handle, behind the name of its directive. -/
def readTagMeaning (c : Cursor) : Option (Token × Cursor) := do
  if c.peek 0 ≠ some '!' then none
  let handle := tagHandle c
  let c := c.skip handle.length
  if (handle ≠ ['!'] ∧ handle.getLast? ≠ some '!') ∨ ¬ (c.peek 0).any isBlank then none
  let c := c.skipWhile isBlank
  let cs := c.ahead (isTagChar true)
  let after := c.skip cs.length
  if cs = [] ∨ ¬ after.isBlankOrEnd isBreak 0 then none
  return (.tagHandle (String.ofList handle) (← tagText? cs), after)

def readDirective : Option Scan := do
  let s ← (s.closeBlocks (-1)).dropKey
  let c := s.cursor.skip 1
  let name := c.ahead isNameChar
  let c := c.skip name.length
  if ¬ c.isBlankOrEnd isBreak 0 then none
  let c := c.skipWhile isBlank
  let (token, c) ← if name = ['Y', 'A', 'M', 'L'] then readVersion c
    else if name = ['T', 'A', 'G'] then readTagMeaning c
    else none
  let c := c.skipWhile isBlank
  let c := if c.peek 0 = some '#' then c.skipLine isBreak else c
  if ¬ c.isBreakOrEnd isBreak 0 then none
  return { s.push token with cursor := c.skipBreak, keyAllowed := false }

def readDocumentMark (token : Token) : Option Scan := do
  let s ← (s.closeBlocks (-1)).dropKey
  return { (s.push token).skip 3 with keyAllowed := false }

def readBlockScalar (style : ScalarStyle) : Option Scan := do
  let s ← s.dropKey
  let (text, c) ← readBlock (style = .literal) s.indent (s.cursor.skip 1)
  return { s.push (.scalar (String.ofList text) style) with cursor := c, keyAllowed := true }

def readQuotedScalar (isSingle : Bool) : Option Scan := do
  let s ← s.markKey
  let c := s.cursor.skip 1
  let (text, c) ← readQuoted isSingle (c.rest.length + 1) c []
  return { s.push (.scalar (String.ofList text) .quoted) with cursor := c, keyAllowed := false }

def readPlainScalar : Option Scan := do
  let s ← s.markKey
  let (text, behindBreak, c) ←
    readPlain s.inFlow (s.indent + 1) (s.cursor.rest.length + 1) s.cursor [] .empty
  return { s.push (.scalar (String.ofList text) .plain) with
    cursor := c, keyAllowed := behindBreak }

/-- Whether a plain scalar may start with a character. -/
def startsPlain (x : Char) : Bool :=
  let next := s.cursor.peek 1
  if x = '-' then !next.any isBlank
  else if x = '?' ∨ x = ':' then !s.inFlow && !s.cursor.isBlankOrEnd isBreak 1
  else !(isBlank x || isBreak x || ",[]\x7b\x7d#&*!|>'\"%@`".contains x)

/-- Reads the token at which the cursor stands; nothing is read at the end of the text. -/
def readToken (x : Char) : Option Scan :=
  let spaced := s.cursor.isBlankOrEnd isBreak 1
  let atMark := s.cursor.isAtDocumentMark isBreak
  if s.column = 0 ∧ x = '%' then s.readDirective
  else if atMark ∧ x = '-' then s.readDocumentMark .documentStart
  else if atMark then s.readDocumentMark .documentEnd
  else match x with
    | '[' => s.openFlow .flowSequence
    | '\x7b' => s.openFlow .flowMapping
    | ']' => s.closeFlow .flowSequenceEnd
    | '\x7d' => s.closeFlow .flowMappingEnd
    | ',' => s.separate
    | '*' => s.readName .alias
    | '&' => s.readName .anchor
    | '!' => s.readTag
    | '\'' => s.readQuotedScalar true
    | '"' => s.readQuotedScalar false
    | x =>
      if x = '-' ∧ spaced then s.startEntry
      else if x = '?' ∧ (s.inFlow ∨ spaced) then s.startKey
      else if x = ':' ∧ (s.inFlow ∨ spaced) then s.startValue
      else if x = '|' ∧ ¬ s.inFlow then s.readBlockScalar .literal
      else if x = '>' ∧ ¬ s.inFlow then s.readBlockScalar .folded
      else if s.startsPlain x then s.readPlainScalar
      else none

def run : Nat → Scan → Option (List Token)
  | 0, _ => none
  | fuel + 1, s => do
    let s := toNextToken (s.cursor.rest.length + 1) s
    let s ← s.refreshKeys
    let s := s.closeBlocks s.column
    match s.cursor.peek 0 with
    | none =>
      let s ← (s.closeBlocks (-1)).dropKey
      return s.tokens.reverse
    | some x => run fuel (← s.readToken x)

theorem tokens_push (token : Token) : (s.push token).tokens = token :: s.tokens := rfl

end Scan

def lex (text : String) : Option (List Token) :=
  let cs := text.toList
  if cs.all isAllowed then (Scan.ofChars cs).run (cs.length + 1) else none

end PolicyGate.Yaml.Classic
