import PolicyGate.Json.Text
import PolicyGate.Yaml.Reader
import PolicyGate.Yaml.Writer

/-!
The YAML text of a JSON value, with one entry to a line and without a limit to the length of lines.
A text is written plain if it can be and would be read back as a text, else in single quotes if it
can be, else in double quotes; a text of several lines is written as a block. Main statement: an
empty text is written in quotes.
-/

namespace PolicyGate.Yaml

/-- How a text is written. -/
inductive TextStyle where
  | plain
  | single
  | double
  | block
  deriving DecidableEq, Repr

/-- Whether a character can be written as it is. -/
def isShown (c : Char) : Bool :=
  let n := c.toNat
  n = 0xA || (0x20 ≤ n && n ≤ 0x7E) || (0xA0 ≤ n && n ≤ 0xFFFD && n ≠ 0xFEFF) || 0x10000 ≤ n

def endsLine (c : Char) : Bool := Classic.isBreak c

/-- Whether a character separates words. -/
def separates (c : Char) : Bool := isBlank c || endsLine c || c.toNat = 0

/-- Whether a text ends or goes on with a separator. -/
def startsSeparated : List Char → Bool
  | [] => true
  | c :: _ => separates c

/-- Whether a character later in a text stands for something else than itself. -/
def hasInnerIndicator (before : Char) : List Char → Bool
  | [] => false
  | c :: rest =>
    (c = ':' && startsSeparated rest) || (c = '#' && separates before) || hasInnerIndicator c rest

/-- Whether a text holds anything that stands for something else than itself. -/
def hasIndicator (cs : List Char) : Bool :=
  ['-', '-', '-'].isPrefixOf cs || ['.', '.', '.'].isPrefixOf cs ||
    match cs with
    | [] => false
    | c :: rest =>
      "#,[]\x7b\x7d&*!|>'\"%@\x60".toList.contains c ||
        (['?', ':', '-'].contains c && startsSeparated rest) || hasInnerIndicator c rest

/-- Whether two neighbours in a text are of two kinds. -/
def hasNeighbours (first second : Char → Bool) (cs : List Char) : Bool :=
  (cs.zip (cs.drop 1)).any fun (a, b) => first a && second b

/-- Whether a text has several lines. -/
def isMultiline (cs : List Char) : Bool := cs.any endsLine

/-- Whether a text can only be written with escapes. -/
def needsEscapes (cs : List Char) : Bool :=
  !cs.all isShown || hasNeighbours (· = ' ') endsLine cs

/-- Whether a text may be written in single quotes. -/
def allowsSingle (cs : List Char) : Bool :=
  !needsEscapes cs && !hasNeighbours endsLine (· = ' ') cs

/-- Whether a text may be written plain. -/
def allowsPlain (cs : List Char) : Bool :=
  allowsSingle cs && !isMultiline cs && !hasIndicator cs &&
    cs.head? ≠ some ' ' && cs.getLast? ≠ some ' '

/-- Whether a text may be written as a block. -/
def allowsBlock (cs : List Char) : Bool := !needsEscapes cs && cs.getLast? ≠ some ' '

/-- Whether a plain text would be read as something else. -/
def isAmbiguous (text : String) : Bool :=
  match Node.plainValue? text with
  | some (.string _) => Node.hasLeadingZero (DecimalText.sign text.toList).2
  | _ => true

/-- The style of a text, which may be a key. -/
def chooseStyle (isKey : Bool) (text : String) : TextStyle :=
  let cs := text.toList
  let quoted : TextStyle :=
    if allowsSingle cs && !(isKey && isMultiline cs) then .single else .double
  if cs.contains '\n' then if allowsBlock cs && !isKey then .block else .double
  else if isAmbiguous text || !allowsPlain cs then quoted
  else .plain

/-- A hexadecimal number in capitals with a given number of digits. -/
def capitalHex : Nat → Nat → List Char
  | 0, _ => []
  | width + 1, n =>
    let digit := n % 16
    capitalHex width (n / 16) ++ [Char.ofNat (if digit < 10 then 48 + digit else 55 + digit)]

/-- A character in double quotes. -/
def escapeChar (c : Char) : List Char :=
  let n := c.toNat
  let named : List (Nat × Char) := [(0x0, '0'), (0x7, 'a'), (0x8, 'b'), (0x9, 't'), (0xA, 'n'),
    (0xB, 'v'), (0xC, 'f'), (0xD, 'r'), (0x1B, 'e'), (0x22, '"'), (0x5C, '\\'), (0x85, 'N'),
    (0xA0, '_'), (0x2028, 'L'), (0x2029, 'P')]
  if isShown c && !endsLine c && c ≠ '"' && c ≠ '\\' then [c]
  else match named.lookup n with
    | some letter => ['\\', letter]
    | none =>
      if n ≤ 0xFF then '\\' :: 'x' :: capitalHex 2 n
      else if n ≤ 0xFFFF then '\\' :: 'u' :: capitalHex 4 n
      else '\\' :: 'U' :: capitalHex 8 n

/-- What is said about the ends of a block. -/
def blockHints (cs : List Char) : List Char :=
  let start := match cs with
    | c :: _ => if c = ' ' || endsLine c then ['2'] else []
    | [] => []
  let finish := match cs.reverse with
    | [] => ['-']
    | c :: before =>
      if !endsLine c then ['-']
      else if before = [] || before.head?.any endsLine then ['+']
      else []
  start ++ finish

namespace Writer

/-- Writes the characters of a text; those that start a line go behind an indentation. -/
def lines (w : Writer) (indent : Nat) (atStart : Bool) : List Char → Writer
  | [] => if atStart then w.indentTo indent else w
  | c :: rest =>
    if endsLine c then { w.putBreak c with isIndented := true }.lines indent true rest
    else
      let w := if atStart then w.indentTo indent else w
      { w.put c with isIndented := false }.lines indent false rest

/-- Writes the characters of a block; those that start a line go behind an indentation, and what
follows the block starts a line if the block ends one. -/
def blockLines (w : Writer) (indent : Nat) (atStart : Bool) : List Char → Writer
  | [] => w
  | c :: rest =>
    if endsLine c then { w.putBreak c with isIndented := true }.blockLines indent true rest
    else
      let w := if atStart then w.indentTo indent else w
      { w.put c with isIndented := false }.blockLines indent false rest

def block (w : Writer) (indent : Nat) (cs : List Char) : Writer :=
  let w := w.setOff.mark ('|' :: blockHints cs) false false
  { w.putBreak '\n' with isSetOff := true, isIndented := true }.blockLines indent true cs

/-- Writes a text in single quotes. Blanks stay in the line in which they stand. -/
def singleQuoted (w : Writer) (indent : Nat) (cs : List Char) : Writer :=
  let doubled := cs.flatMap fun c => if c = '\'' then [c, c] else [c]
  ((w.setOff.mark ['\''] false false).lines indent false doubled).mark ['\''] false false

/-- Writes a text, which may be a key before its value. -/
def string (w : Writer) (indent : Nat) (isKey : Bool) (text : String) : Writer :=
  let cs := text.toList
  match chooseStyle isKey text with
  | .plain => w.word cs
  | .single => w.singleQuoted indent cs
  | .double => w.word ('"' :: cs.flatMap escapeChar ++ ['"'])
  | .block => w.block indent cs

end Writer

def numberChars : JsonNumber → List Char
  | .integer n => Json.renderInt n
  | .float x => x.layOut .outline

/-- Whether a key can stand before its value in one line. -/
def isSimpleKey (key : String) : Bool := !isMultiline key.toList && key.utf8ByteSize ≤ 128

/-- The indentation of what stands inside a collection with the given one. -/
def inner : Option Nat → Nat
  | none => 0
  | some indent => indent + 2

namespace Writer

mutual

/-- Writes a value inside a collection with the given indentation, if it is in one. The items behind
a key keep the indentation of the key, unless the key has a line of its own. -/
def value (w : Writer) (outer : Option Nat) (isMember : Bool) : Json → Writer
  | .null => w.word ['n', 'u', 'l', 'l']
  | .bool b => w.word (if b then ['t', 'r', 'u', 'e'] else ['f', 'a', 'l', 's', 'e'])
  | .number n => w.word (numberChars n)
  | .string text => w.string ((outer.map (· + 2)).getD 2) false text
  | .array [] => w.word ['[', ']']
  | .array (item :: rest) =>
    let indent := if isMember && !w.isIndented then outer.getD 0 else inner outer
    w.items indent (item :: rest)
  | .object [] => w.word ['\x7b', '\x7d']
  | .object (member :: rest) => w.members (inner outer) (member :: rest)

/-- Writes the items of a collection. -/
def items (w : Writer) (indent : Nat) : List Json → Writer
  | [] => w
  | item :: rest =>
    (((w.indentTo indent).setOff.mark ['-'] false true).value (some indent) false item).items
      indent rest

/-- Writes the members of a collection; a key that is not simple has lines of its own. -/
def members (w : Writer) (indent : Nat) : List (String × Json) → Writer
  | [] => w
  | (key, value) :: rest =>
    let w := w.indentTo indent
    let w :=
      if isSimpleKey key then (w.string (indent + 2) true key).mark [':'] false false
      else
        let w := (w.setOff.mark ['?'] false true).string (indent + 2) false key
        (w.indentTo indent).setOff.mark [':'] false true
    (w.value (some indent) true value).members indent rest

end

end Writer

/-- The text of a value, which ends its last line. -/
def render (j : Json) : String := ((Writer.empty.value none false j).indentTo 0).text

theorem chooseStyle_empty (isKey : Bool) : chooseStyle isKey "" = .single := by
  cases isKey <;> rfl

theorem render_empty : render (.string "") = "''\n" := by
  decide +kernel

end PolicyGate.Yaml
