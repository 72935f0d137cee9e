/-!
Walking through YAML text: a cursor knows what is left to read and at which line and column it
stands. Which characters end a line differs between the editions of YAML, so that it is an argument.
Main statement: stepping over a character leaves less to read.
-/

namespace PolicyGate.Yaml

def isBlank (c : Char) : Bool := c = ' ' || c = '\t'

/-- The number of octets of characters. -/
def octets (cs : List Char) : Nat := cs.foldl (fun n c => n + c.utf8Size) 0

/-- Where the reading of a text stands. -/
structure Cursor where
  rest : List Char
  line : Nat
  column : Nat
  /-- the number of octets before it -/
  offset : Nat
  /-- whether there are only blanks before it in its line -/
  isFresh : Bool

namespace Cursor

/-- The start of a text. -/
def ofChars (cs : List Char) : Cursor := ⟨cs, 0, 0, 0, true⟩

/-- The character some places ahead. -/
def peek (c : Cursor) (ahead : Nat) : Option Char := c.rest[ahead]?

/-- Whether the character some places ahead ends a line, or the text does. -/
def isBreakOrEnd (isBreak : Char → Bool) (c : Cursor) (ahead : Nat) : Bool :=
  (c.peek ahead).all isBreak

/-- Whether the character some places ahead is a blank or ends a line, or the text ends. -/
def isBlankOrEnd (isBreak : Char → Bool) (c : Cursor) (ahead : Nat) : Bool :=
  (c.peek ahead).all fun x => isBlank x || isBreak x

/-- Steps over characters of one line. -/
def skip (c : Cursor) (count : Nat) : Cursor :=
  let passed := c.rest.take count
  ⟨c.rest.drop count, c.line, c.column + count, c.offset + octets passed,
    c.isFresh && passed.all isBlank⟩

/-- The characters ahead that satisfy a predicate. -/
def ahead (c : Cursor) (p : Char → Bool) : List Char := c.rest.takeWhile p

/-- Steps over the characters of one line that satisfy a predicate. -/
def skipWhile (c : Cursor) (p : Char → Bool) : Cursor := c.skip (c.ahead p).length

/-- Steps over the rest of a line. -/
def skipLine (isBreak : Char → Bool) (c : Cursor) : Cursor := c.skipWhile fun x => !isBreak x

/-- Steps over a line break. -/
def skipBreak (c : Cursor) : Cursor :=
  match c.rest with
  | '\r' :: '\n' :: rest => ⟨rest, c.line + 1, 0, c.offset + 2, true⟩
  | x :: rest => ⟨rest, c.line + 1, 0, c.offset + x.utf8Size, true⟩
  | [] => c

/-- What a line break contributes to a text: the separators of Unicode stay, all others become a new
line. -/
def breakText (c : Cursor) : List Char :=
  match c.rest with
  | '\u2028' :: _ => ['\u2028']
  | '\u2029' :: _ => ['\u2029']
  | _ :: _ => ['\n']
  | [] => []

/-- Whether the cursor stands before the mark of a document, three equal characters alone at the
start of a line. -/
def isAtDocumentMark (isBreak : Char → Bool) (c : Cursor) : Bool :=
  c.column = 0 && (c.rest.take 3 = ['-', '-', '-'] || c.rest.take 3 = ['.', '.', '.']) &&
    c.isBlankOrEnd isBreak 3

theorem length_skip (c : Cursor) (count : Nat) :
    (c.skip count).rest.length = c.rest.length - count := by
  simp [skip]

theorem length_skipBreak_lt {c : Cursor} (h : c.rest ≠ []) :
    c.skipBreak.rest.length < c.rest.length := by
  unfold skipBreak
  split
  · next h => simp only [h, List.length_cons]; omega
  · next h => simp only [h, List.length_cons]; omega
  · next h' => exact absurd h' h

end Cursor

end PolicyGate.Yaml
