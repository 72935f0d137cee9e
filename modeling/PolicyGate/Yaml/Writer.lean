/-!
Writing in lines with indentation: a writer knows what it has written, at which column it stands and
whether more has to go into a line of its own. Main statement: nothing that was written is taken
back.
-/

namespace PolicyGate.Yaml

/-- What has been written, and where the writing stands. -/
structure Writer where
  /-- the characters, last first -/
  written : List Char
  column : Nat
  /-- whether what was written sets off what follows -/
  isSetOff : Bool
  /-- whether there is only indentation before it in its line -/
  isIndented : Bool

namespace Writer

def empty : Writer := ⟨[], 0, true, true⟩

def text (w : Writer) : String := String.ofList w.written.reverse

/-- Writes a character within a line. -/
def put (w : Writer) (c : Char) : Writer :=
  { w with written := c :: w.written, column := w.column + 1 }

/-- Writes characters within a line. -/
def puts (w : Writer) (cs : List Char) : Writer := cs.foldl put w

/-- Writes a character that ends a line. -/
def putBreak (w : Writer) (c : Char) : Writer := { w with written := c :: w.written, column := 0 }

/-- Writes blanks up to a column. -/
def padTo (w : Writer) (column : Nat) : Writer := w.puts (List.replicate (column - w.column) ' ')

/-- Goes to the indentation of a line: to a new line, unless this one holds nothing but indentation
that is not too deep. -/
def indentTo (w : Writer) (column : Nat) : Writer :=
  let isNewLine :=
    !w.isIndented || column < w.column || (w.column = column && !w.isSetOff)
  let w := if isNewLine then w.putBreak '\n' else w
  { w.padTo column with isSetOff := true, isIndented := true }

/-- Writes a blank unless what was written sets off what follows. -/
def setOff (w : Writer) : Writer := if w.isSetOff then w else w.put ' '

/-- Writes marks. Whether they set off what follows and whether they count as indentation are
arguments. -/
def mark (w : Writer) (marks : List Char) (setsOff indents : Bool) : Writer :=
  { w.puts marks with isSetOff := setsOff, isIndented := w.isIndented && indents }

/-- Writes a text that goes on in its line. -/
def word (w : Writer) (cs : List Char) : Writer :=
  { (if cs = [] then w else w.setOff).puts cs with isSetOff := false, isIndented := false }

theorem written_puts (w : Writer) (cs : List Char) :
    (w.puts cs).written = cs.reverse ++ w.written := by
  induction cs generalizing w with
  | nil => rfl
  | cons c rest ih =>
    have h : w.puts (c :: rest) = (w.put c).puts rest := rfl
    rw [h, ih]
    simp [put]

theorem written_indentTo (w : Writer) (column : Nat) :
    w.written <:+ (w.indentTo column).written := by
  unfold indentTo
  simp only [padTo, written_puts]
  split
  · exact (List.suffix_cons _ _).trans (List.suffix_append _ _)
  · exact List.suffix_append _ _

end Writer

end PolicyGate.Yaml
