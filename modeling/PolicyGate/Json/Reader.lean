import PolicyGate.Json.Read
import PolicyGate.Json.Text
import PolicyGate.Wire.Reader

/-!
Reading structures from JSON, both from the form of a text and from a value. A structure may be an
object or an array of its parts in order; an unknown member is passed over without being read. Main
statement: the two readers answer alike about texts of plain characters.
-/

namespace PolicyGate.Json

/-- The member of an object that names a choice: the only one, with the value null. -/
def choiceName? {D : Type} (isNull : D → Bool) : List (String × D) → Option String
  | [(name, value)] => if isNull value then some name else none
  | _ => none

namespace Form

def isNull : Form → Bool
  | .null => true
  | _ => false

/-- The members of an object with their keys read. -/
def members? : Form → Option (List (String × Form))
  | .object members => members.mapM fun (key, value) => (stringText? key).map (·, value)
  | _ => none

def text? : Form → Option String
  | .string parts => stringText? parts
  | _ => none

/-- The reader for JSON text. -/
def reader : Wire.Reader Option Form where
  text := text?
  int
    | .number text => match text.value? with
      | some (.integer n) => if n ≤ 9223372036854775807 then some n else none
      | _ => none
    | _ => none
  present form := some (if form.isNull then none else some form)
  list
    | .array items => some items
    | _ => none
  entries := members?
  fields names
    | .array items => Wire.fieldsOfItems names items
    | form => form.members?.bind (Wire.fieldsOfEntries names)
  choice names form :=
    let name := match form with
      | .string parts => stringText? parts
      | form => form.members?.bind (choiceName? isNull)
    name.filter names.contains

end Form

def reader : Wire.Reader Option Json where
  text
    | .string s => some s
    | _ => none
  int
    | .number (.integer n) => if n ≤ 9223372036854775807 then some n else none
    | _ => none
  present
    | .null => some none
    | j => some (some j)
  list
    | .array items => some items
    | _ => none
  entries := members?
  fields names
    | .array items => Wire.fieldsOfItems names items
    | j => j.members?.bind (Wire.fieldsOfEntries names)
  choice names j :=
    let name := match j with
      | .string s => some s
      | j => j.members?.bind (choiceName? fun | .null => true | _ => false)
    name.filter names.contains

/-- Decodes a text with a decoder for the forms of JSON text. -/
def decode? {α : Type} (decoder : Form → Option α) (text : String) : Option α :=
  (Form.parse text).bind decoder

theorem text?_of_plain (cs : List Char) :
    Form.reader.text (.string (cs.map .char)) = reader.text (.string (String.ofList cs)) := by
  simp [Form.reader, Form.text?, stringText?, stringChars?_map_char, reader]

end PolicyGate.Json
