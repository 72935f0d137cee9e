import PolicyGate.Json.Token

/-!
The form of a JSON text: its values, arrays and objects as they are written, with strings and
numbers not yet read. `ofTokens?` goes through the tokens once with a stack of the open arrays and
objects. Main statement: reading tokens up to some point and then going on is reading them all.
-/

namespace PolicyGate.Json

/-- A JSON text taken apart. -/
inductive Form where
  | null
  | bool (value : Bool)
  | number (text : NumberText)
  | string (parts : List StringPart)
  | array (items : List Form)
  | object (members : List (List StringPart × Form))
  deriving Inhabited

namespace Form

/-- An array or object that is still open, with what it holds so far, last first. -/
inductive Frame where
  | array (done : List Form)
  | object (done : List (List StringPart × Form)) (key : List StringPart)

/-- What may come next. -/
inductive State where
  /-- a value -/
  | value (open_ : List Frame)
  /-- the first item of an array, or its end -/
  | firstItem (open_ : List Frame)
  /-- the first key of an object, or its end -/
  | firstKey (open_ : List Frame)
  /-- a key behind a comma -/
  | key (done : List (List StringPart × Form)) (open_ : List Frame)
  /-- the colon behind a key -/
  | colon (done : List (List StringPart × Form)) (key : List StringPart) (open_ : List Frame)
  /-- a comma or the end of an array -/
  | afterItem (done : List Form) (open_ : List Frame)
  /-- a comma or the end of an object -/
  | afterMember (done : List (List StringPart × Form)) (open_ : List Frame)
  /-- nothing more -/
  | complete (value : Form)

/-- Hands a finished value to the innermost open array or object. -/
def close (value : Form) : List Frame → State
  | [] => .complete value
  | .array done :: rest => .afterItem (value :: done) rest
  | .object done key :: rest => .afterMember ((key, value) :: done) rest

/-- Starts a value with a token. -/
def start (frames : List Frame) : Token → Option State
  | .openObject => some (.firstKey frames)
  | .openArray => some (.firstItem frames)
  | .null => some (close .null frames)
  | .bool b => some (close (.bool b) frames)
  | .number text => some (close (.number text) frames)
  | .string parts => some (close (.string parts) frames)
  | _ => none

/-- One token further. -/
def step : State → Token → Option State
  | .value frames, token => start frames token
  | .firstItem frames, .closeArray => some (close (.array []) frames)
  | .firstItem frames, token => start (.array [] :: frames) token
  | .firstKey frames, .closeObject => some (close (.object []) frames)
  | .firstKey frames, .string key => some (.colon [] key frames)
  | .key done frames, .string key => some (.colon done key frames)
  | .colon done key frames, .colon => some (.value (.object done key :: frames))
  | .afterItem done frames, .comma => some (.value (.array done :: frames))
  | .afterItem done frames, .closeArray => some (close (.array done.reverse) frames)
  | .afterMember done frames, .comma => some (.key done frames)
  | .afterMember done frames, .closeObject => some (close (.object done.reverse) frames)
  | _, _ => none

/-- The form that a list of tokens spells. -/
def ofTokens? (tokens : List Token) : Option Form :=
  match tokens.foldlM step (.value []) with
  | some (.complete value) => some value
  | _ => none

def parse (text : String) : Option Form :=
  (lex text.toList).bind ofTokens?

theorem foldlM_step_append (s : State) (a b : List Token) :
    (a ++ b).foldlM step s = (a.foldlM step s).bind fun s => b.foldlM step s := by
  rw [List.foldlM_append]
  rfl

end Form

end PolicyGate.Json
