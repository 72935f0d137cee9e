import PolicyGate.Offset.Coordinator
import PolicyGate.Stage.Request
import PolicyGate.Topic.Log

/-!
Reading back what a token was granted: ask for its offset, then collect its messages from the output
topic up to its end marker. A start marker begins anew. Main statement: an entry of another token
changes nothing.
-/

namespace PolicyGate

/-- How far a reading has come. -/
inductive ReadingPhase where
  | fresh
  /-- a request for the offset is under way -/
  | asking (request : Nat)
  | collecting (reader : Reader) (found : List AuthorisedResource)
  | finished (result : Except StageError (List AuthorisedResource))

/-- The reading of what a token was granted. -/
structure Reading where
  token : Token
  phase : ReadingPhase

/-- What has been collected after an entry, or the whole when the entry is the end marker. -/
inductive Collected where
  | more (found : List AuthorisedResource)
  | complete (found : List AuthorisedResource)

namespace Reading

/-- A reading that has not begun. -/
def new (token : Token) : Reading := ⟨token, .fresh⟩

/-- Where to read from: an end marker only shows that all is there, so that its messages are looked
for from the start of the topic. -/
def startOffset (boundary : Marker) (offset : TokenOffset) : Int :=
  match boundary with
  | .start => offset.offset
  | .finish => 0

/-- Takes an entry into account. -/
def collect (token : Token) (found : List AuthorisedResource)
    (envelope : Envelope AuthorisedResource) : Collected :=
  if envelope.token = token then
    match envelope.frame with
    | .start => .more []
    | .message resource => .more (found ++ [resource])
    | .finish => .complete found
  else .more found

/-- Asks for the offset. -/
def ask (r : Reading) (c : Coordinator) : Option (Reading × Coordinator) :=
  match r.phase with
  | .fresh => some ({ r with phase := .asking c.requests.length }, c.request r.token)
  | _ => none

/-- Takes the answer about the offset. -/
def hear (r : Reading) (boundary : Marker) (c : Coordinator) (output : Log AuthorisedResource) :
    Option Reading :=
  match r.phase with
  | .asking request =>
    (c.answerTo? request).map fun
      | .ok offset =>
        { r with phase := .collecting (.new output (startOffset boundary offset)) [] }
      | .error e => { r with phase := .finished (.error (.offset e)) }
  | _ => none

/-- Reads one entry of the output topic, or its end. -/
def readNext (r : Reading) (output : Log AuthorisedResource) : Option Reading :=
  match r.phase with
  | .collecting reader found =>
    match reader.next output with
    | (.entry entry, reader) =>
      some { r with phase := match collect r.token found entry.envelope with
        | .more found => .collecting reader found
        | .complete found => .finished (.ok found) }
    | (.ended, _) => some { r with phase := .finished (.error (.closed output.closedError)) }
    | (.pending, _) => none
  | _ => none

/-- The result of a reading that is over. -/
def result? (r : Reading) : Option (Except StageError (List AuthorisedResource)) :=
  match r.phase with
  | .finished result => some result
  | _ => none

theorem collect_of_ne {token : Token} {envelope : Envelope AuthorisedResource}
    (h : envelope.token ≠ token) (found : List AuthorisedResource) :
    collect token found envelope = .more found := by
  simp [collect, h]

end Reading

end PolicyGate
