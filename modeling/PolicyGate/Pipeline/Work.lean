import PolicyGate.Stage.Authorise
import PolicyGate.Stage.Reporter
import PolicyGate.Store.Any

/-!
What the two consuming stages do with one entry, step by step: the policy stage decides about a
request, records what it grants and hands it on; the offset stage records the offset of a marker and
announces it. Each step is one that other tasks can come between. Main statements: a marker is
handed on as it is, and what is handed on for a request has been recorded before.
-/

namespace PolicyGate

/-- What the policy stage still has to do for an envelope. -/
inductive AccessWork where
  | deciding (token : Token) (request : DataRequest)
  /-- a request is granted; the rules for its records are still to be looked up -/
  | granted (grant : Grant)
  | recording (grant : Grant) (rules : Option RecordRules)
  | publishing (envelope : Envelope AuthorisedResource)
  | reporting (token : Token) (request : DataRequest) (error : StageError)
  | done
  /-- the output topic is closed -/
  | refused (error : TopicClosed)
  | crashed

namespace AccessWork

/-- What there is to do for an envelope. -/
def ofEnvelope (e : Envelope DataRequest) : AccessWork :=
  match e.frame with
  | .start => .publishing ⟨e.token, .start⟩
  | .finish => .publishing ⟨e.token, .finish⟩
  | .message request => .deciding e.token request

/-- What follows from the decision about a request. -/
def ofDecision (token : Token) (request : DataRequest) :
    Except StageError (Option Grant) → AccessWork
  | .ok (some grant) => .granted grant
  | .ok none => .done
  | .error e => .reporting token request e

/-- What follows from the attempt to record an authorisation. -/
def ofRecording (grant : Grant) (rules : Option RecordRules) :
    Except Store.WriteFault Store → AccessWork
  | .ok _ => .publishing ⟨grant.token, .message (grant.released rules)⟩
  | .error (.failed e) => .reporting grant.token grant.request (.store e)
  | .error .clockOverflow => .crashed

/-- Whether nothing is left to do. -/
def isOver : AccessWork → Bool
  | done => true
  | refused _ => true
  | crashed => true
  | _ => false

theorem ofEnvelope_of_marker? {e : Envelope DataRequest} {m : Marker} (h : e.marker? = some m) :
    ∃ envelope, ofEnvelope e = .publishing envelope ∧ envelope.token = e.token ∧
      envelope.marker? = some m := by
  obtain ⟨token, frame⟩ := e
  cases frame with
  | start => exact ⟨_, rfl, rfl, h⟩
  | message _ => simp [Envelope.marker?] at h
  | finish => exact ⟨_, rfl, rfl, h⟩

end AccessWork

/-- What the offset stage still has to do for an entry of the output topic. -/
inductive IndexWork where
  | recording (offset : TokenOffset)
  /-- the offset is recorded, but whoever waits for it does not know -/
  | announcing (offset : TokenOffset)
  | done (result : Except StageError (Option TokenOffset))
  | crashed

namespace IndexWork

/-- What there is to do for an envelope at an offset: only a marker of the chosen kind is
recorded. -/
def ofEnvelope {α : Type} (boundary : Marker) (offset : Int) (e : Envelope α) : IndexWork :=
  if e.marker? = some boundary then .recording ⟨e.token, offset⟩ else .done (.ok none)

/-- What follows from the attempt to record an offset. -/
def ofRecording (offset : TokenOffset) : Except Store.WriteFault Store → IndexWork
  | .ok _ => .announcing offset
  | .error (.failed e) => .done (.error (.store e))
  | .error .clockOverflow => .crashed

theorem ofEnvelope_message {α : Type} (boundary : Marker) (offset : Int) (token : Token)
    (payload : α) : ofEnvelope boundary offset ⟨token, .message payload⟩ = .done (.ok none) := by
  simp [ofEnvelope, Envelope.marker?]

end IndexWork

end PolicyGate
