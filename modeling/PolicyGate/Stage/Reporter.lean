import PolicyGate.Stage.Audit
import PolicyGate.Topic.Log

/-!
Reporting failures: a service publishes an audit event to the error topic. Main statement: a closed
error topic drops the event.
-/

namespace PolicyGate

/-- Who reports failures. -/
structure Reporter where
  service : String
  host : String
  clock : Timestamp

namespace Reporter

/-- The event about an error for a token, with the request if there is one. -/
def event (r : Reporter) (token : Token) (request : Option DataRequest) (error : StageError) :
    AuditEvent :=
  let event := AuditEvent.ofError token r.service r.host r.clock error
  match request with
  | some q => event.withRequest q
  | none => event

/-- Publishes an event about an error; a closed topic drops it. -/
def report (r : Reporter) (errors : Log AuditEvent) (token : Token)
    (request : Option DataRequest) (error : StageError) : Log AuditEvent :=
  match errors.publish ⟨token, .message (r.event token request error)⟩ with
  | .ok (_, errors) => errors
  | .error _ => errors

theorem report_of_isClosed (r : Reporter) {errors : Log AuditEvent} (h : errors.isClosed = true)
    (token : Token) (request : Option DataRequest) (error : StageError) :
    r.report errors token request error = errors := by
  simp [report, Log.publish, h]

theorem envelopes_report (r : Reporter) {errors : Log AuditEvent} (h : errors.isClosed = false)
    (token : Token) (request : Option DataRequest) (error : StageError) :
    (r.report errors token request error).envelopes =
      errors.envelopes ++ [⟨token, .message (r.event token request error)⟩] := by
  simp only [report, Log.publish, h, Bool.false_eq_true, if_false]
  exact Log.envelopes_append ..

end Reporter

end PolicyGate
