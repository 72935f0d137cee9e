import PolicyGate.Stage.Reporter

/-!
The entry of requests: a request is checked and published between two markers under its token, one
envelope after the other, and a failure is reported. Main statement: a request without a user is
refused before anything is published.
-/

namespace PolicyGate

namespace DataRequest

/-- Checks a request: it must name a user and a resource. -/
def check (q : DataRequest) : Except StageError Unit :=
  if Text.trim q.user.text = "" then .error (.invalidRequest "user id is empty")
  else if Text.trim q.resource.text = "" then .error (.invalidRequest "resource id is empty")
  else .ok ()

/-- The envelopes of a request. -/
def envelopes (token : Token) (q : DataRequest) : List (Envelope DataRequest) :=
  [⟨token, .start⟩, ⟨token, .message q⟩, ⟨token, .finish⟩]

end DataRequest

/-- How far a registration has come. -/
inductive RegistrationPhase where
  | fresh
  /-- these envelopes are still to be published -/
  | publishing (rest : List (Envelope DataRequest))
  | registered
  /-- the error is still to be reported -/
  | failing (error : StageError)
  | rejected (error : StageError)

/-- The registration of a request under a token. -/
structure Registration where
  token : Token
  request : DataRequest
  phase : RegistrationPhase

namespace Registration

/-- A registration that has not begun. -/
def new (token : Token) (request : DataRequest) : Registration := ⟨token, request, .fresh⟩

/-- One step: the check, the publication of one envelope, or the report. -/
def step (r : Registration) (reporter : Reporter) (requests : Log DataRequest)
    (errors : Log AuditEvent) : Option (Registration × Log DataRequest × Log AuditEvent) :=
  match r.phase with
  | .fresh =>
    match r.request.check with
    | .ok () =>
      some ({ r with phase := .publishing (r.request.envelopes r.token) }, requests, errors)
    | .error e => some ({ r with phase := .failing e }, requests, errors)
  | .publishing [] => some ({ r with phase := .registered }, requests, errors)
  | .publishing (envelope :: rest) =>
    match requests.publish envelope with
    | .ok (_, requests) => some ({ r with phase := .publishing rest }, requests, errors)
    | .error e => some ({ r with phase := .failing (.closed e) }, requests, errors)
  | .failing e =>
    some ({ r with phase := .rejected e }, requests,
      reporter.report errors r.token (some r.request) e)
  | .registered => none
  | .rejected _ => none

/-- The steps that a registration takes at most. -/
def maxSteps : Nat := 6

/-- All steps of a registration without interruption. -/
def run (reporter : Reporter) : Nat → Registration → Log DataRequest → Log AuditEvent →
    Registration × Log DataRequest × Log AuditEvent
  | 0, r, requests, errors => (r, requests, errors)
  | fuel + 1, r, requests, errors =>
    match r.step reporter requests errors with
    | some (r, requests, errors) => run reporter fuel r requests errors
    | none => (r, requests, errors)

/-- The result of a registration that is over. -/
def result? (r : Registration) : Option (Except StageError Token) :=
  match r.phase with
  | .registered => some (.ok r.token)
  | .rejected e => some (.error e)
  | _ => none

theorem check_blank_user {q : DataRequest} (h : Text.trim q.user.text = "") :
    q.check = .error (.invalidRequest "user id is empty") := by
  simp [DataRequest.check, h]

end Registration

end PolicyGate
