import PolicyGate.Stage.Request
import PolicyGate.Text.Blank
import PolicyGate.Time.Timestamp

/-!
Audit events: the report about a failed request that a service publishes. Main statement: an event
for a request carries the user, resource and context of the request.
-/

namespace PolicyGate

variable {m : Type → Type} [Wire.Decoding m] {D : Type}

/-- The report about a failure for one token. -/
structure AuditEvent where
  token : Token
  user : UserId
  resource : ResourceId
  context : Context
  service : String
  timestamp : Timestamp
  host : String
  attributes : SortedMap String
  error : String
  deriving DecidableEq

namespace AuditEvent

/-- The name of the host; one that is unset or blank is called `localhost`. -/
def hostName (name : Option String) : String :=
  match name with
  | some name => if Text.trim name = "" then "localhost" else name
  | none => "localhost"

/-- An event about an error, with no request attached. -/
def ofError (token : Token) (service : String) (host : String) (now : Timestamp)
    (error : StageError) : AuditEvent :=
  ⟨token, ⟨""⟩, ⟨""⟩, .empty, service, now, host, ∅, error.message⟩

def withRequest (e : AuditEvent) (q : DataRequest) : AuditEvent :=
  { e with user := q.user, resource := q.resource, context := q.context }

def withAttribute (e : AuditEvent) (key value : String) : AuditEvent :=
  { e with attributes := e.attributes.insert key value }

def decode (r : Wire.Reader m D) (d : D) : m AuditEvent := do
  let fields ← r.fields ["token", "user_id", "resource_id", "context", "service_name", "timestamp",
    "server_hostname", "attributes", "error"] d
  return {
    token := ← fields.required 0 (Token.decode r)
    user := ← fields.required 1 (UserId.decode r)
    resource := ← fields.required 2 (ResourceId.decode r)
    context := ← fields.required 3 (Context.decode r)
    service := ← fields.required 4 r.text
    timestamp := ← fields.required 5 fun d => do Wire.given (Timestamp.parse (← r.text d))
    host := ← fields.required 6 r.text
    attributes := ← fields.required 7 (SortedMap.decodeTexts r)
    error := ← fields.required 8 r.text }

def toJson (e : AuditEvent) : Json :=
  .object [("token", e.token.toJson), ("user_id", e.user.toJson),
    ("resource_id", e.resource.toJson), ("context", e.context.toJson),
    ("service_name", .string e.service), ("timestamp", .string e.timestamp.render),
    ("server_hostname", .string e.host), ("attributes", .ofTexts e.attributes),
    ("error", .string e.error)]

@[simp] theorem user_withRequest (e : AuditEvent) (q : DataRequest) :
    (e.withRequest q).user = q.user := rfl

@[simp] theorem resource_withRequest (e : AuditEvent) (q : DataRequest) :
    (e.withRequest q).resource = q.resource := rfl

@[simp] theorem context_withRequest (e : AuditEvent) (q : DataRequest) :
    (e.withRequest q).context = q.context := rfl

end AuditEvent

end PolicyGate
