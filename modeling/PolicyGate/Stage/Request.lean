import PolicyGate.Offset.Basic
import PolicyGate.Resource.Basic
import PolicyGate.Rule.Error
import PolicyGate.Rule.Wire
import PolicyGate.Topic.Envelope

/-!
What travels between the stages: the request of a client, the resource that the policy stage
granted, the authorisation that it recorded, and the errors of stages. Main statement: the key of a
recorded authorisation is that of its token and resource.
-/

namespace PolicyGate

variable {m : Type → Type} [Wire.Decoding m] {D : Type}

/-- What a client asks for. -/
structure DataRequest where
  user : UserId
  resource : ResourceId
  context : Context
  deriving DecidableEq, Inhabited

/-- A resource to which access was granted, with the rules for its records. -/
structure AuthorisedResource where
  user : User
  context : Context
  resource : Resource
  recordRules : Option RecordRules
  deriving DecidableEq

/-- The recorded authorisation of a token for a resource. -/
structure AuthorisedRequest where
  token : Token
  resource : ResourceId
  user : User
  context : Context
  recordRules : Option RecordRules
  deriving DecidableEq

inductive StageError where
  | rule (error : RuleError)
  | store (error : StoreError)
  | offset (error : OffsetError)
  | closed (error : TopicClosed)
  | invalidRequest (reason : String)
  deriving DecidableEq, Repr

namespace StageError

/-- The message of an error; that of another subsystem is passed on as it is. -/
def message : StageError → String
  | rule error => error.message
  | store error => error.message
  | offset error => error.message
  | closed error => error.message
  | invalidRequest reason => "invalid request: " ++ reason

end StageError

namespace DataRequest

def decode (r : Wire.Reader m D) (d : D) : m DataRequest := do
  let fields ← r.fields ["user_id", "resource_id", "context"] d
  return {
    user := ← fields.required 0 (UserId.decode r)
    resource := ← fields.required 1 (ResourceId.decode r)
    context := ← fields.required 2 (Context.decode r) }

def toJson (q : DataRequest) : Json :=
  .object [("user_id", q.user.toJson), ("resource_id", q.resource.toJson),
    ("context", q.context.toJson)]

end DataRequest

namespace AuthorisedResource

/-- Decodes a granted resource. -/
def decode (r : Wire.Reader m D) (d : D) : m AuthorisedResource := do
  let fields ← r.fields ["user", "context", "resource", "record_rules"] d
  return {
    user := ← fields.required 0 (User.decode r)
    context := ← fields.required 1 (Context.decode r)
    resource := ← fields.required 2 (Resource.decode r)
    recordRules := ← fields.omissible 3 (r.optional (RuleSet.decode r)) }

/-- The granted resource as JSON. -/
def toJson (a : AuthorisedResource) : Json :=
  .object [("user", a.user.toJson), ("context", a.context.toJson),
    ("resource", a.resource.toJson), ("record_rules", .ofOption RuleSet.toJson a.recordRules)]

end AuthorisedResource

namespace AuthorisedRequest

/-- The key of the authorisation of a token for a resource. -/
def key (token : Token) (resource : ResourceId) : String := token.text ++ ":" ++ resource.text

/-- The key under which an authorisation is recorded. -/
def storageKey (a : AuthorisedRequest) : String := key a.token a.resource

def decode (r : Wire.Reader m D) (d : D) : m AuthorisedRequest := do
  let fields ← r.fields ["token", "resource_id", "user", "context", "record_rules"] d
  return {
    token := ← fields.required 0 (Token.decode r)
    resource := ← fields.required 1 (ResourceId.decode r)
    user := ← fields.required 2 (User.decode r)
    context := ← fields.required 3 (Context.decode r)
    recordRules := ← fields.omissible 4 (r.optional (RuleSet.decode r)) }

def toJson (a : AuthorisedRequest) : Json :=
  .object [("token", a.token.toJson), ("resource_id", a.resource.toJson), ("user", a.user.toJson),
    ("context", a.context.toJson), ("record_rules", .ofOption RuleSet.toJson a.recordRules)]

@[simp] theorem storageKey_eq (a : AuthorisedRequest) : a.storageKey = key a.token a.resource := rfl

end AuthorisedRequest

end PolicyGate
