import PolicyGate.Policy.Service
import PolicyGate.Stage.Request
import PolicyGate.Stage.Users

/-!
The decision about a request: the rules of its resource, applied for its user and context, and the
authorisation that is recorded for a grant. Main statement: without a policy the request fails.
-/

namespace PolicyGate

/-- A request that was granted. -/
structure Grant where
  token : Token
  request : DataRequest
  user : User
  resource : Resource

/-- Decides about a request by the rules for access to its resource: a grant, a denial or
a failure. -/
def PolicyService.decide (policies : PolicyService) (users : UserDirectory) (token : Token)
    (q : DataRequest) : Except StageError (Option Grant) :=
  let user := users.resolve q.user
  match policies.compiledResourceRules q.resource with
  | .error e => .error (.rule e)
  | .ok rules =>
    match CompiledRules.apply (some rules) (Resource.ofId q.resource) user q.context with
    | .error e => .error (.rule e)
    | .ok none => .ok none
    | .ok (some resource) => .ok (some ⟨token, q, user, resource⟩)

namespace Grant

/-- The authorisation that is recorded for a grant, with the rules for the records of its
resource. -/
def authorisation (g : Grant) (rules : Option RecordRules) : AuthorisedRequest :=
  ⟨g.token, g.request.resource, g.user, g.request.context, rules⟩

/-- The resource that is handed on for a grant, with the same rules for its records. -/
def released (g : Grant) (rules : Option RecordRules) : AuthorisedResource :=
  ⟨g.user, g.request.context, g.resource, rules⟩

end Grant

theorem decide_of_error {policies : PolicyService} {q : DataRequest} {e : RuleError}
    (h : policies.compiledResourceRules q.resource = .error e) (users : UserDirectory)
    (token : Token) : policies.decide users token q = .error (.rule e) := by
  simp [PolicyService.decide, h]

end PolicyGate
