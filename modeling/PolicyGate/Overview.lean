import PolicyGate.Config.Basic
import PolicyGate.Json.Lookup
import PolicyGate.Policy.Service
import PolicyGate.Stage.Audit
import PolicyGate.Topic.Log
import PolicyGate.Wire.Format

/-!
Overviews: values as JSON for whoever looks into a running system. Unlike the forms that are stored
or sent, an overview lists rules as pairs, so that their order can be seen, and leaves times out.
Main statement: rules with one overview are the same rules in the same order.
-/

namespace PolicyGate

def Json.ofList (texts : List String) : Json := .array (texts.map .string)

namespace RuleMap

def overview (m : RuleMap) : Json := .array (m.toList.map fun (id, name) => .ofList [id, name])

end RuleMap

namespace RuleSet

variable {kind : RuleKind}

def overview (s : RuleSet kind) : Json :=
  .object [("message", .string s.message), ("rules", s.rules.overview)]

/-- The set of rules that an overview shows; the message may be missing. -/
def ofOverview? (j : Json) : Option (RuleSet kind) :=
  (Json.Lookup.object? j).map fun j =>
    ⟨(Json.Lookup.str? j "message").getD unsetMessage, .ofList (Json.Lookup.pairs j "rules")⟩

end RuleSet

namespace CompiledRules

def overview {α : Type} (c : CompiledRules α) (inDetail : Bool) : Json :=
  .object [("message", .string c.message), ("ids", .ofList c.ids), ("len", .int c.ids.length),
    ("is_empty", .bool c.ids.isEmpty), ("debug", if inDetail then .string c.inspect else .null)]

end CompiledRules

namespace AuthorisedRequest

def overview (a : AuthorisedRequest) : Json :=
  .object [("token", a.token.toJson), ("resource_id", a.resource.toJson), ("user", a.user.toJson),
    ("context", a.context.toJson), ("record_rules", .ofOption RuleSet.overview a.recordRules)]

end AuthorisedRequest

namespace AuthorisedResource

def overview (a : AuthorisedResource) : Json :=
  .object [("user", a.user.toJson), ("context", a.context.toJson), ("resource", a.resource.toJson),
    ("record_rules", .ofOption RuleSet.overview a.recordRules)]

end AuthorisedResource

namespace AuditEvent

def overview (e : AuditEvent) : Json :=
  .object [("token", e.token.toJson), ("user_id", e.user.toJson),
    ("resource_id", e.resource.toJson), ("context", e.context.toJson),
    ("service_name", .string e.service), ("server_hostname", .string e.host),
    ("attributes", .ofTexts e.attributes), ("error", .string e.error)]

end AuditEvent

/-- The word for what a frame is. -/
def Frame.label {α : Type} : Frame α → String
  | .start => "start"
  | .message _ => "message"
  | .finish => "end"

namespace Entry

def overview {α : Type} (payload : α → Json) (e : Entry α) : Json :=
  .object [("offset", .int e.offset), ("token", e.envelope.token.toJson),
    ("frame", .string e.envelope.frame.label),
    ("marker", .ofOption Marker.toJson e.envelope.marker?),
    ("payload", .ofOption payload e.envelope.payload?)]

end Entry

namespace Log

def overview {α : Type} (payload : α → Json) (l : Log α) : Json :=
  .array (l.entries.map (Entry.overview payload))

end Log

namespace PolicyDocument

def overview (d : PolicyDocument) : Json :=
  .object [("len", .int d.policies.length), ("is_empty", .bool d.policies.isEmpty),
    ("policies", .array (d.policies.map fun e => .object [("resource_id", e.resource.toJson),
      ("resource_rules", .ofOption RuleSet.overview e.resourceRules),
      ("record_rules", .ofOption RuleSet.overview e.recordRules)]))]

end PolicyDocument

namespace AppConfig

def overview (c : AppConfig) : Json :=
  .object [("json", .string c.toJson.render), ("profile", .string c.store.profile.inspect),
    ("worker_timeout", .string c.workerTimeout.inspect),
    ("offset_ttl", .string c.store.offsetTtl.inspect),
    ("coordinator_timeout", .string c.workerTimeout.inspect),
    ("boundary", c.boundary.toJson), ("users", .array (c.users.map User.toJson))]

end AppConfig

theorem toList_eq_of_overview {a b : RuleMap} (h : a.overview = b.overview) :
    a.toList = b.toList := by
  simp only [RuleMap.overview, Json.array.injEq] at h
  refine (List.map_inj_right fun x y hxy => ?_).1 h
  simp only [Json.ofList, List.map_cons, List.map_nil, Json.array.injEq, List.cons.injEq,
    Json.string.injEq, and_true] at hxy
  exact Prod.ext hxy.1 hxy.2

end PolicyGate
