import PolicyGate.Config.Basic
import PolicyGate.Policy.Document
import PolicyGate.Record
import PolicyGate.Stage.Audit
import PolicyGate.Wire.Format

/-!
All types of values that have a written form, under their names: a text is read as a value of a type
and can be written again. Main statement: whatever is read as a token is written as a text.
-/

namespace PolicyGate

/-- A value that has a written form. -/
inductive Document where
  | token (value : Token)
  | userId (value : UserId)
  | user (value : User)
  | context (value : Context)
  | tokenOffset (value : TokenOffset)
  | ruleMap (value : RuleMap)
  | resourceRules (value : ResourceRules)
  | recordRules (value : RecordRules)
  | resource (value : Resource)
  | record (value : Record)
  | marker (value : Marker)
  | policies (value : PolicyDocument)
  | request (value : DataRequest)
  | authorisedResource (value : AuthorisedResource)
  | authorisedRequest (value : AuthorisedRequest)
  | auditEvent (value : AuditEvent)
  | config (value : AppConfig)

namespace Document

/-- The record that is written in a text. -/
def record? (f : Format) (text : String) : Option Record :=
  match f with
  | .json => (Json.parse text).bind fun j => (Record.ofJson j).toOption
  | .yaml => (Yaml.decode? Yaml.Node.members? text).map fun members => ⟨.ofList members⟩

/-- The value of the type with a name that is written in a text. -/
def decode? (type : String) (f : Format) (text : String) : Option Document :=
  match type with
  | "token" => (f.decode? Token.decode text).map token
  | "user_id" => (f.decode? UserId.decode text).map userId
  | "user" => (f.decode? User.decode text).map user
  | "context" => (f.decode? Context.decode text).map context
  | "token_offset" => (f.decode? TokenOffset.decode text).map tokenOffset
  | "rule_map" => (f.decode? RuleMap.decode text).map ruleMap
  | "resource_rules" => (f.decode? RuleSet.decode text).map resourceRules
  | "record_rules" => (f.decode? RuleSet.decode text).map recordRules
  | "resource" => (f.decode? Resource.decode text).map resource
  | "record" => (record? f text).map record
  | "stream_marker" => (f.decode? Marker.decode text).map marker
  | "policy_document" => (f.decode? PolicyDocument.decode text).map policies
  | "data_request" => (f.decode? DataRequest.decode text).map request
  | "authorised_resource" => (f.decode? AuthorisedResource.decode text).map authorisedResource
  | "authorised_request" => (f.decode? AuthorisedRequest.decode text).map authorisedRequest
  | "audit_event" => (f.decode? AuditEvent.decode text).map auditEvent
  | "app_config" => (f.decode? AppConfig.decode text).map config
  | _ => none

def toJson : Document → Json
  | token value => value.toJson
  | userId value => value.toJson
  | user value => value.toJson
  | context value => value.toJson
  | tokenOffset value => value.toJson
  | ruleMap value => value.toJson
  | resourceRules value => value.toJson
  | recordRules value => value.toJson
  | resource value => value.toJson
  | record value => value.toJson
  | marker value => value.toJson
  | policies value => value.toJson
  | request value => value.toJson
  | authorisedResource value => value.toJson
  | authorisedRequest value => value.toJson
  | auditEvent value => value.toJson
  | config value => value.toJson

theorem toJson_of_decode?_token {f : Format} {text : String} {d : Document}
    (h : decode? "token" f text = some d) : ∃ written, d.toJson = .string written := by
  obtain ⟨value, _, rfl⟩ := Option.map_eq_some_iff.1 h
  exact ⟨_, rfl⟩

end Document

end PolicyGate
