import PolicyGate.Json.Reader
import PolicyGate.Number.Int64Text
import PolicyGate.Stage.Request

/-!
Records that a store can keep: token offsets and authorisations. Each kind has a keyspace of its own
and three forms: a JSON value, a JSON text and flat fields of text. Main statements: the keyspaces
of the two kinds differ, and a token offset is read back from its fields.
-/

namespace PolicyGate

/-- The fields of a record in flat form. -/
abbrev FlatFields := SortedMap String

/-- How the records of a kind are kept. -/
structure RecordType (α : Type) where
  /-- what keeps the keys of this kind apart from those of others -/
  keyspace : String
  toJson : α → Json
  ofJson : Json → Option α
  ofText : String → Option α
  toFields : α → FlatFields
  ofFields : FlatFields → Except StoreError α

namespace FlatFields

def field (fields : FlatFields) (name : String) : Except StoreError String :=
  match fields.get? name with
  | some value => .ok value
  | none => .error (.missingField name)

def jsonField {α : Type} (fields : FlatFields) (name : String)
    (decoder : Json.Form → Option α) : Except StoreError α := do
  match Json.decode? decoder (← fields.field name) with
  | some value => return value
  | none => .error (.unreadableField name)

end FlatFields

namespace TokenOffset

def toFields (o : TokenOffset) : FlatFields :=
  .ofList [("token", o.token.text), ("offset", String.ofList (Json.renderInt o.offset))]

def ofFields (fields : FlatFields) : Except StoreError TokenOffset := do
  let token ← fields.field "token"
  let raw ← fields.field "offset"
  match Int64Text.parse raw with
  | .ok offset => return ⟨⟨token⟩, offset⟩
  | .error refusal => .error (.codec ("offset `" ++ raw ++ "`: " ++ refusal.message))

/-- How token offsets are kept. -/
def recordType : RecordType TokenOffset where
  keyspace := "TokenOffsetEntity"
  toJson := toJson
  ofJson := decode Json.reader
  ofText := Json.decode? (decode Json.Form.reader)
  toFields := toFields
  ofFields := ofFields

end TokenOffset

namespace AuthorisedRequest

/-- The fields of an authorisation; its parts are JSON texts. -/
def toFields (a : AuthorisedRequest) : FlatFields :=
  .ofList [("token", a.token.text), ("resource_id", a.resource.text),
    ("user", a.user.toJson.render), ("context", a.context.toJson.render),
    ("record_rules", (Json.ofOption RuleSet.toJson a.recordRules).render)]

def ofFields (fields : FlatFields) : Except StoreError AuthorisedRequest := do
  let r := Json.Form.reader
  let token ← fields.field "token"
  let resource ← fields.field "resource_id"
  let user ← fields.jsonField "user" (User.decode r)
  let context ← fields.jsonField "context" (Context.decode r)
  let recordRules ← fields.jsonField "record_rules" (r.optional (RuleSet.decode r))
  return ⟨⟨token⟩, ⟨resource⟩, user, context, recordRules⟩

/-- How authorisations are kept. -/
def recordType : RecordType AuthorisedRequest where
  keyspace := "AuthorisedRequestEntity"
  toJson := toJson
  ofJson := decode Json.reader
  ofText := Json.decode? (decode Json.Form.reader)
  toFields := toFields
  ofFields := ofFields

end AuthorisedRequest

theorem keyspace_ne : TokenOffset.recordType.keyspace ≠ AuthorisedRequest.recordType.keyspace := by
  decide

end PolicyGate
