import PolicyGate.Resource.Id
import PolicyGate.Subject

/-!
Resources as the rules see them: an id with a type, a format and attributes. Main statement: a
resource that is made from an id alone keeps that id.
-/

namespace PolicyGate

variable {m : Type → Type} [Wire.Decoding m] {D : Type}

namespace ResourceId

def decode (r : Wire.Reader m D) (d : D) : m ResourceId := .mk <$> r.text d

def toJson (id : ResourceId) : Json := .string id.text

end ResourceId

/-- A file, table or stream that a client asks to read. -/
structure Resource where
  id : ResourceId
  type : String
  format : String
  attributes : SortedMap String
  deriving DecidableEq, Inhabited

namespace Resource

/-- A resource of which only the id is known. -/
def ofId (id : ResourceId) : Resource := ⟨id, "", "", ∅⟩

def decode (r : Wire.Reader m D) (d : D) : m Resource := do
  let fields ← r.fields ["id", "resource_type", "serialised_format", "attributes"] d
  return {
    id := ← fields.required 0 (ResourceId.decode r)
    type := ← fields.withDefault 1 r.text ""
    format := ← fields.withDefault 2 r.text ""
    attributes := ← fields.withDefault 3 (SortedMap.decodeTexts r) ∅ }

def toJson (x : Resource) : Json :=
  .object [("id", x.id.toJson), ("resource_type", .string x.type),
    ("serialised_format", .string x.format), ("attributes", .ofTexts x.attributes)]

@[simp] theorem id_ofId (id : ResourceId) : (ofId id).id = id := rfl

end Resource

end PolicyGate
