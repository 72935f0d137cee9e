import PolicyGate.Resource.Basic
import PolicyGate.Rule.Wire

/-!
Policy documents: lists of entries that each declare rules for a node of the hierarchy. Main
statement: the entries of appended documents follow one another.
-/

namespace PolicyGate

variable {m : Type → Type} [Wire.Decoding m] {D : Type}

/-- The rules declared for one node of the hierarchy. -/
structure PolicyEntry where
  resource : ResourceId
  resourceRules : Option ResourceRules
  recordRules : Option RecordRules
  deriving DecidableEq

/-- A list of policy entries. -/
structure PolicyDocument where
  policies : List PolicyEntry
  deriving DecidableEq

namespace PolicyEntry

def decode (r : Wire.Reader m D) (d : D) : m PolicyEntry := do
  let fields ← r.fields ["resource_id", "resource_rules", "record_rules"] d
  return {
    resource := ← fields.required 0 (ResourceId.decode r)
    resourceRules := ← fields.withDefault 1 (r.optional (RuleSet.decode r)) none
    recordRules := ← fields.withDefault 2 (r.optional (RuleSet.decode r)) none }

def toJson (e : PolicyEntry) : Json :=
  .object [("resource_id", e.resource.toJson),
    ("resource_rules", .ofOption RuleSet.toJson e.resourceRules),
    ("record_rules", .ofOption RuleSet.toJson e.recordRules)]

end PolicyEntry

namespace PolicyDocument

def empty : PolicyDocument := ⟨[]⟩

/-- Adds the entries of another document at the end. -/
def append (a b : PolicyDocument) : PolicyDocument := ⟨a.policies ++ b.policies⟩

def decode (r : Wire.Reader m D) (d : D) : m PolicyDocument := do
  let fields ← r.fields ["policies"] d
  return ⟨← fields.withDefault 0 (r.items (PolicyEntry.decode r)) []⟩

def toJson (d : PolicyDocument) : Json :=
  .object [("policies", .array (d.policies.map PolicyEntry.toJson))]

@[simp] theorem policies_append (a b : PolicyDocument) :
    (a.append b).policies = a.policies ++ b.policies := rfl

end PolicyDocument

end PolicyGate
