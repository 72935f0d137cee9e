import PolicyGate.Rule.Set
import PolicyGate.Subject

/-!
Rule maps and rule sets in documents. A rule map is an object whose members are the rules in order;
of a rule set both parts may be left out. Main statement: the rules are written in their order.
-/

namespace PolicyGate

variable {m : Type → Type} [Wire.Decoding m] {D : Type}

namespace RuleMap

def decode (r : Wire.Reader m D) (d : D) : m RuleMap :=
  .ofList <$> r.mapEntries r.text d

/-- The rule map as JSON, in its own order. -/
def toJson (m : RuleMap) : Json := .object (m.toList.map fun (id, name) => (id, .string name))

theorem members?_toJson (m : RuleMap) :
    m.toJson.members? = some (m.entries.map fun entry => (entry.1, .string entry.2)) := rfl

end RuleMap

namespace RuleSet

variable {kind : RuleKind}

def decode (r : Wire.Reader m D) (d : D) : m (RuleSet kind) := do
  let fields ← r.fields ["message", "rules"] d
  return {
    message := ← fields.withDefault 0 r.text unsetMessage
    rules := ← fields.withDefault 1 (RuleMap.decode r) .empty }

def toJson (s : RuleSet kind) : Json :=
  .object [("message", .string s.message), ("rules", s.rules.toJson)]

end RuleSet

end PolicyGate
