import PolicyGate.Rule.Map
import PolicyGate.Text.Quoted

/-!
Rule sets: a rule map with a message that describes it, either for resources or for records, and the
merge of an inherited set with a more specific one. Main statements: the rule map of a merge is the
inherited map extended by the new one, and a hierarchy of one level is that level.
-/

namespace PolicyGate

/-- What the rules of a set are applied to. -/
inductive RuleKind where
  | resource
  | record
  deriving DecidableEq, Repr

def RuleKind.label : RuleKind → String
  | .resource => "resource"
  | .record => "record"

/-- The rules declared for a node of the hierarchy, with a message. -/
structure RuleSet (kind : RuleKind) where
  message : String
  rules : RuleMap
  deriving DecidableEq

/-- Rules that decide about access to a resource. -/
abbrev ResourceRules := RuleSet .resource

/-- Rules that keep, change or drop the records of a resource. -/
abbrev RecordRules := RuleSet .record

namespace RuleSet

variable {kind : RuleKind}

/-- The message of a set that declares nothing. -/
def unsetMessage : String := "no rules set"

def empty : RuleSet kind := ⟨unsetMessage, .empty⟩

instance : Inhabited (RuleSet kind) := ⟨empty⟩

/-- Whether the message says something: it is neither empty nor that of an unset rule set. -/
def hasMessage (s : RuleSet kind) : Bool := s.message ≠ "" && s.message ≠ unsetMessage

def isEmpty (s : RuleSet kind) : Bool := s.rules.isEmpty

/-- The message of a merge: the messages that say something, joined by a comma. -/
def mergedMessage (inherited new : RuleSet kind) : String :=
  match inherited.hasMessage, new.hasMessage with
  | true, true => inherited.message ++ "," ++ new.message
  | true, false => inherited.message
  | false, true => new.message
  | false, false => ""

/-- Joins an inherited set with a more specific one; where both declare a rule id, the specific name
counts and the inherited place is kept. -/
def merge (inherited new : RuleSet kind) : RuleSet kind where
  message := mergedMessage inherited new
  rules := inherited.rules.extend new.rules

/-- Merges the sets on a path from the root down; without any set there is no result. -/
def mergeHierarchy : List (RuleSet kind) → Option (RuleSet kind)
  | [] => none
  | first :: rest => some (rest.foldl merge first)

/-- The set as it is shown for inspection. -/
def inspect (s : RuleSet kind) : String :=
  let entries := s.rules.toList.map fun (id, name) =>
    "(" ++ Text.quote id ++ ", " ++ Text.quote name ++ ")"
  "RuleSet \x7b kind: " ++ Text.quote kind.label ++ ", message: " ++ Text.quote s.message ++
    ", rules: RuleMap \x7b entries: [" ++ String.intercalate ", " entries ++ "] \x7d \x7d"

@[simp] theorem rules_merge (inherited new : RuleSet kind) :
    (merge inherited new).rules = inherited.rules.extend new.rules := rfl

@[simp] theorem mergeHierarchy_singleton (s : RuleSet kind) : mergeHierarchy [s] = some s := rfl

theorem mergeHierarchy_eq_none_iff {sets : List (RuleSet kind)} :
    mergeHierarchy sets = none ↔ sets = [] := by
  cases sets <;> simp [mergeHierarchy]

end RuleSet

end PolicyGate
