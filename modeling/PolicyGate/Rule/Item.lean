import PolicyGate.Json.Reader
import PolicyGate.Rule.Builtin
import PolicyGate.Rule.Registry

/-!
The two kinds of items that rules govern, resources and records, seen alike: each has named places
that hold texts. A rule can be known by a short name and an argument. Main statement: a place that
was set is there.
-/

namespace PolicyGate

/-- What there is to know about the items of one kind. -/
structure ItemKind (α : Type) where
  builtins : Registry α
  decode : Json → Option α
  toJson : α → Json
  /-- sets the place with a name to a text -/
  setText : String → String → α → α
  /-- whether there is a place with a name -/
  has : String → α → Bool
  /-- the rules that only this kind has, by name and argument -/
  special : String → String → Option (Rule α)

/-- Resources with their attributes. -/
def ItemKind.resource : ItemKind Resource where
  builtins := .builtins
  decode := Resource.decode Json.reader
  toJson := Resource.toJson
  setText key value x := { x with attributes := x.attributes.insert key value }
  has key x := x.attributes.contains key
  special _ _ := none

/-- Records with their fields. -/
def ItemKind.record : ItemKind Record where
  builtins := .recordBuiltins
  decode j := (Record.ofJson j).toOption
  toJson := Record.toJson
  setText key value x := x.set key (.string value)
  has key x := x.contains key
  special name argument := match name with
    | "mask" => some (.maskField argument)
    | "redact" => some (.redactField argument)
    | _ => none

namespace ItemKind

variable {α : Type}

/-- The rule with a short name; what has no name of its own lets everything pass. -/
def rule (kind : ItemKind α) (name argument : String) : Rule α :=
  match name with
  | "deny" => .denyAll
  | "role" => .requireRole argument
  | "purpose" => .requirePurpose argument
  | "fail" => .failing argument
  | name => (kind.special name argument).getD .passThrough

/-- A rule made of the arms that are given: a rule by name, a place to set, a place to have. -/
def wrap (kind : ItemKind α) (named setting : Option (String × String)) (required : Option String) :
    Except RuleError (WrappedRule α) :=
  WrappedRule.ofParts (named.map fun (name, argument) => kind.rule name argument)
    (setting.map fun (key, value) => kind.setText key value) (required.map kind.has)

end ItemKind

theorem has_setText_record (key value : String) (x : Record) :
    ItemKind.record.has key (ItemKind.record.setText key value x) = true := by
  simp [ItemKind.record, Record.contains, Record.set, SortedMap.contains, SortedMap.get?_insert]

end PolicyGate
