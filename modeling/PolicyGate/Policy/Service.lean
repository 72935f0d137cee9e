import PolicyGate.Policy.Document
import PolicyGate.Policy.Table
import PolicyGate.Rule.Apply

/-!
Policy services: a policy table together with the catalog that its rules are compiled with. Rules
are compiled before they enter the table, so that a mistake in them is found then and not by a
request. Main statements: a rejected declaration leaves the service as it was
(`setResourceRules_of_error`, `setRecordRules_of_error`), and the silent service has no policy for
any resource.
-/

namespace PolicyGate

/-- What answers about the rules of resources: a table with the catalog of its rules, or nothing at
all. -/
inductive PolicyService where
  | declared (catalog : Catalog) (table : PolicyTable)
  | silent

namespace PolicyService

def new (catalog : Catalog) : PolicyService := .declared catalog .empty

/-- The rules for access to a resource. -/
def resourceRules? (s : PolicyService) (id : ResourceId) : Option ResourceRules :=
  match s with
  | .declared _ table => table.resource.lookup id
  | .silent => none

/-- The rules for the records of a resource. -/
def recordRules? (s : PolicyService) (id : ResourceId) : Option RecordRules :=
  match s with
  | .declared _ table => table.record.lookup id
  | .silent => none

/-- Declares the rules for access to a node, once they compile: the outcome, and the service
after it. -/
def setResourceRules (s : PolicyService) (id : ResourceId) (rules : ResourceRules) :
    Except RuleError Unit × PolicyService :=
  match s with
  | .declared catalog table =>
    match catalog.resource.compile rules with
    | .ok _ =>
      (.ok (), .declared catalog { table with resource := table.resource.declare id rules })
    | .error e => (.error e, .declared catalog table)
  | .silent => (.ok (), .silent)

/-- Declares the rules for the records of a node, once they compile. -/
def setRecordRules (s : PolicyService) (id : ResourceId) (rules : RecordRules) :
    Except RuleError Unit × PolicyService :=
  match s with
  | .declared catalog table =>
    match catalog.record.compile rules with
    | .ok _ => (.ok (), .declared catalog { table with record := table.record.declare id rules })
    | .error e => (.error e, .declared catalog table)
  | .silent => (.ok (), .silent)

/-- The compiled rules for access to a resource. -/
def compiledResourceRules (s : PolicyService) (id : ResourceId) :
    Except RuleError (CompiledRules Resource) :=
  match s with
  | .declared catalog table =>
    match table.resource.lookup id with
    | some rules => catalog.resource.compile rules
    | none => .error (.noPolicy id.text)
  | .silent => .error (.noPolicy id.text)

/-- The compiled rules for the records of a resource. -/
def compiledRecordRules (s : PolicyService) (id : ResourceId) :
    Except RuleError (CompiledRules Record) :=
  match s with
  | .declared catalog table =>
    match table.record.lookup id with
    | some rules => catalog.record.compile rules
    | none => .error (.noPolicy id.text)
  | .silent => .error (.noPolicy id.text)

/-- Compiles the parts of a document entry and puts them into a table, the rules for
access first. -/
def addEntry (catalog : Catalog) (table : PolicyTable) (entry : PolicyEntry) :
    Except RuleError PolicyTable := do
  let table ← match entry.resourceRules with
    | none => pure table
    | some rules =>
      let _ ← catalog.resource.compile rules
      pure { table with resource := table.resource.declare entry.resource rules }
  match entry.recordRules with
  | none => pure table
  | some rules =>
    let _ ← catalog.record.compile rules
    pure { table with record := table.record.declare entry.resource rules }

/-- The service of a whole document; the first rule that does not compile refuses it. -/
def ofDocument (catalog : Catalog) (document : PolicyDocument) : Except RuleError PolicyService :=
  (document.policies.foldlM (addEntry catalog) .empty).map (.declared catalog)

variable {s : PolicyService} {id : ResourceId} {e : RuleError}

/-- Rules that are refused change nothing. -/
theorem setResourceRules_of_error {rules : ResourceRules}
    (h : (s.setResourceRules id rules).1 = .error e) : (s.setResourceRules id rules).2 = s := by
  cases s with
  | silent => rfl
  | declared catalog table =>
    cases hc : catalog.resource.compile rules with
    | ok => simp [setResourceRules, hc] at h
    | error => simp [setResourceRules, hc]

/-- Rules for records that are refused change nothing. -/
theorem setRecordRules_of_error {rules : RecordRules}
    (h : (s.setRecordRules id rules).1 = .error e) : (s.setRecordRules id rules).2 = s := by
  cases s with
  | silent => rfl
  | declared catalog table =>
    cases hc : catalog.record.compile rules with
    | ok => simp [setRecordRules, hc] at h
    | error => simp [setRecordRules, hc]

theorem resourceRules?_silent (id : ResourceId) : silent.resourceRules? id = none := rfl

theorem ofDocument_empty (catalog : Catalog) : ofDocument catalog .empty = .ok (new catalog) := rfl

end PolicyService

end PolicyGate
