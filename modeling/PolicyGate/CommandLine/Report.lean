import PolicyGate.CommandLine.Invocation
import PolicyGate.Config.Load
import PolicyGate.Policy.Load
import PolicyGate.Rule.Registry
import PolicyGate.Stage.Audit
import PolicyGate.Stage.Request
import PolicyGate.Yaml.Text

/-!
What the commands report, as lines for a human reader and as a document. Main statement: a report
without records does not name them.
-/

namespace PolicyGate.CommandLine

def unlines (lines : List String) : String := String.join (lines.map (· ++ "\n"))

/-- Shows a report in a form. -/
def OutputForm.show (form : OutputForm) (lines : List String) (document : Json) : String :=
  match form with
  | .human => unlines lines
  | .json => document.renderPretty ++ "\n"
  | .yaml => Yaml.render document

def configFileLine (path : Option String) : String :=
  "- Config File: " ++ path.getD "(defaults)"

def profileLine (profile : StoreProfile) : String := "- Persistence Profile: " ++ profile.inspect

/-- The line for the number of users. -/
def usersLine (users : Nat) : String := "- Users: " ++ toString users

/-- What a configuration and its policies hold. -/
structure ValidationReport where
  configPath : Option String
  profile : StoreProfile
  entries : Nat
  resourcePolicies : Nat
  recordPolicies : Nat
  users : Nat
  deriving DecidableEq, Repr

namespace ValidationReport

/-- The report on a configuration with its policies. -/
def of (path : Option String) (c : AppConfig) (document : PolicyDocument) : ValidationReport where
  configPath := path
  profile := c.store.profile
  entries := document.policies.length
  resourcePolicies := (document.policies.filter fun entry => entry.resourceRules.isSome).length
  recordPolicies := (document.policies.filter fun entry => entry.recordRules.isSome).length
  users := c.users.length

def toJson (r : ValidationReport) : Json :=
  .object [("config_path", .ofOption .string r.configPath), ("profile", .string r.profile.label),
    ("policy_entries", .int r.entries), ("resource_policies", .int r.resourcePolicies),
    ("record_policies", .int r.recordPolicies), ("users", .int r.users)]

def lines (r : ValidationReport) : List String :=
  ["Configuration OK", configFileLine r.configPath, profileLine r.profile,
    "- Policies: " ++ toString r.entries ++ " entries (" ++ toString r.resourcePolicies ++
      " resource, " ++ toString r.recordPolicies ++ " record)",
    usersLine r.users]

end ValidationReport

/-- The records of a resource that may be seen. -/
structure VisibleRecords where
  resource : ResourceId
  records : List Record

/-- What a request came to. -/
structure RequestReport where
  token : Token
  resources : List AuthorisedResource
  records : List VisibleRecords
  errors : List AuditEvent

namespace RequestReport

/-- The records of a resource as JSON. -/
def recordsJson (v : VisibleRecords) : Json :=
  .object [("resource_id", v.resource.toJson), ("records", .array (v.records.map Record.toJson))]

/-- The report as JSON; records are named only if there are some. -/
def toJson (r : RequestReport) : Json :=
  .object ([("token", r.token.toJson), ("resources", .array (r.resources.map (·.toJson)))] ++
    (if r.records.isEmpty then [] else [("records", .array (r.records.map recordsJson))]) ++
    [("errors", .array (r.errors.map AuditEvent.toJson))])

/-- The line for a granted resource. -/
def resourceLine (a : AuthorisedResource) : String :=
  "  - " ++ a.resource.id.text ++ " (record rules: " ++
    (a.recordRules.elim "none" fun rules => rules.message) ++ ")"

def lines (r : RequestReport) : List String :=
  ["Token: " ++ r.token.text] ++
    (if r.resources.isEmpty then ["Authorised Resources: none"]
      else "Authorised Resources:" :: r.resources.map resourceLine) ++
    (r.records.flatMap fun v =>
      ("Records for " ++ v.resource.text ++ ":") ::
        v.records.map fun record => "  " ++ record.toJson.render) ++
    (if r.errors.isEmpty then []
      else "Errors:" :: r.errors.map fun e => "  - [" ++ e.service ++ "] " ++ e.error)

theorem toJson_of_records_nil {r : RequestReport} (h : r.records = []) :
    r.toJson = .object [("token", r.token.toJson),
      ("resources", .array (r.resources.map (·.toJson))),
      ("errors", .array (r.errors.map AuditEvent.toJson))] := by
  simp [toJson, h]

end RequestReport

/-- What the program was built from. -/
structure BuildInfo where
  version : String
  date : String
  commit : String
  deriving DecidableEq, Repr

/-- The lines on the program and a configuration. -/
def infoLines (build : BuildInfo) (path : Option String) (c : AppConfig) : List String :=
  ["Gatehouse System Information", "============================",
    "Version: " ++ build.version, "Build Date: " ++ build.date, "Git Commit: " ++ build.commit, "",
    "Configuration:", configFileLine path, profileLine c.store.profile,
    "- Offset TTL: " ++ c.store.offsetTtl.toSpan,
    "- Worker Timeout: " ++ c.workerTimeout.toSpan,
    "- Stream Boundary: " ++ c.boundary.inspect,
    "- Policy File: " ++ c.policiesPath.getD ("(from " ++ PolicyDocument.pathsVariable ++ ")"),
    usersLine c.users.length, "",
    "Built-in Rules:",
    "- Resource: " ++ ", ".intercalate Catalog.builtins.resource.names,
    "- Record: " ++ ", ".intercalate Catalog.builtins.record.names]

end PolicyGate.CommandLine
