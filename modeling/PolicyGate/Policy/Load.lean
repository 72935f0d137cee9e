import PolicyGate.Host.Folder
import PolicyGate.Json.Reader
import PolicyGate.Policy.Document
import PolicyGate.Rule.Error
import PolicyGate.Text.Blank
import PolicyGate.Yaml.Reader

/-!
Where policy documents come from: named files, which must exist; files named by a variable, which
may be missing; and the text of a variable. Main statement: without sources there is an empty
document.
-/

namespace PolicyGate

/-- The sources of a policy document. -/
structure PolicySources where
  paths : List String
  /-- whether the variables are sources as well -/
  withVariables : Bool

namespace PolicyDocument

/-- The variable that names policy files, with commas between them. -/
def pathsVariable : String := "GATEHOUSE_POLICY_PATHS"

/-- The variable that holds a policy document. -/
def textVariable : String := "GATEHOUSE_POLICY_JSON"

def ofYaml (text : String) : Except RuleError PolicyDocument :=
  match Yaml.decode? (fun targets => decode (Yaml.Node.reader targets)) text with
  | some document => .ok document
  | none => .error (.invalidPolicy "the YAML text is no policy document")

def ofJson (text : String) : Except RuleError PolicyDocument :=
  match Json.decode? (decode Json.Form.reader) text with
  | some document => .ok document
  | none => .error (.invalidPolicy "the JSON text is no policy document")

def ofFile (folder : Folder) (path : String) : Except RuleError PolicyDocument :=
  match folder.read? path with
  | some text => ofYaml text
  | none => .error (.unreadable (path ++ ": is no text"))

/-- The document of a file that must exist. -/
def ofNamedFile (folder : Folder) (path : String) : Except RuleError PolicyDocument :=
  if folder.contains path then ofFile folder path
  else .error (.unreadable ("policy file " ++ path ++ " does not exist"))

/-- The document of a file that may be missing. -/
def ofOptionalFile (folder : Folder) (path : String) : Except RuleError PolicyDocument :=
  if folder.contains path then ofFile folder path else .ok .empty

/-- The paths in a text, with blanks around them left out. -/
def pathsOf (text : String) : List String :=
  ((text.splitOn ",").map Text.trim).filter (· ≠ "")

/-- The document of a text that may be blank. -/
def ofOptionalText (text : String) : Except RuleError PolicyDocument :=
  if Text.trim text = "" then .ok .empty else ofJson text

/-- The files and the text that the variables name. -/
def variableSources (host : Host) : List (Except RuleError PolicyDocument) :=
  (((host.value? pathsVariable).map pathsOf).getD []).map (ofOptionalFile host.folder) ++
    ((host.value? textVariable).toList.map ofOptionalText)

/-- Appends the documents of sources in order; the first one that fails decides. -/
def gather (sources : List (Except RuleError PolicyDocument)) : Except RuleError PolicyDocument :=
  sources.foldlM (fun document source => source.map document.append) .empty

/-- The document of all sources: the named files, then the variables. -/
def load (host : Host) (sources : PolicySources) : Except RuleError PolicyDocument :=
  gather (sources.paths.map (ofNamedFile host.folder) ++
    if sources.withVariables then variableSources host else [])

/-- The document of a file, if one is given, and of the variables. -/
def loadFrom (host : Host) (path : Option String) : Except RuleError PolicyDocument :=
  load host ⟨path.toList, true⟩

theorem load_nothing (host : Host) : load host ⟨[], false⟩ = .ok .empty := rfl

end PolicyDocument

end PolicyGate
