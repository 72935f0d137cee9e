import PolicyGate.Config.Basic
import PolicyGate.Config.Document
import PolicyGate.Host.Folder

/-!
Where the configuration comes from: its defaults, under a file, under variables. Main statement: a
file that is asked for and is not there is the error.
-/

namespace PolicyGate

/-- A configuration and the path of its file, if it has one. -/
structure LoadedConfig where
  config : AppConfig
  path : Option String

namespace AppConfig

/-- The file that is read if no other is asked for. -/
def standardPath : String := "config/gatehouse.yaml"

/-- The start of the names of variables that are settings. -/
def variableLead : String := "gatehouse__"

/-- The mark between the keys in the name of a variable. -/
def keyMark : String := "__"

/-- The setting of a variable. -/
def settingOf? (entry : String × String) : Option (String × Setting) :=
  let name := Setting.lower entry.1
  if name.startsWith variableLead then
    let path := (name.drop variableLead.length).toString
    some (String.intercalate "." (path.splitOn keyMark), .text entry.2)
  else none

/-- The part of a path that ends with the name of a file, if it has one: not where the path leads
back. -/
def namedPath? (path : String) : Option String :=
  let names := (Folder.names path).reverse.dropWhile fun name => name = "" || name = "."
  match names with
  | [] => none
  | name :: _ => if name = ".." then none else some (String.intercalate "/" names.reverse)

/-- The paths at which a file is looked for: a path that is no file gets the ending of a
YAML file. -/
def filePaths (path : String) : List String :=
  path :: (namedPath? path).elim [] fun named => [named ++ ".yaml", named ++ ".yml"]

def fileEntries? (folder : Folder) (path : String) : Option (List (String × Setting)) := do
  let found ← (filePaths path).find? folder.hasFile
  Setting.ofDocument? (← folder.read? found)

/-- The path of the file to read; one that is asked for must be there. -/
def choosePath (folder : Folder) : Option String → Except AppError (Option String)
  | some path => if folder.contains path then .ok (some path) else .error (.missingConfig path)
  | none => .ok (if folder.contains standardPath then some standardPath else none)

/-- The configuration that a file and the variables of a host set. -/
def ofSources (host : Host) (path : Option String) : Except AppError AppConfig :=
  let file := match path with
    | some path => fileEntries? host.folder path
    | none => some []
  let settings := file.map fun entries =>
    ((Setting.table []).layAll entries).layAll (host.environment.filterMap settingOf?)
  match settings.bind (decode Setting.reader) with
  | some config => .ok config
  | none => .error (.unreadableConfig "the settings are no configuration")

/-- Loads the configuration and checks it. -/
def load (host : Host) (path : Option String) : Except AppError LoadedConfig := do
  let path ← choosePath host.folder path
  let config ← ofSources host path
  config.validate
  return ⟨config, path⟩

theorem load_missing {host : Host} {path : String} (h : host.folder.contains path = false) :
    load host (some path) = .error (.missingConfig path) := by
  simp [load, choosePath, h, bind, Except.bind]

end AppConfig

end PolicyGate
