import PolicyGate.CommandLine.Help
import PolicyGate.CommandLine.LogLevel
import PolicyGate.CommandLine.Report
import PolicyGate.Fault
import PolicyGate.Gatehouse
import PolicyGate.Json.Read
import PolicyGate.Offset.Exposition
import PolicyGate.Text.Split

/-!
Carrying out a command line: the level of logging is checked first, then the configuration is
loaded, then the command itself is run. What is printed is the result, or an error with the step
that failed. Main statement: with a level of logging that is none, nothing else is looked at.
-/

namespace PolicyGate.CommandLine

/-- Why a step failed. -/
inductive Cause where
  | app (error : AppError)
  | stage (error : StageError)
  /-- a file is not what it must be -/
  | malformed
  | unreadable
  | other

/-- A step of a command that failed. -/
structure CommandError where
  step : String
  cause : Cause

/-- What surrounds a run: the host, the build, the time of its reports and the token of
its request. -/
structure Session where
  host : Host
  build : BuildInfo
  clock : Timestamp
  token : Token

/-- The files that a command line names. -/
def Invocation.files (i : Invocation) : List String :=
  AppConfig.filePaths (i.config.getD AppConfig.standardPath) ++ match i.command with
    | .validate policies => policies.toList
    | .request arguments => arguments.records.toList
    | .info => []

/-- The files and folders that a configuration and the variables name. -/
def filesOfConfig (environment : List (String × String)) (c : AppConfig) : List String :=
  let address := (TableAddress.parse? c.store.sqliteUrl).bind TableAddress.target?
  c.policiesPath.toList ++
    PolicyDocument.pathsOf ((environment.lookup PolicyDocument.pathsVariable).getD "") ++
    address.elim [] TableAddress.inspected

/-- How a run of the program ends. -/
structure Ending where
  exitCode : Nat
  /-- what is printed -/
  output : String
  failure : Option CommandError

namespace Cause

/-- The error of another part that is the cause. -/
def fault? : Cause → Option Fault
  | app e => some (.app e)
  | stage e => some (.stage e)
  | _ => none

def label : Cause → String
  | app e => e.label
  | stage e => e.label
  | malformed => "Json"
  | unreadable => "Io"
  | other => "Other"

end Cause

/-- The text of an error: its step and, behind it, its cause if that has a message. -/
def CommandError.message (e : CommandError) : String :=
  e.step ++ e.cause.fault?.elim "" fun fault => "\n\nCaused by:\n    " ++ fault.message

/-- Names the step in which an error of the application arose. -/
def inStep {α : Type} (step : String) (result : Except AppError α) : Except CommandError α :=
  result.mapError fun e => ⟨step, .app e⟩

/-- Names the step in which an error of a stage arose. -/
def inStage {α : Type} (step : String) (result : Except StageError α) : Except CommandError α :=
  result.mapError fun e => ⟨step, .stage e⟩

def Invocation.level (i : Invocation) : Except CommandError LogLevel :=
  if i.isDebug then .ok .debug
  else match LogLevel.ofText? i.logLevel with
    | some level => .ok level
    | none => .error ⟨"Invalid log level", .other⟩

namespace RequestArguments

/-- Adds an entry to a context: a key and a value around the first equals sign. -/
def addEntry (context : Context) (entry : String) : Except CommandError Context :=
  match Text.splitOnce '=' entry with
  | some (key, value) => .ok (context.insert (Text.trim key) (Text.trim value))
  | none => .error ⟨"context entry \x60" ++ entry ++ "\x60 is not KEY=VALUE", .other⟩

/-- The context of a request: its purpose, under the further entries. -/
def context (a : RequestArguments) : Except CommandError Context :=
  a.entries.foldlM addEntry (a.purpose.elim .empty .ofPurpose)

def recordsOf? (text : String) : Option (List Record) :=
  match Json.parse text with
  | some (.array items) => items.mapM fun item => (Record.ofJson item).toOption
  | _ => none

def readRecords (folder : Folder) (path : String) : Except CommandError (List Record) :=
  match folder.read? path with
  | none => .error ⟨"Failed to read records from " ++ path, .unreadable⟩
  | some text =>
    match recordsOf? text with
    | some records => .ok records
    | none => .error ⟨path ++ " is not a JSON array of records", .malformed⟩

/-- The request itself, in a context. -/
def toRequest (a : RequestArguments) (context : Context) : DataRequest :=
  ⟨⟨a.user⟩, ⟨a.resource⟩, context⟩

end RequestArguments

/-- The records that a token may see of every granted resource. -/
def visibleRecords (g : Gatehouse) (o : Outcome) (records : List Record) :
    Except StageError (List VisibleRecords) :=
  o.resources.mapM fun granted => do
    return ⟨granted.resource.id, ← g.filterRecords o.token granted.resource.id records⟩

namespace Session

/-- Checks a configuration with its policies. -/
def validate (s : Session) (loaded : LoadedConfig) (policies : Option String) :
    Except CommandError ValidationReport := do
  let c := { loaded.config with policiesPath := policies.or loaded.config.policiesPath }
  inStep "Invalid configuration" c.validate
  let (document, _) ← inStep "Invalid policies" (Gatehouse.loadPolicies s.host c)
  return .of loaded.path c document

/-- Runs a request through a gatehouse of its own; also the counts at its end. -/
def request (s : Session) (c : AppConfig) (a : RequestArguments) :
    Except CommandError (RequestReport × OffsetMetrics) := do
  let context ← a.context
  let records ← a.records.mapM (RequestArguments.readRecords s.host.folder)
  let g ← inStep "Failed to start pipeline" (Gatehouse.start s.host s.clock c)
  let (g, result) := g.request s.token (a.toRequest context)
  let outcome ← inStage "Request failed" result
  let visible ← match records with
    | some records => inStage "Record filtering failed" (visibleRecords g outcome records)
    | none => .ok []
  let errors := g.pipeline.errorsFor outcome.token
  let g := g.shutdown.settle
  return (⟨outcome.token, outcome.resources, visible, errors⟩, g.pipeline.coordinator.metrics)

/-- Carries out an invocation: the text to print. -/
def run (s : Session) (i : Invocation) : Except CommandError String := do
  let _ ← i.level
  let loaded ← inStep "Failed to load configuration" (AppConfig.load s.host i.config)
  match i.command with
  | .validate policies =>
    let report ← s.validate loaded policies
    return i.output.show report.lines report.toJson
  | .request arguments =>
    let (report, metrics) ← s.request loaded.config arguments
    return i.output.show report.lines report.toJson ++
      if arguments.showMetrics then metrics.exposition else ""
  | .info => return unlines (infoLines s.build loaded.path loaded.config)

/-- Carries out the command line of a list of arguments. -/
def execute (s : Session) (arguments : List String) : Ending :=
  match Invocation.parse arguments with
  | .error e => ⟨e.exitCode, e.answer s.build.version, none⟩
  | .ok invocation =>
    match s.run invocation with
    | .ok output => ⟨0, output, none⟩
    | .error e => ⟨1, "", some e⟩

theorem run_of_level_error {i : Invocation} {e : CommandError} (h : i.level = .error e)
    (s : Session) : s.run i = .error e := by
  simp [run, h, bind, Except.bind]

end Session

end PolicyGate.CommandLine
