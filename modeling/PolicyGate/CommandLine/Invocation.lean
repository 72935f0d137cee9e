import PolicyGate.CommandLine.Options

/-!
The command line of the gatehouse: what it is asked to do, with what settings. Main statement:
without any argument nothing is asked for.
-/

namespace PolicyGate.CommandLine

/-- How a result is shown. -/
inductive OutputForm where
  | human
  | json
  | yaml
  deriving DecidableEq, Repr

/-- The request that is to be run. -/
structure RequestArguments where
  user : String
  resource : String
  purpose : Option String
  /-- further entries of the context, each with an equals sign -/
  entries : List String
  /-- the file of the records to be filtered -/
  records : Option String
  showMetrics : Bool
  deriving DecidableEq, Repr

/-- What is to be done. -/
inductive Command where
  | validate (policies : Option String)
  | request (arguments : RequestArguments)
  | info
  deriving DecidableEq, Repr

/-- A command line that can be carried out. -/
structure Invocation where
  config : Option String
  logLevel : String
  isDebug : Bool
  output : OutputForm
  command : Command
  deriving DecidableEq, Repr

namespace Given

def value? (g : Given) (name : String) : Option String := g.lookup name

def values (g : Given) (name : String) : List String :=
  (g.filter fun given => given.1 = name).map Prod.snd

def has (g : Given) (name : String) : Bool := (value? g name).isSome

end Given

/-- The check of a configuration. -/
def validateSpec : CommandSpec where
  path := ["gatehouse", "validate"]
  help := "Load the configuration and compile every policy"
  options := [
    { name := "policies", value := .path, valueName := "FILE",
      help := "Policy file to check instead of the configured one" }]

/-- The run of a request. -/
def requestSpec : CommandSpec where
  path := ["gatehouse", "request"]
  help := "Run one data request through an in-process pipeline"
  options := [
    { name := "user", value := .text, isRequired := true, valueName := "USER",
      help := "Requesting user id" },
    { name := "resource", value := .text, isRequired := true, valueName := "RESOURCE",
      help := "Resource id, e.g. file:/data/report.csv" },
    { name := "purpose", value := .text, valueName := "PURPOSE",
      help := "Purpose recorded in the request context" },
    { name := "context", value := .text, isRepeatable := true, valueName := "KEY=VALUE",
      help := "Extra context entries as key=value" },
    { name := "records", value := .path, valueName := "FILE",
      help := "JSON array of records to read through each granted resource's record rules" },
    { name := "metrics", value := .flag, help := "Print coordinator metrics after the request" }]

/-- The display of the settings. -/
def infoSpec : CommandSpec where
  path := ["gatehouse", "info"]
  help := "Show build and configuration information"
  options := []

/-- The call for help. -/
def helpSpec : CommandSpec where
  path := ["gatehouse", "help"]
  help := "Print this message or the help of the given subcommand(s)"
  options := []
  operands := some ("COMMAND", "Print help for the subcommand(s)")
  isDocumented := false

/-- The subcommands, by their names. -/
def subcommandSpecs : List (String × CommandSpec) := [
  ("validate", validateSpec), ("request", requestSpec), ("info", infoSpec),
  (CommandSpec.helpName, helpSpec)]

/-- The program itself. -/
def programSpec : CommandSpec where
  path := ["gatehouse"]
  help := "Attribute-based access control pipeline with hierarchical policies and " ++
    "token offset coordination"
  options := [
    { name := "config", short := 'c', value := .path, valueName := "FILE",
      help := "Gatehouse YAML config (default config/gatehouse.yaml); " ++
        "GATEHOUSE__* variables override it" },
    { name := "log-level", short := 'l', value := .text, valueName := "LOG_LEVEL",
      standard := "warn",
      help := "Log filter used when RUST_LOG is unset (error, warn, info, debug, trace)" },
    { name := "debug", short := 'd', value := .flag,
      help := "Log pipeline stages and rule merges at debug level" },
    { name := "output", short := 'o', value := .choice ["human", "json", "yaml"],
      valueName := "OUTPUT", standard := "human",
      help := "Render command results as human text, json or yaml" }]
  subcommands := subcommandSpecs.map fun (name, spec) => (name, spec.help)

def subcommandGiven (spec : CommandSpec) (arguments : List String) : Except UsageError Given := do
  let found ← ArgumentScan.arguments spec {} arguments
  found.scan.finish spec

/-- The answer to a call for help: help is there for a single subcommand, or for the program. -/
def helpFor : List String → UsageError
  | [] => .displayHelp programSpec
  | [name] => (subcommandSpecs.lookup name).elim .invalidSubcommand .displayHelp
  | _ => .invalidSubcommand

/-- The command of a subcommand and its arguments. -/
def Command.ofArguments (name : String) (arguments : List String) : Except UsageError Command := do
  match name with
  | "validate" =>
    let given ← subcommandGiven validateSpec arguments
    return .validate (Given.value? given "policies")
  | "request" =>
    let given ← subcommandGiven requestSpec arguments
    return .request {
      user := (Given.value? given "user").getD ""
      resource := (Given.value? given "resource").getD ""
      purpose := Given.value? given "purpose"
      entries := Given.values given "context"
      records := Given.value? given "records"
      showMetrics := Given.has given "metrics" }
  | "info" =>
    let _ ← subcommandGiven infoSpec arguments
    return .info
  | _ => .error (helpFor arguments)

def OutputForm.ofName : String → OutputForm
  | "json" => json
  | "yaml" => yaml
  | _ => human

/-- The invocation that a list of arguments spells. The arguments of the subcommand are judged
before an option that was still waiting to be counted. -/
def Invocation.parse (arguments : List String) : Except UsageError Invocation := do
  let found ← ArgumentScan.arguments programSpec {} arguments
  match found.subcommand with
  | none =>
    let given ← found.scan.finish programSpec
    .error (if given.isEmpty then .nothingAsked else .missingSubcommand)
  | some (name, rest) =>
    let command ← Command.ofArguments name rest
    let given ← found.scan.finish programSpec
    return {
      config := Given.value? given "config"
      logLevel := (Given.value? given "log-level").getD "warn"
      isDebug := Given.has given "debug"
      output := .ofName ((Given.value? given "output").getD "human")
      command }

theorem parse_nil : Invocation.parse [] = .error .nothingAsked := rfl

end PolicyGate.CommandLine
