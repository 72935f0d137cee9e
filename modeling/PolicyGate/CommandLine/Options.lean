/-!
Options on a command line: long ones behind two dashes, short ones behind one, a value behind an
equals sign or in the next argument. Options of a command stand before its subcommand, those of the
subcommand behind it. Main statement: an option whose value is missing is refused, however the line
goes on.
-/

namespace PolicyGate.CommandLine

/-- What an option takes. -/
inductive OptionValue where
  /-- nothing -/
  | flag
  | text
  /-- a text that is not empty -/
  | path
  | choice (names : List String)
  deriving DecidableEq, Repr

structure OptionSpec where
  name : String
  short : Option Char := none
  value : OptionValue
  isRepeatable : Bool := false
  isRequired : Bool := false
  /-- what its value is called in help -/
  valueName : String := ""
  /-- the value when it is not given -/
  standard : Option String := none
  help : String := ""
  deriving DecidableEq, Repr

/-- A command with its options and its subcommands. -/
structure CommandSpec where
  /-- the words that call it -/
  path : List String
  help : String
  options : List OptionSpec
  /-- the names of the subcommands with their help -/
  subcommands : List (String × String) := []
  /-- the name and the help of the arguments that are no options -/
  operands : Option (String × String) := none
  /-- whether it shows help and version when asked to -/
  isDocumented : Bool := true
  deriving DecidableEq, Repr

/-- Why a command line is not carried out. -/
inductive UsageError where
  | displayHelp (command : CommandSpec)
  | displayVersion (command : CommandSpec)
  /-- nothing at all is asked for -/
  | nothingAsked
  | missingSubcommand
  | invalidSubcommand
  | invalidValue
  | tooManyValues
  | conflict
  | unknownArgument
  | missingArgument
  deriving DecidableEq, Repr

/-- The values that were given, by the names of their options. -/
abbrev Given := List (String × String)

/-- How far a line of arguments has been read. -/
structure ArgumentScan where
  given : Given := []
  /-- the option that was read last, with its value if it is already there; it is not yet counted -/
  pending : Option (OptionSpec × Option String) := none
  /-- whether the next argument is a value -/
  awaitsValue : Bool := false
  /-- whether two dashes have ended the options -/
  isTrailing : Bool := false

/-- What a line of arguments comes to: its values, and the subcommand with the arguments
behind it. -/
structure Found where
  scan : ArgumentScan
  subcommand : Option (String × List String)

namespace UsageError

def exitCode : UsageError → Nat
  | displayHelp _ => 0
  | displayVersion _ => 0
  | _ => 2

def label : UsageError → String
  | displayHelp _ => "DisplayHelp"
  | displayVersion _ => "DisplayVersion"
  | nothingAsked => "DisplayHelpOnMissingArgumentOrSubcommand"
  | missingSubcommand => "MissingSubcommand"
  | invalidSubcommand => "InvalidSubcommand"
  | invalidValue => "InvalidValue"
  | tooManyValues => "TooManyValues"
  | conflict => "ArgumentConflict"
  | unknownArgument => "UnknownArgument"
  | missingArgument => "MissingRequiredArgument"

end UsageError

namespace OptionValue

/-- Whether an option that takes such a value can have this one. -/
def accepts : OptionValue → String → Bool
  | flag, _ => true
  | text, _ => true
  | path, value => value ≠ ""
  | choice names, value => names.contains value

end OptionValue

namespace CommandSpec

/-- The name under which all commands show help. -/
def helpName : String := "help"

/-- The name under which all commands show their version. -/
def versionName : String := "version"

def byName? (c : CommandSpec) (name : String) : Option OptionSpec :=
  c.options.find? fun option => option.name = name

def byShort? (c : CommandSpec) (short : Char) : Option OptionSpec :=
  c.options.find? fun option => option.short = some short

def hasSubcommand (c : CommandSpec) (name : String) : Bool := c.subcommands.any (·.1 = name)

end CommandSpec

namespace ArgumentScan

def count (r : ArgumentScan) (option : OptionSpec) (value : String) :
    Except UsageError ArgumentScan :=
  if !option.isRepeatable && r.given.any (fun given => given.1 = option.name) then .error .conflict
  else if option.value.accepts value then .ok { r with given := r.given ++ [(option.name, value)] }
  else .error .invalidValue

/-- Counts the option that was read last. -/
def settle (r : ArgumentScan) : Except UsageError ArgumentScan :=
  match r.pending with
  | none => .ok r
  | some (_, none) => .error .invalidValue
  | some (option, some value) =>
    { r with pending := none, awaitsValue := false }.count option value

/-- Reads an option that takes no value, or one whose value is attached. -/
def take (r : ArgumentScan) (option : OptionSpec) (value : String) :
    Except UsageError ArgumentScan := do
  (← r.settle).count option value

/-- Reads an option whose value is the next argument. -/
def expect (r : ArgumentScan) (option : OptionSpec) : Except UsageError ArgumentScan := do
  return { (← r.settle) with pending := some (option, none), awaitsValue := true }

/-- Reads the request for help or for the version. -/
def showing (r : ArgumentScan) (error : UsageError) : Except UsageError ArgumentScan := do
  let _ ← r.settle
  .error error

/-- Reads an argument as the value of the option before it. -/
def supply (r : ArgumentScan) (value : String) : ArgumentScan :=
  { r with
    pending := r.pending.map fun (option, _) => (option, some value)
    awaitsValue := false }

def long (c : CommandSpec) (r : ArgumentScan) (name : String) (value : Option String) :
    Except UsageError ArgumentScan :=
  if name = CommandSpec.helpName ∨ name = CommandSpec.versionName then
    if value.isSome then .error .tooManyValues
    else r.showing (if name = CommandSpec.helpName then .displayHelp c else .displayVersion c)
  else match c.byName? name with
    | none => .error .unknownArgument
    | some option =>
      match option.value, value with
      | .flag, none => r.take option "true"
      | .flag, some _ => .error .tooManyValues
      | _, some value => r.take option value
      | _, none => r.expect option

/-- Reads short options that stand together. -/
def short (c : CommandSpec) (r : ArgumentScan) : List Char → Except UsageError ArgumentScan
  | [] => .ok r
  | 'h' :: _ => r.showing (.displayHelp c)
  | 'V' :: _ => r.showing (.displayVersion c)
  | name :: rest =>
    match c.byShort? name with
    | none => .error .unknownArgument
    | some option =>
      match option.value, rest with
      | .flag, rest => do short c (← r.take option "true") rest
      | _, [] => r.expect option
      | _, '=' :: value => r.take option (String.ofList value)
      | _, value => r.take option (String.ofList value)

/-- The refusal of an argument that is neither an option nor a subcommand. -/
def stray (c : CommandSpec) (r : ArgumentScan) (argument : String) : UsageError :=
  if c.subcommands.isEmpty ∨ (r.isTrailing ∧ c.hasSubcommand argument) then .unknownArgument
  else .invalidSubcommand

/-- Reads one argument that is not a subcommand. -/
def argument (c : CommandSpec) (r : ArgumentScan) (text : String) :
    Except UsageError ArgumentScan :=
  if r.isTrailing then .error (r.stray c text)
  else match text.toList with
    | ['-', '-'] => .ok { r with isTrailing := true }
    | '-' :: '-' :: rest =>
      let value := match rest.dropWhile (· ≠ '=') with
        | _ :: value => some (String.ofList value)
        | [] => none
      r.long c (String.ofList (rest.takeWhile (· ≠ '='))) value
    | '-' :: first :: rest => r.short c (first :: rest)
    | _ => if r.awaitsValue then .ok (r.supply text) else .error (r.stray c text)

/-- Reads arguments up to a subcommand. -/
def arguments (c : CommandSpec) (r : ArgumentScan) : List String → Except UsageError Found
  | [] => .ok ⟨r, none⟩
  | text :: rest =>
    if !r.isTrailing && !r.awaitsValue && c.hasSubcommand text then .ok ⟨r, some (text, rest)⟩
    else do arguments c (← r.argument c text) rest

/-- The values of a command, which must have those that it requires. -/
def finish (c : CommandSpec) (r : ArgumentScan) : Except UsageError Given := do
  let r ← r.settle
  if c.options.all fun option => !option.isRequired || r.given.any (·.1 = option.name) then
    return r.given
  else .error .missingArgument

theorem settle_of_missing_value {r : ArgumentScan} {option : OptionSpec}
    (h : r.pending = some (option, none)) : r.settle = .error .invalidValue := by
  simp [settle, h]

end ArgumentScan

end PolicyGate.CommandLine
