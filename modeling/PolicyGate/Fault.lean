import PolicyGate.Config.Basic
import PolicyGate.Json.Lookup
import PolicyGate.Stage.Request

/-!
The errors of all parts together, each with a label that names the part and the cause. An error that
a part only passes on keeps the label of where it came from. Main statement: passing an error on
changes neither its label nor its message.
-/

namespace PolicyGate

/-- An error of any part. -/
inductive Fault where
  | rule (error : RuleError)
  | store (error : StoreError)
  | offset (error : OffsetError)
  | closed (error : TopicClosed)
  | stage (error : StageError)
  | app (error : AppError)

def RuleError.label : RuleError → String
  | unknownRule _ => "Rule.UnknownRule"
  | invalidRule _ => "Rule.InvalidRule"
  | invalidPolicy _ => "Rule.Invalid"
  | unreadable _ => "Rule.Io"
  | failed .. => "Rule.Apply"
  | noPolicy _ => "Rule.NoSuchPolicy"

def StoreError.label : StoreError → String
  | unavailable _ => "Persistence.Unavailable"
  | backend _ => "Persistence.Backend"
  | codec _ => "Persistence.Codec"

def OffsetError.label : OffsetError → String
  | lookup _ => "Offset.Persistence"
  | timedOut .. => "Offset.TimedOut"
  | cancelled .. => "Offset.Cancelled"
  | workerLost _ => "Offset.WorkerLost"

def TopicClosed.label : String := "Bus.Closed"

def StageError.label : StageError → String
  | rule e => e.label
  | store e => e.label
  | offset e => e.label
  | closed _ => TopicClosed.label
  | invalidRequest _ => "Stage.InvalidRequest"

def AppError.label : AppError → String
  | missingConfig _ => "App.MissingConfig"
  | unreadableConfig _ => "App.Config"
  | invalid _ => "App.Invalid"
  | policy e => e.label
  | store e => e.label
  | unsupported _ => "App.Unsupported"

namespace Fault

def label : Fault → String
  | rule e => e.label
  | store e => e.label
  | offset e => e.label
  | closed _ => TopicClosed.label
  | stage e => e.label
  | app e => e.label

def message : Fault → String
  | rule e => e.message
  | store e => e.message
  | offset e => e.message
  | closed e => e.message
  | stage e => e.message
  | app e => e.message

/-- What callers ask about an error: of a rule, whether the configuration is wrong; of an offset,
whether the store is at fault. -/
def verdict? : Fault → Option Bool
  | rule e => some e.isConfiguration
  | offset e => some e.isLookup
  | _ => none

open Json.Lookup

/-- The error of a rule that a value describes. -/
def readRule (j : Json) : RuleError :=
  let text := str j "text"
  match str j "variant" with
  | "unknown" => .unknownRule text
  | "invalid_rule" => .invalidRule text
  | "invalid" => .invalidPolicy text
  | "io" => .unreadable text
  | "apply" => .failed (str j "rule_id") text
  | _ => .noPolicy text

/-- The error of a store that a value describes. -/
def readStore (j : Json) : StoreError :=
  let text := str j "text"
  match str j "variant" with
  | "unavailable" => .unavailable text
  | "backend" => .backend text
  | _ => .codec text

/-- The error about an offset that a value describes. -/
def readOffset (j : Json) : OffsetError :=
  let token : Token := ⟨str j "token"⟩
  match str j "variant" with
  | "persistence" => .lookup (readStore (field j "inner"))
  | "timed_out" => .timedOut token ⟨nat j "nanos"⟩
  | "cancelled" => .cancelled token (str j "text")
  | _ => .workerLost token

/-- The error of a stage that a value describes. -/
def readStage (j : Json) : StageError :=
  let inner := field j "inner"
  match str j "variant" with
  | "rule" => .rule (readRule inner)
  | "persistence" => .store (readStore inner)
  | "offset" => .offset (readOffset inner)
  | "bus" => .closed ⟨str inner "text"⟩
  | _ => .invalidRequest (str j "text")

/-- The error of the application that a value describes. -/
def readApp (j : Json) : AppError :=
  let text := str j "text"
  let inner := field j "inner"
  match str j "variant" with
  | "missing_config" => .missingConfig text
  | "invalid" => .invalid text
  | "unsupported" => .unsupported text
  | "policy" => .policy (readRule inner)
  | _ => .store (readStore inner)

/-- The error that a value describes by its family, its variant and what belongs to it. -/
def read (j : Json) : Fault :=
  match str j "family" with
  | "rule" => .rule (readRule j)
  | "persistence" => .store (readStore j)
  | "offset" => .offset (readOffset j)
  | "bus" => .closed ⟨str j "text"⟩
  | "stage" => .stage (readStage j)
  | _ => .app (readApp j)

theorem label_stage_rule (e : RuleError) : (stage (.rule e)).label = (rule e).label := rfl

theorem message_stage_rule (e : RuleError) : (stage (.rule e)).message = (rule e).message := rfl

end Fault

end PolicyGate
