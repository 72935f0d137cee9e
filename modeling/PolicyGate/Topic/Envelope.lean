import PolicyGate.Subject

/-!
What a topic carries: envelopes that belong to a token and hold a start marker, a message or an end
marker. Main statement: an envelope is either a marker or has a payload.
-/

namespace PolicyGate

variable {m : Type → Type} [Wire.Decoding m] {D : Type}

/-- The two markers around the messages of a token. -/
inductive Marker where
  | start
  | finish
  deriving DecidableEq, Repr, Inhabited

/-- What an envelope holds. -/
inductive Frame (α : Type) where
  | start
  | message (payload : α)
  | finish
  deriving DecidableEq, Repr

/-- A frame that belongs to a token. -/
structure Envelope (α : Type) where
  token : Token
  frame : Frame α
  deriving DecidableEq, Repr

/-- An envelope with the offset at which the log keeps it. -/
structure Entry (α : Type) where
  offset : Nat
  envelope : Envelope α

/-- A topic that takes no more envelopes. -/
structure TopicClosed where
  topic : String
  deriving DecidableEq, Repr

def TopicClosed.message (e : TopicClosed) : String := "topic `" ++ e.topic ++ "` is closed"

namespace Marker

def label : Marker → String
  | start => "start"
  | finish => "end"

/-- The name of a marker as it is shown for inspection. -/
def inspect : Marker → String
  | start => "Start"
  | finish => "End"

def ofLabel? : String → Option Marker
  | "start" => some start
  | "end" => some finish
  | _ => none

def decode (r : Wire.Reader m D) (d : D) : m Marker := do
  Wire.given (ofLabel? (← r.choice ["start", "end"] d))

def toJson (m : Marker) : Json := .string m.label

theorem ofLabel?_label (m : Marker) : ofLabel? m.label = some m := by
  cases m <;> rfl

end Marker

namespace Envelope

variable {α : Type}

def marker? (e : Envelope α) : Option Marker :=
  match e.frame with
  | .start => some .start
  | .finish => some .finish
  | .message _ => none

def payload? (e : Envelope α) : Option α :=
  match e.frame with
  | .message payload => some payload
  | _ => none

theorem isNone_marker?_iff (e : Envelope α) : e.marker?.isNone ↔ e.payload?.isSome := by
  unfold marker? payload?
  cases e.frame <;> simp

end Envelope

end PolicyGate
