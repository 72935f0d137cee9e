import PolicyGate.Json.Text
import PolicyGate.Rule.Error
import PolicyGate.Store.Error
import PolicyGate.Subject
import PolicyGate.Text.Blank
import PolicyGate.Time.Span
import PolicyGate.Topic.Envelope

/-!
The configuration of the application, its defaults, its form in documents and the conditions that it
must meet. Main statement: the default configuration is valid.
-/

namespace PolicyGate

variable {m : Type → Type} [Wire.Decoding m] {D : Type}

/-- Where offsets and authorisations are kept. -/
inductive StoreProfile where
  /-- in memory, and offsets never expire -/
  | durable
  /-- in memory, and offsets expire -/
  | ttl
  | sqlite
  | redis
  deriving DecidableEq, Repr, Inhabited

namespace StoreProfile

def label : StoreProfile → String
  | durable => "durable"
  | ttl => "ttl"
  | sqlite => "sqlite"
  | redis => "redis"

/-- The name of a profile as it is shown for inspection. -/
def inspect : StoreProfile → String
  | durable => "Durable"
  | ttl => "Ttl"
  | sqlite => "Sqlite"
  | redis => "Redis"

def labels : List String := ["durable", "ttl", "sqlite", "redis"]

def ofLabel? : String → Option StoreProfile
  | "durable" => some durable
  | "ttl" => some ttl
  | "sqlite" => some sqlite
  | "redis" => some redis
  | _ => none

def decode (r : Wire.Reader m D) (d : D) : m StoreProfile := do
  Wire.given (ofLabel? (← r.choice labels d))

theorem ofLabel?_label (p : StoreProfile) : ofLabel? p.label = some p := by
  cases p <;> rfl

end StoreProfile

structure StoreSettings where
  profile : StoreProfile := .ttl
  offsetTtl : Duration := .ofSeconds 300
  sqliteUrl : String := "sqlite://gatehouse.db"
  redisUrl : String := "redis://127.0.0.1:6379"
  deriving DecidableEq

/-- The configuration of the application. -/
structure AppConfig where
  store : StoreSettings := {}
  /-- how long a worker waits; the time to live of offsets when it is not set -/
  workerTimeoutSetting : Option Duration := none
  boundary : Marker := .start
  policiesPath : Option String := none
  users : List User := []
  deriving DecidableEq

/-- The errors of the application outside of a request. -/
inductive AppError where
  | missingConfig (path : String)
  | unreadableConfig (reason : String)
  | invalid (reason : String)
  | policy (error : RuleError)
  | store (error : StoreError)
  | unsupported (reason : String)
  deriving DecidableEq, Repr

def AppError.message : AppError → String
  | missingConfig path => "configuration file " ++ path ++ " does not exist"
  | unreadableConfig reason => "configuration error: " ++ reason
  | invalid reason => "invalid configuration: " ++ reason
  | policy error => error.message
  | store error => error.message
  | unsupported reason => reason

namespace Duration

/-- Decodes a span with blanks around it. -/
def decode (r : Wire.Reader m D) (d : D) : m Duration := do
  Wire.given (ofSpan? (Text.trim (← r.text d)))

/-- Decodes a span that may be absent or blank. -/
def decodeOptional (r : Wire.Reader m D) (d : D) : m (Option Duration) := do
  match (← r.optional r.text d).map Text.trim with
  | none => return none
  | some text => if text = "" then return none else return some (← Wire.given (ofSpan? text))

end Duration

namespace StoreSettings

def decode (r : Wire.Reader m D) (d : D) : m StoreSettings := do
  let fields ← r.fields ["profile", "offset_ttl", "sqlite_url", "redis_url"] d
  let standard : StoreSettings := {}
  return {
    profile := ← fields.withDefault 0 (StoreProfile.decode r) standard.profile
    offsetTtl := ← fields.withDefault 1 (Duration.decode r) standard.offsetTtl
    sqliteUrl := ← fields.withDefault 2 r.text standard.sqliteUrl
    redisUrl := ← fields.withDefault 3 r.text standard.redisUrl }

def toJson (s : StoreSettings) : Json :=
  .object [("profile", .string s.profile.label), ("offset_ttl", .string s.offsetTtl.toSpan),
    ("sqlite_url", .string s.sqliteUrl), ("redis_url", .string s.redisUrl)]

end StoreSettings

namespace AppConfig

/-- How long a worker waits for an offset. -/
def workerTimeout (c : AppConfig) : Duration := c.workerTimeoutSetting.getD c.store.offsetTtl

def decode (r : Wire.Reader m D) (d : D) : m AppConfig := do
  let fields ← r.fields ["persistence", "coordinator", "pipeline", "policies_path", "users"] d
  let coordinator (d : D) : m (Option Duration) := do
    let fields ← r.fields ["worker_timeout"] d
    fields.withDefault 0 (Duration.decodeOptional r) none
  let pipeline (d : D) : m Marker := do
    let fields ← r.fields ["boundary"] d
    fields.withDefault 0 (Marker.decode r) .start
  return {
    store := ← fields.withDefault 0 (StoreSettings.decode r) {}
    workerTimeoutSetting := ← fields.withDefault 1 coordinator none
    boundary := ← fields.withDefault 2 pipeline .start
    policiesPath := ← fields.withDefault 3 (r.optional r.text) none
    users := ← fields.withDefault 4 (r.items (User.decode r)) [] }

def toJson (c : AppConfig) : Json :=
  .object [("persistence", c.store.toJson),
    ("coordinator",
      .object [("worker_timeout", .ofOption (fun d => .string d.toSpan) c.workerTimeoutSetting)]),
    ("pipeline", .object [("boundary", c.boundary.toJson)]),
    ("policies_path", .ofOption .string c.policiesPath),
    ("users", .array (c.users.map User.toJson))]

/-- Checks a configuration: time to live and time-out must be positive, and a profile with a server
or a file needs its address. -/
def validate (c : AppConfig) : Except AppError Unit :=
  if c.store.offsetTtl.isZero then .error (.invalid "persistence.offset_ttl must be positive")
  else if c.workerTimeout.isZero then
    .error (.invalid "coordinator.worker_timeout must be positive")
  else if c.store.profile = .sqlite ∧ Text.trim c.store.sqliteUrl = "" then
    .error (.invalid "persistence.sqlite_url is required for the sqlite profile")
  else if c.store.profile = .redis ∧ Text.trim c.store.redisUrl = "" then
    .error (.invalid "persistence.redis_url is required for the redis profile")
  else .ok ()

theorem validate_default : validate {} = .ok () := rfl

end AppConfig

end PolicyGate
