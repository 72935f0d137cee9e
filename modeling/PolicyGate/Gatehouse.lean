import PolicyGate.Config.Basic
import PolicyGate.Pipeline.Schedule
import PolicyGate.Policy.Load

/-!
The gatehouse: a pipeline that is put together from a configuration, with the stores of its profile,
its policies and its users, and that is shut down in the order in which the entries flow. Main
statement: a configuration that is refused starts nothing.
-/

namespace PolicyGate

/-- The two stores of a pipeline. -/
structure Stores where
  authorised : Store
  offsets : Store

/-- A running gatehouse. -/
structure Gatehouse where
  config : AppConfig
  schedule : Schedule

/-- What a client gets for a request. -/
structure Outcome where
  token : Token
  resources : List AuthorisedResource
  errors : List AuditEvent

namespace Stores

/-- Opens the stores of a profile. Those of a table are two views of one database. -/
def ofSettings (folder : Folder) (s : StoreSettings) : Except AppError Stores :=
  match s.profile with
  | .durable => .ok ⟨.memory .empty, .memory .empty⟩
  | .ttl =>
    .ok ⟨.memory .empty,
      .timed { cache := .new s.offsetTtl, sweepers := [.new s.offsetTtl .start] }⟩
  | .sqlite =>
    match TableStore.connect folder s.sqliteUrl with
    | .ok store => .ok ⟨.table store, .table store⟩
    | .error e => .error (.store e)
  | .redis =>
    .error (.unsupported "the redis profile requires building with the \x60redis\x60 feature")

end Stores

namespace Gatehouse

/-- The policy document of a configuration, and the service that its rules make. -/
def loadPolicies (host : Host) (c : AppConfig) :
    Except AppError (PolicyDocument × PolicyService) :=
  let loaded := do
    let document ← PolicyDocument.loadFrom host c.policiesPath
    return (document, ← PolicyService.ofDocument .builtins document)
  loaded.mapError .policy

/-- What is fixed about the pipeline of a configuration. -/
def wiring (host : Host) (clock : Timestamp) (c : AppConfig) : Wiring :=
  ⟨.builtins, c.boundary, c.store.offsetTtl, AuditEvent.hostName (host.value? "HOSTNAME"), clock⟩

/-- Starts a gatehouse; reports are given the time of the clock. -/
def start (host : Host) (clock : Timestamp) (c : AppConfig) : Except AppError Gatehouse := do
  c.validate
  let (_, policies) ← loadPolicies host c
  let stores ← Stores.ofSettings host.folder c.store
  let pipeline := Pipeline.start (wiring host clock c) policies (.ofList c.users)
    stores.authorised stores.offsets c.workerTimeout
  return ⟨c, .new pipeline⟩

def pipeline (g : Gatehouse) : Pipeline := g.schedule.pipeline

def settle (g : Gatehouse) : Gatehouse := { g with schedule := g.schedule.settle }

def advance (g : Gatehouse) (elapsed : Duration) : Gatehouse :=
  { g with schedule := g.schedule.advance elapsed }

/-- Registers a request under a fresh token. -/
def register (g : Gatehouse) (token : Token) (q : DataRequest) :
    Gatehouse × Except StageError Token :=
  let (schedule, result) := g.schedule.register token q
  ({ g with schedule }, result)

/-- Waits for what a token was granted. -/
def resources (g : Gatehouse) (token : Token) :
    Gatehouse × Except StageError (List AuthorisedResource) :=
  let (schedule, result) := g.schedule.resources token
  ({ g with schedule }, result.getD (.error (.offset (.workerLost token))))

/-- Registers a request under a fresh token and waits for what it is granted. -/
def request (g : Gatehouse) (token : Token) (q : DataRequest) :
    Gatehouse × Except StageError Outcome :=
  match g.register token q with
  | (g, .error e) => (g, .error e)
  | (g, .ok token) =>
    let (g, result) := g.resources token
    (g, result.map fun resources => ⟨token, resources, g.pipeline.errorsFor token⟩)

/-- The records of a resource that a token may see. -/
def filterRecords (g : Gatehouse) (token : Token) (resource : ResourceId) (records : List Record) :
    Except StageError (List Record) :=
  g.pipeline.filterRecords none token resource records

/-- Takes a step of the pipeline, if it is due. -/
def perform (g : Gatehouse) (e : Pipeline.Event) : Gatehouse :=
  { g with schedule := ((g.schedule.perform e).getD g.schedule).wake }

/-- Shuts down: each topic is closed when all that was accepted before has passed, and the workers
that are left are cancelled. -/
def shutdown (g : Gatehouse) : Gatehouse :=
  let g := (g.perform .closeRequests).settle
  let g := (g.perform .closeOutput).settle
  (g.perform .closeErrors).perform .shutdownCoordinator

theorem start_of_validate_error {c : AppConfig} {e : AppError} (h : c.validate = .error e)
    (host : Host) (clock : Timestamp) : start host clock c = .error e := by
  simp [start, h, bind, Except.bind]

end Gatehouse

end PolicyGate
