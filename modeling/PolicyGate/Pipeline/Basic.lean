import PolicyGate.Pipeline.Work
import PolicyGate.Stage.Ingress
import PolicyGate.Stage.Reading
import PolicyGate.Stage.Records

/-!
The state of a pipeline: its topics, its stores, the coordinator, the two consuming stages and the
clients that register requests or read results. Main statement: a pipeline starts with empty topics.
-/

namespace PolicyGate

/-- Why a consumer takes no more entries. -/
inductive ConsumerEnd where
  /-- its topic is closed and has been read -/
  | drained
  /-- the topic that it writes to is closed -/
  | refused
  | crashed
  deriving DecidableEq, Repr

/-- What a consumer is at. -/
inductive ConsumerState (ω : Type) where
  | idle
  | busy (token : Token) (work : ω)
  | over (ending : ConsumerEnd)

/-- A stage that handles the entries of a topic one after the other. -/
structure Consumer (ω : Type) where
  reader : Reader
  state : ConsumerState ω

/-- What is fixed about a pipeline. -/
structure Wiring where
  catalog : Catalog
  /-- the marker whose offset is recorded for a token -/
  boundary : Marker
  /-- how long the offset of a token is kept -/
  offsetTtl : Duration
  host : String
  /-- the time that reports are given -/
  clock : Timestamp

structure Pipeline where
  wiring : Wiring
  policies : PolicyService
  users : UserDirectory
  requests : Log DataRequest
  output : Log AuthorisedResource
  errors : Log AuditEvent
  authorised : Store
  offsets : Store
  coordinator : Coordinator
  access : Option (Consumer AccessWork)
  index : Option (Consumer IndexWork)
  registrations : List Registration
  readings : List Reading
  now : Instant

namespace Consumer

variable {ω : Type}

/-- A consumer of a topic from an offset on. -/
def new {α : Type} (log : Log α) (offset : Int) : Consumer ω := ⟨.new log offset, .idle⟩

/-- Whether a consumer takes entries or still works on one. -/
def isRunning (c : Consumer ω) : Bool :=
  match c.state with
  | .over _ => false
  | _ => true

end Consumer

namespace Pipeline

def requestTopic : String := "data-requests"

def outputTopic : String := "authorised-resources"

def errorTopic : String := "audit-errors"

/-- A pipeline with empty topics in which no stage runs. -/
def new (wiring : Wiring) (policies : PolicyService) (users : UserDirectory)
    (authorised offsets : Store) (workerTimeout : Duration) : Pipeline where
  wiring
  policies
  users
  requests := .new requestTopic
  output := .new outputTopic
  errors := .new errorTopic
  authorised
  offsets
  coordinator := .new workerTimeout
  access := none
  index := none
  registrations := []
  readings := []
  now := .start

/-- Who reports the failures of a service. -/
def reporter (p : Pipeline) (service : String) : Reporter :=
  ⟨service, p.wiring.host, p.wiring.clock⟩

/-- Who reports the failures of the entry. -/
def ingressReporter (p : Pipeline) : Reporter := p.reporter "ingress"

/-- Who reports the failures of the policy stage. -/
def accessReporter (p : Pipeline) : Reporter := p.reporter "policy-stage"

/-- Who reports the failures of the offset stage. -/
def indexReporter (p : Pipeline) : Reporter := p.reporter "topic-offset-stage"

/-- Lets the policy stage consume the topic of requests. -/
def startAccess (p : Pipeline) (offset : Int) : Pipeline :=
  { p with access := some (.new p.requests offset) }

/-- Lets the offset stage consume the output topic. -/
def startIndex (p : Pipeline) (offset : Int) : Pipeline :=
  { p with index := some (.new p.output offset) }

/-- The pipeline with both stages at work from the start of their topics. -/
def start (wiring : Wiring) (policies : PolicyService) (users : UserDirectory)
    (authorised offsets : Store) (workerTimeout : Duration) : Pipeline :=
  ((new wiring policies users authorised offsets workerTimeout).startAccess 0).startIndex 0

def errorsFor (p : Pipeline) (token : Token) : List AuditEvent :=
  (p.errors.envelopes.filter fun e => e.token = token).filterMap Envelope.payload?

/-- The records of a resource that a token may see. -/
def filterRecords (p : Pipeline) (fault : Option StoreError) (token : Token)
    (resource : ResourceId) (records : List Record) : Except StageError (List Record) :=
  let key := AuthorisedRequest.key token resource
  let found := match fault with
    | some e => .error e
    | none => (p.authorised.get AuthorisedRequest.recordType p.now key).1
  PolicyGate.filterRecords p.wiring.catalog key found records

theorem envelopes_start (wiring : Wiring) (policies : PolicyService) (users : UserDirectory)
    (authorised offsets : Store) (workerTimeout : Duration) :
    (start wiring policies users authorised offsets workerTimeout).output.envelopes = [] := rfl

end Pipeline

end PolicyGate
