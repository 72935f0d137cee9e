import PolicyGate.Pipeline.Step

/-!
One run of a pipeline: its tasks take turns in the order in which they became ready, a task runs
until it has to wait, and the clock stands still as long as any task is ready. Main statements:
settling leaves no task in the queue unless its bound is used up, and time never goes back.
-/

namespace PolicyGate

/-- How a store treats those who use it. -/
inductive StoreMode where
  | working
  /-- reads and writes fail -/
  | failing
  /-- whoever reads dies -/
  | crashing
  deriving DecidableEq, Repr

/-- How a store behaves, and how long it takes to answer a worker. -/
structure StoreHealth where
  mode : StoreMode
  delay : Duration
  deriving DecidableEq, Repr

/-- A client that waits for the offset of a token, and asks again so many times when it has it. -/
structure Inquiry where
  token : Token
  /-- the number of the request that it waits for; nothing once it is satisfied -/
  request : Option Nat
  again : Nat

/-- What takes turns. -/
inductive Task where
  | inquiry (number : Nat)
  | reading (number : Nat)
  | worker (place : Nat)
  | access
  | index
  | reaper
  deriving DecidableEq, Repr

/-- A run. -/
structure Schedule where
  pipeline : Pipeline
  health : StoreHealth
  inquiries : List Inquiry
  /-- what the inquiries were answered, in order -/
  replies : Answers
  /-- how many look-ups were begun -/
  lookups : Nat
  /-- when the store will answer, by the place of the worker -/
  dues : List (Nat × Instant)
  /-- the tasks that are ready, the next one first -/
  ready : List Task

namespace StoreHealth

/-- A store that works and answers at once. -/
def sound : StoreHealth := ⟨.working, ⟨0⟩⟩

/-- The failure of a store that does not work. -/
def offline : StoreError := .unavailable "store offline"

/-- The failure of a use of the store. -/
def fault? (h : StoreHealth) : Option StoreError :=
  match h.mode with
  | .failing => some offline
  | _ => none

end StoreHealth

namespace Schedule

/-- The run of a pipeline that has not begun. -/
def new (p : Pipeline) : Schedule := ⟨p, .sound, [], [], 0, [], []⟩

def now (s : Schedule) : Instant := s.pipeline.now

/-! ## Turns -/

/-- When the store will answer a worker. -/
def due? (s : Schedule) (place : Nat) : Option Instant := s.dues.lookup place

/-- The step that a worker takes next, if it does not have to wait. -/
def workerEvent (s : Schedule) (place : Nat) : Option Pipeline.Event :=
  (s.pipeline.coordinator.workers[place]?).bind fun worker =>
    let late := worker.deadline?.any fun deadline => deadline ≤ s.now
    match worker.phase with
    | .spawned => some (.workerStart place)
    | .reading _ =>
      if (s.due? place).any fun due => due ≤ s.now then
        some (match s.health.mode with
          | .crashing => .workerCrash place
          | _ => .workerLookup place s.health.fault?)
      else if late then some (.workerExpire place)
      else none
    | .found .. => some (.workerResolve place)
    | .waiting _ =>
      if !worker.mailbox.isEmpty then some (.workerHandle place)
      else if late then some (.workerExpire place)
      else if worker.hasSender then none
      else some (.workerHangUp place)
    | .closing => some (.workerDrain place)
    | .drained => some (.workerLeave place)
    | .ended => none
    | .crashed => none

/-- The step of the pipeline that a task takes next, if it does not have to wait. -/
def nextEvent (s : Schedule) : Task → Option Pipeline.Event
  | .inquiry _ => none
  | .reading number => some (.reading number)
  | .worker place => s.workerEvent place
  | .access => some (.access s.health.fault?)
  | .index => some (.index s.health.fault?)
  | .reaper => some .reap

/-- Notes when the store will answer a worker that has begun to read. -/
def beginLookup (s : Schedule) (place : Nat) : Schedule :=
  match (s.pipeline.coordinator.workers[place]?).map Worker.phase with
  | some (.reading _) =>
    { s with
      lookups := s.lookups + 1
      dues := (place, s.now.plus s.health.delay) :: s.dues }
  | _ => s

/-- Takes a step of the pipeline. -/
def perform (s : Schedule) (e : Pipeline.Event) : Option Schedule :=
  (s.pipeline.step e).map fun pipeline =>
    let s := { s with pipeline }
    match e with
    | .workerStart place => s.beginLookup place
    | _ => s

/-- Asks for the offset of a token. -/
def ask (s : Schedule) (token : Token) : Schedule × Nat :=
  ((s.perform (.ask token)).getD s, s.pipeline.coordinator.requests.length)

/-- An inquiry hears its answer, and may ask again. -/
def hear (s : Schedule) (number : Nat) : Option Schedule :=
  (s.inquiries[number]?).bind fun inquiry =>
    inquiry.request.bind fun request =>
      (s.pipeline.coordinator.answerTo? request).map fun reply =>
        let s := { s with replies := s.replies ++ [(number, reply)] }
        match inquiry.again with
        | 0 => { s with inquiries := s.inquiries.set number { inquiry with request := none } }
        | again + 1 =>
          let (s, request) := s.ask inquiry.token
          { s with
            inquiries := s.inquiries.set number { inquiry with request := some request, again } }

/-- One step of a task, if it does not have to wait. -/
def stepTask (s : Schedule) (task : Task) : Option Schedule :=
  match task with
  | .inquiry number => s.hear number
  | task => (s.nextEvent task).bind s.perform

/-- Lets a task run until it has to wait. -/
def runTask (task : Task) : Nat → Schedule → Schedule
  | 0, s => s
  | fuel + 1, s =>
    match s.stepTask task with
    | some s => runTask task fuel s
    | none => s

/-! ## Work that is left -/

/-- A bound on the steps that a worker takes, apart from those for its mailbox. -/
def phaseLoad : WorkerPhase → Nat
  | .spawned => 8
  | .reading _ => 7
  | .found .. => 6
  | .waiting _ => 4
  | .closing => 3
  | .drained => 2
  | .ended => 0
  | .crashed => 0

/-- A bound on the steps that an inquiry takes and gives rise to. -/
def inquiryLoad (i : Inquiry) : Nat := if i.request.isSome then 10 * i.again + 1 else 0

/-- A bound on the steps that a reading takes and gives rise to. -/
def readingLoad (endOffset : Nat) (r : Reading) : Nat :=
  match r.phase with
  | .fresh => endOffset + 12
  | .asking _ => endOffset + 2
  | .collecting reader _ => endOffset - reader.position + 1
  | .finished _ => 0

/-- A bound on the steps of the policy stage for the entry that it works on, if each entry of the
output topic gives rise to so many. -/
def accessLoad (outputLoad : Nat) : AccessWork → Nat
  | .deciding .. => outputLoad + 6
  | .granted _ => outputLoad + 5
  | .recording .. => outputLoad + 4
  | .publishing _ => outputLoad + 2
  | .reporting .. => 2
  | _ => 1

/-- A bound on the steps of the offset stage for the entry that it works on. -/
def indexLoad : IndexWork → Nat
  | .recording _ => 4
  | .announcing _ => 3
  | _ => 1

/-- A bound on the steps of a consumer. -/
def consumerLoad {ω : Type} (workLoad : ω → Nat) (entryLoad endOffset : Nat)
    (consumer : Option (Consumer ω)) : Nat :=
  match consumer with
  | none => 0
  | some c =>
    match c.state with
    | .idle => (endOffset - c.reader.position) * entryLoad + 1
    | .busy _ work => (endOffset - c.reader.position) * entryLoad + 1 + workLoad work
    | .over _ => 0

/-- The sum of a bound over a list. -/
def totalLoad {α : Type} (bound : α → Nat) : List α → Nat
  | [] => 0
  | a :: rest => bound a + totalLoad bound rest

/-- A bound on the steps that all tasks together can take. -/
def load (s : Schedule) : Nat :=
  let p := s.pipeline
  let c := p.coordinator
  let outputLoad := p.readings.length + 5
  totalLoad (fun worker => phaseLoad worker.phase + worker.mailbox.length) c.workers
    + c.exits.length
    + totalLoad inquiryLoad s.inquiries
    + totalLoad (readingLoad p.output.endOffset) p.readings
    + consumerLoad indexLoad 5 p.output.endOffset p.index
    + consumerLoad (accessLoad outputLoad) (outputLoad + 7) p.requests.endOffset p.access

/-! ## Turns of all tasks -/

/-- All tasks of a run. -/
def tasks (s : Schedule) : List Task :=
  (List.range s.inquiries.length).map .inquiry
    ++ (List.range s.pipeline.readings.length).map .reading
    ++ (List.range s.pipeline.coordinator.workers.length).map .worker
    ++ [.access, .index, .reaper]

/-- Whether a task does not have to wait. -/
def isReady (s : Schedule) (task : Task) : Bool := (s.stepTask task).isSome

/-- Queues the tasks that have become ready. -/
def wake (s : Schedule) : Schedule :=
  { s with
    ready := s.ready ++ (s.tasks.filter fun task => s.isReady task && !s.ready.contains task) }

/-- Gives the tasks in the queue their turns. -/
def runReady : Nat → Schedule → Schedule
  | 0, s => s
  | fuel + 1, s =>
    match s.ready with
    | [] => s
    | task :: rest =>
      runReady fuel (runTask task s.load { s with ready := rest }).wake

/-- Runs all tasks until each has to wait. -/
def settle (s : Schedule) : Schedule :=
  let s := s.wake
  runReady (s.load + s.ready.length + 1) s

/-! ## The clock -/

/-- The first full millisecond that is not before a point in time: timers go by these. -/
def roundUp (t : Instant) : Instant := ⟨(t.nanos + 999999) / 1000000 * 1000000⟩

/-- The points in time that the workers wait for. -/
def timers (s : Schedule) : List Instant :=
  s.pipeline.coordinator.workers.zipIdx.flatMap fun (worker, place) =>
    let due := match worker.phase with
      | .reading _ => (s.due? place).toList
      | _ => []
    (due ++ worker.deadline?.toList).map roundUp

/-- The next point in time at which a timer ends. -/
def nextTimer? (s : Schedule) : Option Instant :=
  (s.timers.filter fun t => s.now < t).foldl (fun best t =>
    match best with
    | some b => if t < b then some t else best
    | none => some t) none

/-- Moves the clock forward to a point in time. -/
def setNow (s : Schedule) (t : Instant) : Schedule :=
  (s.perform (.wait ⟨t.nanos - s.now.nanos⟩)).getD s

/-- Lets all timers up to a point in time end, each at its own time. -/
def runTimers (target : Instant) : Nat → Schedule → Schedule
  | 0, s => s
  | fuel + 1, s =>
    match s.nextTimer? with
    | some t => if t ≤ target then runTimers target fuel (s.setNow t).settle else s
    | none => s

/-- Lets time pass. -/
def advance (s : Schedule) (elapsed : Duration) : Schedule :=
  let s := s.settle
  let target := s.now.plus elapsed
  ((runTimers target (s.load + 1) s).setNow target).settle

/-- Lets timers end until something has happened. -/
def runUntil (happened : Schedule → Bool) : Nat → Schedule → Schedule
  | 0, s => s
  | fuel + 1, s =>
    if happened s then s
    else match s.nextTimer? with
      | some t => runUntil happened fuel (s.setNow t).settle
      | none => s

/-- Waits for something to happen; the clock goes on as far as it must. -/
def await (s : Schedule) (happened : Schedule → Bool) : Schedule :=
  let s := s.settle
  runUntil happened (s.load + 1) s

/-! ## Clients -/

/-- A client asks for the offset of a token, and again so many times when it has it. -/
def inquire (s : Schedule) (token : Token) (again : Nat) : Schedule :=
  let (s, request) := s.ask token
  { s with inquiries := s.inquiries ++ [Inquiry.mk token (some request) again] }.wake

/-- A client begins to read what a token was granted. -/
def read (s : Schedule) (token : Token) : Schedule :=
  ((s.perform (.read token)).getD s).wake

/-- A client registers a request under a fresh token. -/
def register (s : Schedule) (token : Token) (request : DataRequest) :
    Schedule × Except StageError Token :=
  let p := s.pipeline
  let (registration, requests, errors) :=
    Registration.run p.ingressReporter Registration.maxSteps (.new token request)
      p.requests p.errors
  let registrations := p.registrations ++ [registration]
  ({ s with pipeline := { p with requests, errors, registrations } }.wake,
    registration.result?.getD (.ok token))

/-- A client waits for what a token was granted. -/
def resources (s : Schedule) (token : Token) :
    Schedule × Option (Except StageError (List AuthorisedResource)) :=
  let number := s.pipeline.readings.length
  let result? (s : Schedule) := (s.pipeline.readings[number]?).bind Reading.result?
  let s := (s.read token).await fun s => (result? s).isSome
  (s, result? s)

def activeWorkers (s : Schedule) : Nat := s.pipeline.coordinator.activeWorkers

theorem now_setNow {s : Schedule} {t : Instant} (h : s.now ≤ t) : (s.setNow t).now = t := by
  obtain ⟨n⟩ := t
  have h : s.pipeline.now.nanos ≤ n := h
  show (⟨s.pipeline.now.nanos + (n - s.pipeline.now.nanos)⟩ : Instant) = ⟨n⟩
  congr 1
  omega

end Schedule

end PolicyGate
