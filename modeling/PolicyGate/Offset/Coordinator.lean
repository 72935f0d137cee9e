import PolicyGate.Offset.Worker
import PolicyGate.Sorted.Map

/-!
The coordinator of offset requests: it keeps the worker of every token, hands requests, pushes and
cancellations to it, and forgets it when its run is over. A worker is given a number, its
generation, when it is spawned. Everything that can happen is one of its steps, in any order. Main
statements: a request gets a number of its own, and reaping forgets a worker only if no later one
has taken its place.
-/

namespace PolicyGate

/-- The counts that the coordinator keeps. -/
structure OffsetMetrics where
  active : Int
  requests : Nat
  success : Nat
  failure : Nat
  deriving DecidableEq, Repr, Inhabited

namespace OffsetMetrics

def zero : OffsetMetrics := ⟨0, 0, 0, 0⟩

/-- Counts replies by their outcome. -/
def countReplies (m : OffsetMetrics) (answers : Answers) : OffsetMetrics :=
  { m with
    success := m.success + (answers.filter fun answer => answer.2.isOk).length
    failure := m.failure + (answers.filter fun answer => !answer.2.isOk).length }

end OffsetMetrics

/-- What the coordinator keeps of a worker. -/
structure WorkerHandle where
  /-- the place of the worker whose mailbox it leads to -/
  mailbox : Nat
  generation : Nat
  deriving DecidableEq, Repr

structure Coordinator where
  timeout : Duration
  /-- the number that was given last -/
  generation : Nat
  /-- all workers ever spawned -/
  workers : List Worker
  /-- the handle of the worker of every token that has one -/
  mapped : SortedMap WorkerHandle
  /-- the messages that nobody has acted on yet -/
  exits : List WorkerExit
  /-- the token of every request, by the number of the request -/
  requests : List Token
  /-- all answers in their order -/
  answers : Answers
  metrics : OffsetMetrics

namespace Coordinator

/-- The coordinator without workers. -/
def new (timeout : Duration) : Coordinator := ⟨timeout, 0, [], ∅, [], [], [], .zero⟩

def activeWorkers (c : Coordinator) : Nat := c.mapped.size

def hasWorker (c : Coordinator) (token : Token) : Bool := c.mapped.contains token.text

def answersTo (c : Coordinator) (request : Nat) : List OffsetReply :=
  (c.answers.filter fun answer => answer.1 = request).map Prod.snd

/-- The answer to a request, if there is one. -/
def answerTo? (c : Coordinator) (request : Nat) : Option OffsetReply := (c.answersTo request).head?

/-- Sends a command to a worker, if its mailbox takes any. -/
def send (c : Coordinator) (place : Nat) (command : WorkerCommand) : Option Coordinator :=
  (c.workers[place]?).bind fun worker =>
    (worker.send command).map fun worker =>
      { c with workers := c.workers.set place worker }

/-- Spawns the worker of a token for its first request, with the next number. -/
def spawn (c : Coordinator) (token : Token) (request : Nat) : Coordinator :=
  { c with
    generation := c.generation + 1
    workers := c.workers ++ [.new token (c.generation + 1) request]
    mapped := c.mapped.insert token.text ⟨c.workers.length, c.generation + 1⟩
    metrics := { c.metrics with active := c.metrics.active + 1 } }

/-- Asks for the offset of a token: joins its worker, or spawns one if there is none that takes
commands. -/
def request (c : Coordinator) (token : Token) : Coordinator :=
  let number := c.requests.length
  let c := { c with
    requests := c.requests ++ [token]
    metrics := { c.metrics with requests := c.metrics.requests + 1 } }
  let joined := (c.mapped.get? token.text).bind fun handle =>
    c.send handle.mailbox (.subscribe number)
  joined.getD (c.spawn token number)

/-- Sends a command to the worker of a token; whether it took it. -/
def tell (c : Coordinator) (token : Token) (command : WorkerCommand) : Coordinator × Bool :=
  match (c.mapped.get? token.text).bind fun handle => c.send handle.mailbox command with
  | some c => (c, true)
  | none => (c, false)

/-- Pushes an offset to the worker of its token; whether there is one. -/
def available (c : Coordinator) (offset : TokenOffset) : Coordinator × Bool :=
  c.tell offset.token (.push offset)

/-- Cancels the worker of a token; whether there is one. -/
def cancel (c : Coordinator) (token : Token) (reason : String) : Coordinator × Bool :=
  c.tell token (.cancel reason)

/-- The reason that workers are given when the coordinator shuts down. -/
def shutdownReason : String := "coordinator shutting down"

/-- Cancels all workers; the number of those that took it. -/
def shutdown (c : Coordinator) : Coordinator × Nat :=
  c.mapped.toList.foldl (fun (c, count) (_, handle) =>
    match c.send handle.mailbox (.cancel shutdownReason) with
    | some c => (c, count + 1)
    | none => (c, count)) (c, 0)

/-- Lets a worker take a step; the answers are counted and kept. -/
def turn (c : Coordinator) (place : Nat) (f : Worker → Option (Worker × Answers)) :
    Option Coordinator :=
  (c.workers[place]?).bind fun worker => (f worker).map fun (worker, answers) =>
    { c with
      workers := c.workers.set place worker
      answers := c.answers ++ answers
      metrics := c.metrics.countReplies answers }

/-- Lets a worker die. What its subscribers learn is no reply and is not counted. -/
def crash (c : Coordinator) (place : Nat) : Option Coordinator :=
  (c.turn place Worker.crash).map fun after => { after with metrics := c.metrics }

/-- Lets a worker start; it dies if the clock cannot hold its deadline. -/
def start (c : Coordinator) (place : Nat) (now : Instant) : Option Coordinator :=
  (c.turn place fun worker => worker.start now c.timeout).map fun after =>
    { after with metrics := c.metrics }

/-- Lets the store answer a worker. -/
def read (c : Coordinator) (place : Nat) (answer : Except StoreError (Option TokenOffset)) :
    Option Coordinator :=
  c.turn place fun worker => worker.read answer

/-- Lets a worker act on the answer of the store. -/
def resolve (c : Coordinator) (place : Nat) : Option Coordinator :=
  c.turn place Worker.resolve

/-- Lets the deadline of a worker pass. -/
def expire (c : Coordinator) (place : Nat) (now : Instant) : Option Coordinator :=
  c.turn place fun worker => worker.expire now c.timeout

/-- Lets a worker handle a command. -/
def handle (c : Coordinator) (place : Nat) : Option Coordinator :=
  c.turn place Worker.handle

/-- Whether the coordinator has a sender of the mailbox of a worker. -/
def holds (c : Coordinator) (place : Nat) : Bool :=
  c.mapped.toList.any fun (_, handle) => handle.mailbox = place

/-- Lets a worker find out that nobody has a sender of its mailbox. -/
def hangUp (c : Coordinator) (place : Nat) : Option Coordinator :=
  if c.holds place then none else c.turn place Worker.hangUp

/-- Lets a worker close its mailbox. -/
def drain (c : Coordinator) (place : Nat) : Option Coordinator := c.turn place Worker.drain

/-- Lets the run of a worker end, and sends the message about it. Those who are dropped get no
reply. -/
def leave (c : Coordinator) (place : Nat) : Option Coordinator :=
  (c.workers[place]?).bind fun worker =>
    (c.turn place Worker.leave).map fun after =>
      { after with
        exits := c.exits ++ [worker.exit]
        metrics := { c.metrics with active := c.metrics.active - 1 } }

/-- Acts on a message, with those that are left: the worker is forgotten unless a later one has
taken its place. -/
def forget (c : Coordinator) (exit : WorkerExit) (rest : List WorkerExit) : Coordinator :=
  { c with
    exits := rest
    mapped :=
      if (c.mapped.get? exit.token.text).any fun handle => handle.generation = exit.generation
      then c.mapped.erase exit.token.text else c.mapped }

/-- Acts on the first message. -/
def reap (c : Coordinator) : Option Coordinator :=
  match c.exits with
  | [] => none
  | exit :: rest => some (c.forget exit rest)

/-- What can happen to a coordinator. -/
inductive Event where
  | request (token : Token)
  | available (offset : TokenOffset)
  | cancel (token : Token) (reason : String)
  | shutdown
  | start (place : Nat) (now : Instant)
  | read (place : Nat) (answer : Except StoreError (Option TokenOffset))
  | resolve (place : Nat)
  | expire (place : Nat) (now : Instant)
  | handle (place : Nat)
  | hangUp (place : Nat)
  | drain (place : Nat)
  | leave (place : Nat)
  | crash (place : Nat)
  | reap

/-- One step; nothing if it is not due. -/
def step (c : Coordinator) : Event → Option Coordinator
  | .request token => some (c.request token)
  | .available offset => some (c.available offset).1
  | .cancel token reason => some (c.cancel token reason).1
  | .shutdown => some c.shutdown.1
  | .start place now => c.start place now
  | .read place answer => c.read place answer
  | .resolve place => c.resolve place
  | .expire place now => c.expire place now
  | .handle place => c.handle place
  | .hangUp place => c.hangUp place
  | .drain place => c.drain place
  | .leave place => c.leave place
  | .crash place => c.crash place
  | .reap => c.reap

theorem requests_send {c c' : Coordinator} {place : Nat} {command : WorkerCommand}
    (h : c.send place command = some c') : c'.requests = c.requests := by
  simp only [send, Option.bind_eq_some_iff, Option.map_eq_some_iff] at h
  obtain ⟨_, _, _, _, rfl⟩ := h
  rfl

theorem requests_request (c : Coordinator) (token : Token) :
    (c.request token).requests = c.requests ++ [token] := by
  simp only [request]
  generalize hj : Option.bind _ _ = joined
  cases joined with
  | none => rfl
  | some joined =>
    obtain ⟨_, _, hs⟩ := Option.bind_eq_some_iff.1 hj
    exact requests_send hs

theorem mapped_forget_of_ne {c : Coordinator} {exit : WorkerExit} (rest : List WorkerExit)
    (hne : ∀ handle, c.mapped.get? exit.token.text = some handle →
      handle.generation ≠ exit.generation) : (c.forget exit rest).mapped = c.mapped := by
  cases hk : c.mapped.get? exit.token.text with
  | none => simp [forget, hk]
  | some handle => simp [forget, hk, hne handle hk]

end Coordinator

end PolicyGate
