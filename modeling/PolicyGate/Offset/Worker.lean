import PolicyGate.Offset.Basic
import PolicyGate.Time.Instant

/-!
The worker of one token: it looks the offset up, waits for a push if there is none yet, and answers
all who asked with the first outcome it reaches. Then it closes its mailbox, answers those who are
left in it, and is dropped. Each function takes one step and gives the answers of that step; nothing
stands for a step that is not due. Main statement: a step that decides answers every subscriber
alike.
-/

namespace PolicyGate

/-- What a worker is told. -/
inductive WorkerCommand where
  /-- one more request wants the offset -/
  | subscribe (request : Nat)
  /-- the offset of a token is known -/
  | push (offset : TokenOffset)
  | cancel (reason : String)
  deriving DecidableEq, Repr

/-- What a worker has come to. -/
inductive WorkerPhase where
  | spawned
  /-- it waits for the store -/
  | reading (deadline : Instant)
  /-- the store has answered -/
  | found (deadline : Instant) (answer : Except StoreError (Option TokenOffset))
  /-- it waits for commands -/
  | waiting (deadline : Instant)
  /-- it waits for nothing any more, but its mailbox still takes commands -/
  | closing
  /-- its mailbox is closed -/
  | drained
  /-- its run is over -/
  | ended
  /-- it died -/
  | crashed

structure Worker where
  token : Token
  /-- its number among all workers -/
  generation : Nat
  phase : WorkerPhase
  /-- what it answers, once it knows -/
  outcome : Option OffsetReply
  /-- whether it holds a sender of its own mailbox -/
  hasSender : Bool
  /-- the commands that it has not yet handled -/
  mailbox : List WorkerCommand
  /-- the requests that wait for its outcome -/
  subscribers : List Nat

/-- The message that the run of a worker is over. -/
structure WorkerExit where
  token : Token
  generation : Nat
  /-- whether it had an offset to give -/
  delivered : Bool
  deriving DecidableEq, Repr

/-- The answers of a step, by request. -/
abbrev Answers := List (Nat × OffsetReply)

/-- The requests among commands. -/
def WorkerCommand.requests (commands : List WorkerCommand) : List Nat :=
  commands.filterMap fun
    | .subscribe request => some request
    | _ => none

namespace Worker

/-- A worker for the first request about a token. -/
def new (token : Token) (generation request : Nat) : Worker :=
  ⟨token, generation, .spawned, none, true, [], [request]⟩

/-- Whether the mailbox takes commands. -/
def isOpen (w : Worker) : Bool :=
  match w.phase with
  | .drained => false
  | .ended => false
  | .crashed => false
  | _ => true

/-- Whether the run of the worker is over. -/
def isOver (w : Worker) : Bool :=
  match w.phase with
  | .ended => true
  | .crashed => true
  | _ => false

/-- The requests that a worker has yet to answer. -/
def pending (w : Worker) : List Nat := w.subscribers ++ WorkerCommand.requests w.mailbox

/-- The message of a worker whose run is over. -/
def exit (w : Worker) : WorkerExit := ⟨w.token, w.generation, w.outcome.any fun o => o.isOk⟩

/-- Puts a command into the mailbox, if it takes any. -/
def send (w : Worker) (command : WorkerCommand) : Option Worker :=
  if w.isOpen then some { w with mailbox := w.mailbox ++ [command] } else none

/-- Gives all subscribers an outcome, and waits for nothing any more. -/
def deliver (w : Worker) (outcome : OffsetReply) : Worker × Answers :=
  ({ w with phase := .closing, outcome := some outcome, subscribers := [] },
    w.subscribers.map (·, outcome))

/-- Drops all that a worker holds: those who still wait get to know that the worker is lost. -/
def drop (w : Worker) (phase : WorkerPhase) : Worker × Answers :=
  ({ w with phase, hasSender := false, mailbox := [], subscribers := [] },
    w.pending.map (·, .error (.workerLost w.token)))

/-- Dies. -/
def crash (w : Worker) : Option (Worker × Answers) :=
  if w.isOver then none else some (w.drop .crashed)

/-- Starts to run. A worker dies if the clock cannot hold its deadline. -/
def start (w : Worker) (now : Instant) (timeout : Duration) : Option (Worker × Answers) :=
  match w.phase with
  | .spawned =>
    match now.after? timeout with
    | some deadline => some ({ w with phase := .reading deadline }, [])
    | none => w.crash
  | _ => none

/-- Takes the answer of the store. -/
def read (w : Worker) (answer : Except StoreError (Option TokenOffset)) :
    Option (Worker × Answers) :=
  match w.phase with
  | .reading deadline => some ({ w with phase := .found deadline answer }, [])
  | _ => none

/-- Acts on the answer of the store: an offset goes through the mailbox like a push from outside. -/
def resolve (w : Worker) : Option (Worker × Answers) :=
  match w.phase with
  | .found deadline (.ok (some offset)) =>
    some ({ w with phase := .waiting deadline, mailbox := w.mailbox ++ [.push offset] }, [])
  | .found deadline (.ok none) => some ({ w with phase := .waiting deadline }, [])
  | .found _ (.error e) => some (w.deliver (.error (.lookup e)))
  | _ => none

/-- The deadline of a worker that waits for anything. -/
def deadline? (w : Worker) : Option Instant :=
  match w.phase with
  | .reading deadline => some deadline
  | .waiting deadline => some deadline
  | _ => none

/-- Gives up at the deadline. -/
def expire (w : Worker) (now : Instant) (timeout : Duration) : Option (Worker × Answers) :=
  match w.deadline? with
  | some deadline =>
    if deadline ≤ now then some (w.deliver (.error (.timedOut w.token timeout))) else none
  | none => none

/-- Handles the first command of the mailbox. An offset of another token changes nothing. -/
def handle (w : Worker) : Option (Worker × Answers) :=
  match w.phase, w.mailbox with
  | .waiting _, command :: rest =>
    let w := { w with mailbox := rest }
    match command with
    | .subscribe request => some ({ w with subscribers := w.subscribers ++ [request] }, [])
    | .push offset => if offset.token = w.token then some (w.deliver (.ok offset)) else some (w, [])
    | .cancel reason => some (w.deliver (.error (.cancelled w.token reason)))
  | _, _ => none

/-- Gives up because nothing can come any more: the mailbox is empty and nobody has a sender of it,
as far as the worker goes. -/
def hangUp (w : Worker) : Option (Worker × Answers) :=
  match w.phase, w.mailbox with
  | .waiting _, [] => if w.hasSender then none else some (w.deliver (.error (.workerLost w.token)))
  | _, _ => none

/-- Closes the mailbox and answers the requests that are left in it. Without an outcome, these stay
where they are. -/
def drain (w : Worker) : Option (Worker × Answers) :=
  match w.phase, w.outcome with
  | .closing, some outcome =>
    some ({ w with phase := .drained, mailbox := [] },
      (WorkerCommand.requests w.mailbox).map (·, outcome))
  | .closing, none => some ({ w with phase := .drained }, [])
  | _, _ => none

/-- Ends the run. -/
def leave (w : Worker) : Option (Worker × Answers) :=
  match w.phase with
  | .drained => some (w.drop .ended)
  | _ => none

theorem mem_answers_deliver {w : Worker} {outcome : OffsetReply} {answer : Nat × OffsetReply} :
    answer ∈ (w.deliver outcome).2 ↔ answer.1 ∈ w.subscribers ∧ answer.2 = outcome := by
  simp only [deliver, List.mem_map]
  constructor
  · rintro ⟨_, h, rfl⟩
    exact ⟨h, rfl⟩
  · rintro ⟨h, rfl⟩
    exact ⟨_, h, rfl⟩

end Worker

end PolicyGate
