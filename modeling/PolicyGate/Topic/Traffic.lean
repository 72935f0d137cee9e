import PolicyGate.Topic.Log

/-!
The traffic on a topic whose users take their steps in any order. A publisher checks that the topic
is open, adds its entry and signals it. A closer closes the topic and signals that. A reader marks
the version that it sees, reads at its position, checks whether the topic is closed, and waits for a
version that it has not seen. Main statements: steps that nothing comes between come to publishing,
closing and reading as a whole, and readers leave the log as it is.
-/

namespace PolicyGate

variable {α : Type}

/-- Where a publisher stands. -/
inductive PublisherPhase (α : Type) where
  | checking (envelope : Envelope α)
  | appending (envelope : Envelope α)
  | signalling (offset : Nat)
  | published (offset : Nat)
  | refused (error : TopicClosed)

/-- Where a closer stands. -/
inductive CloserPhase where
  | closing
  | signalling
  | closed
  deriving DecidableEq, Repr

/-- Where a reader stands. -/
inductive ReaderPhase where
  | looking
  | reading
  | checking
  | waiting
  | ended
  deriving DecidableEq, Repr

/-- A reader that reads on and on. -/
structure ReaderTask (α : Type) where
  /-- the offset at which it started -/
  start : Int
  reader : Reader
  phase : ReaderPhase
  /-- what it has got so far -/
  yielded : List (Entry α)

namespace PublisherPhase

def step (p : PublisherPhase α) (l : Log α) : Option (PublisherPhase α × Log α) :=
  match p with
  | checking envelope =>
    some (if l.isClosed then refused l.closedError else appending envelope, l)
  | appending envelope => some (signalling l.endOffset, l.append envelope)
  | signalling offset => some (published offset, l.signal (offset + 1))
  | published _ => none
  | refused _ => none

/-- Whether publishing has succeeded or is sure to succeed. -/
def isAccepted : PublisherPhase α → Bool
  | checking _ => false
  | refused _ => false
  | _ => true

end PublisherPhase

namespace CloserPhase

def step (c : CloserPhase) (l : Log α) : Option (CloserPhase × Log α) :=
  match c with
  | closing => some (signalling, l.markClosed)
  | signalling => some (closed, l.signalAgain)
  | closed => none

end CloserPhase

namespace ReaderTask

/-- A reader from an offset on. -/
def new (l : Log α) (start : Int) : ReaderTask α := ⟨start, .new l start, .looking, []⟩

/-- A step of a reader; one that waits only goes on when there is news. -/
def step (r : ReaderTask α) (l : Log α) : Option (ReaderTask α) :=
  match r.phase with
  | .looking => some { r with reader := r.reader.look l, phase := .reading }
  | .reading =>
    match l.read r.reader.position with
    | some entry =>
      some { r with
        reader := { r.reader with position := r.reader.position + 1 }
        phase := .looking
        yielded := r.yielded ++ [entry] }
    | none => some { r with phase := .checking }
  | .checking => some { r with phase := if l.isClosed then .ended else .waiting }
  | .waiting => if r.reader.hasNews l then some { r with phase := .looking } else none
  | .ended => none

end ReaderTask

/-- A topic with all its users. -/
structure Traffic (α : Type) where
  log : Log α
  publishers : List (PublisherPhase α)
  closers : List CloserPhase
  readers : List (ReaderTask α)

namespace Traffic

/-- What can happen on a topic: a user comes, or one that is there takes a step. -/
inductive Event (α : Type) where
  | publish (envelope : Envelope α)
  | close
  | attach (start : Int)
  | publisher (place : Nat)
  | closer (place : Nat)
  | reader (place : Nat)

/-- A topic without users. -/
def new (name : String) : Traffic α := ⟨.new name, [], [], []⟩

/-- The topic after something happened, if it can happen. -/
def step (t : Traffic α) : Event α → Option (Traffic α)
  | .publish envelope => some { t with publishers := t.publishers ++ [.checking envelope] }
  | .close => some { t with closers := t.closers ++ [.closing] }
  | .attach start => some { t with readers := t.readers ++ [.new t.log start] }
  | .publisher place => do
    let (publisher, log) ← (← t.publishers[place]?).step t.log
    return { t with log, publishers := t.publishers.set place publisher }
  | .closer place => do
    let (closer, log) ← (← t.closers[place]?).step t.log
    return { t with log, closers := t.closers.set place closer }
  | .reader place => do
    let reader ← (← t.readers[place]?).step t.log
    return { t with readers := t.readers.set place reader }

/-- What can come of a topic without users, in any order of steps. -/
inductive Reachable (name : String) : Traffic α → Prop where
  | start : Reachable name (new name)
  | step {t t' : Traffic α} {e : Event α} :
      Reachable name t → t.step e = some t' → Reachable name t'

theorem log_of_step_reader {t t' : Traffic α} {place : Nat}
    (h : t.step (.reader place) = some t') : t'.log = t.log := by
  obtain ⟨r, _, h⟩ := Option.bind_eq_some_iff.1 h
  obtain ⟨r', _, h⟩ := Option.bind_eq_some_iff.1 h
  cases h
  rfl

end Traffic

/-- The three steps of a publisher on an open topic publish its entry. -/
theorem publish_of_steps {l : Log α} {envelope : Envelope α} (h : l.isClosed = false) :
    ((PublisherPhase.checking envelope).step l).bind (fun (p, l) =>
      (p.step l).bind fun (p, l) => p.step l) =
      (l.publish envelope).toOption.map fun (offset, l) => (.published offset, l) := by
  simp [PublisherPhase.step, Log.publish, h, Except.toOption]

/-- The two steps of a closer close the topic. -/
theorem close_of_steps (l : Log α) :
    (CloserPhase.closing.step l).bind (fun (c, l) => c.step l) = some (.closed, l.close) := rfl

/-- The first two steps of a reader yield the entry at its position. -/
theorem yielded_of_steps {l : Log α} {r : ReaderTask α} {entry : Entry α}
    (hr : r.phase = .looking) (h : l.read r.reader.position = some entry) :
    ((r.step l).bind fun r => r.step l) =
      some ⟨r.start, (r.reader.next l).2, .looking, r.yielded ++ [entry]⟩ := by
  simp [ReaderTask.step, hr, Reader.next, Reader.look, h]

end PolicyGate
