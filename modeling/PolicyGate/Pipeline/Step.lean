import PolicyGate.Pipeline.Stages

/-!
Everything that can happen to a pipeline, as single steps that may come in any order: clients
register requests and read results, stages and workers go on, stores answer or fail, policies
change, topics are closed, and time passes. Main statement: a step that only looks up an offset
leaves the topics as they are.
-/

namespace PolicyGate

namespace Pipeline

/-- What can happen to a pipeline. -/
inductive Event where
  /-- a client begins to register a request under a fresh token -/
  | register (token : Token) (request : DataRequest)
  /-- a registration goes on -/
  | registration (number : Nat)
  /-- a client begins to read what a token was granted -/
  | read (token : Token)
  /-- a reading goes on -/
  | reading (number : Nat)
  /-- the policy stage goes on; a write may be made to fail -/
  | access (fault : Option StoreError)
  /-- the offset stage goes on; a write may be made to fail -/
  | index (fault : Option StoreError)
  /-- a client asks for an offset -/
  | ask (token : Token)
  /-- the offset of a token is announced to its worker -/
  | announce (offset : TokenOffset)
  | cancel (token : Token) (reason : String)
  | workerStart (place : Nat)
  /-- the store answers a worker; the look-up may be made to fail -/
  | workerLookup (place : Nat) (fault : Option StoreError)
  | workerResolve (place : Nat)
  | workerExpire (place : Nat)
  | workerHandle (place : Nat)
  | workerHangUp (place : Nat)
  | workerDrain (place : Nat)
  | workerLeave (place : Nat)
  | workerCrash (place : Nat)
  | reap
  | setResourceRules (resource : ResourceId) (rules : ResourceRules)
  | setRecordRules (resource : ResourceId) (rules : RecordRules)
  /-- time passes -/
  | wait (elapsed : Duration)
  | closeRequests
  | closeOutput
  | closeErrors
  | shutdownCoordinator

/-- The coordinator after a step of its own, if it is due. -/
def stepCoordinator (p : Pipeline) (e : Coordinator.Event) : Option Pipeline :=
  (p.coordinator.step e).map fun coordinator => { p with coordinator }

/-- The store answers the worker of a place. -/
def stepLookup (p : Pipeline) (place : Nat) (fault : Option StoreError) : Option Pipeline :=
  (p.coordinator.workers[place]?).bind fun worker =>
    let (answer, offsets) := match fault with
      | some e => (.error e, p.offsets)
      | none => p.offsets.get TokenOffset.recordType p.now worker.token.text
    (p.coordinator.read place answer).map fun coordinator => { p with coordinator, offsets }

/-- A registration goes on. -/
def stepRegistration (p : Pipeline) (number : Nat) : Option Pipeline :=
  (p.registrations[number]?).bind fun registration =>
    (registration.step p.ingressReporter p.requests p.errors).map
      fun (registration, requests, errors) =>
        { p with requests, errors, registrations := p.registrations.set number registration }

/-- A reading goes on: it asks for the offset, hears the answer, or reads an entry. -/
def stepReading (p : Pipeline) (number : Nat) : Option Pipeline :=
  (p.readings[number]?).bind fun reading =>
    let keep (reading : Reading) : Pipeline := { p with readings := p.readings.set number reading }
    match reading.phase with
    | .fresh =>
      (reading.ask p.coordinator).map fun (reading, coordinator) =>
        { keep reading with coordinator }
    | .asking _ => (reading.hear p.wiring.boundary p.coordinator p.output).map keep
    | .collecting .. => (reading.readNext p.output).map keep
    | .finished _ => none

/-- One step; nothing if it is not due. -/
def step (p : Pipeline) : Event → Option Pipeline
  | .register token request =>
    some { p with registrations := p.registrations ++ [.new token request] }
  | .registration number => p.stepRegistration number
  | .read token => some { p with readings := p.readings ++ [.new token] }
  | .reading number => p.stepReading number
  | .access fault => p.stepAccess fault
  | .index fault => p.stepIndex fault
  | .ask token => p.stepCoordinator (.request token)
  | .announce offset => p.stepCoordinator (.available offset)
  | .cancel token reason => p.stepCoordinator (.cancel token reason)
  | .workerStart place => p.stepCoordinator (.start place p.now)
  | .workerLookup place fault => p.stepLookup place fault
  | .workerResolve place => p.stepCoordinator (.resolve place)
  | .workerExpire place => p.stepCoordinator (.expire place p.now)
  | .workerHandle place => p.stepCoordinator (.handle place)
  | .workerHangUp place => p.stepCoordinator (.hangUp place)
  | .workerDrain place => p.stepCoordinator (.drain place)
  | .workerLeave place => p.stepCoordinator (.leave place)
  | .workerCrash place => p.stepCoordinator (.crash place)
  | .reap => p.stepCoordinator .reap
  | .setResourceRules resource rules =>
    some { p with policies := (p.policies.setResourceRules resource rules).2 }
  | .setRecordRules resource rules =>
    some { p with policies := (p.policies.setRecordRules resource rules).2 }
  | .wait elapsed =>
    some { p with
      now := p.now.plus elapsed
      authorised := p.authorised.advance p.now elapsed
      offsets := p.offsets.advance p.now elapsed }
  | .closeRequests => some { p with requests := p.requests.close }
  | .closeOutput => some { p with output := p.output.close }
  | .closeErrors => some { p with errors := p.errors.close }
  | .shutdownCoordinator => p.stepCoordinator .shutdown

/-- All states that steps can reach from a pipeline. -/
inductive Reachable (p : Pipeline) : Pipeline → Prop where
  | refl : Reachable p p
  | step {q r : Pipeline} (e : Event) (h : Reachable p q) (hs : q.step e = some r) : Reachable p r

theorem output_stepLookup {p q : Pipeline} {place : Nat} {fault : Option StoreError}
    (h : p.stepLookup place fault = some q) : q.output = p.output := by
  simp only [stepLookup, Option.bind_eq_some_iff, Option.map_eq_some_iff] at h
  obtain ⟨_, _, _, _, rfl⟩ := h
  rfl

end Pipeline

end PolicyGate
