import PolicyGate.Pipeline.Step

/-!
The steps of a pipeline by what they change. Registrations, readings and the two consuming stages
have steps of their own, and every other event belongs to the coordinator or changes a single part.
Main statement: every step of a pipeline is one of these (`stepped`), so that an invariant needs a
look only at the parts that it is about.
-/

namespace PolicyGate

/-- A topic that takes an envelope is open, and adds it at its end. -/
theorem Log.publish_eq_ok {α : Type} {l l' : Log α} {e : Envelope α} {n : Nat}
    (h : l.publish e = .ok (n, l')) :
    l.isClosed = false ∧ n = l.endOffset ∧ l'.envelopes = l.envelopes ++ [e] := by
  unfold publish at h
  split at h
  · cases h
  · next hc =>
    cases h
    exact ⟨by simpa using hc, rfl, l.envelopes_append e⟩

namespace Reader

variable {α : Type} {r r' : Reader} {l : Log α}

theorem next_eq_entry {entry : Entry α} (h : r.next l = (.entry entry, r')) :
    l.read r.position = some entry ∧ r' = ⟨r.position + 1, l.version⟩ := by
  cases he : l.read r.position with
  | some => rw [position_next_of_read he] at h; cases h; exact ⟨rfl, rfl⟩
  | none =>
    rw [next_of_read_eq_none he] at h
    split at h <;> cases h

theorem next_eq_ended (h : r.next l = (.ended, r')) :
    l.read r.position = none ∧ l.isClosed ∧ r' = ⟨r.position, l.version⟩ := by
  cases he : l.read r.position with
  | some => rw [position_next_of_read he] at h; cases h
  | none =>
    rw [next_of_read_eq_none he] at h
    split at h
    · next hc => cases h; exact ⟨rfl, hc, rfl⟩
    · cases h

end Reader

/-- What can come of a step of a registration. -/
inductive Registration.Stepped (reporter : Reporter) (requests : Log DataRequest)
    (errors : Log AuditEvent) (r : Registration) :
    Registration → Log DataRequest → Log AuditEvent → Prop
  | accept : r.phase = .fresh → r.request.check = .ok () →
    Stepped reporter requests errors r
      { r with phase := .publishing (r.request.envelopes r.token) } requests errors
  | refuse {e} : r.phase = .fresh → r.request.check = .error e →
    Stepped reporter requests errors r { r with phase := .failing e } requests errors
  | publish {envelope rest n requests'} : r.phase = .publishing (envelope :: rest) →
    requests.publish envelope = .ok (n, requests') →
    Stepped reporter requests errors r { r with phase := .publishing rest } requests' errors
  | closed {envelope rest e} : r.phase = .publishing (envelope :: rest) →
    requests.publish envelope = .error e →
    Stepped reporter requests errors r { r with phase := .failing (.closed e) } requests errors
  | complete : r.phase = .publishing [] →
    Stepped reporter requests errors r { r with phase := .registered } requests errors
  | report {e} : r.phase = .failing e →
    Stepped reporter requests errors r { r with phase := .rejected e } requests
      (reporter.report errors r.token (some r.request) e)

/-- A registration takes no other steps than those that are listed. -/
theorem Registration.stepped {reporter : Reporter} {requests requests' : Log DataRequest}
    {errors errors' : Log AuditEvent} {r r' : Registration}
    (h : r.step reporter requests errors = some (r', requests', errors')) :
    r.Stepped reporter requests errors r' requests' errors' := by
  unfold step at h
  split at h
  · next hp =>
    split at h
    · next hc => cases h; exact .accept hp hc
    · next hc => cases h; exact .refuse hp hc
  · next hp => cases h; exact .complete hp
  · next hp =>
    split at h
    · next hl => cases h; exact .publish hp hl
    · next hl => cases h; exact .closed hp hl
  · next hp => cases h; exact .report hp
  · cases h
  · cases h

/-- What can come of a step of a reading. -/
inductive Reading.Stepped (boundary : Marker) (c : Coordinator) (output : Log AuthorisedResource)
    (r : Reading) : Reading → Coordinator → Prop
  | ask : r.phase = .fresh →
    Stepped boundary c output r { r with phase := .asking c.requests.length } (c.request r.token)
  | hear {request offset} : r.phase = .asking request →
    c.answerTo? request = some (.ok offset) →
    Stepped boundary c output r
      { r with phase := .collecting (.new output (startOffset boundary offset)) [] } c
  | fail {request e} : r.phase = .asking request → c.answerTo? request = some (.error e) →
    Stepped boundary c output r { r with phase := .finished (.error (.offset e)) } c
  | more {reader found entry found'} : r.phase = .collecting reader found →
    output.read reader.position = some entry →
    collect r.token found entry.envelope = .more found' →
    Stepped boundary c output r
      { r with phase := .collecting ⟨reader.position + 1, output.version⟩ found' } c
  | complete {reader found entry all} : r.phase = .collecting reader found →
    output.read reader.position = some entry →
    collect r.token found entry.envelope = .complete all →
    Stepped boundary c output r { r with phase := .finished (.ok all) } c
  | ended {reader found} : r.phase = .collecting reader found →
    output.read reader.position = none → output.isClosed →
    Stepped boundary c output r
      { r with phase := .finished (.error (.closed output.closedError)) } c

theorem Reading.stepped_of_readNext {output : Log AuthorisedResource} {r r' : Reading}
    (h : r.readNext output = some r') (boundary : Marker) (c : Coordinator) :
    r.Stepped boundary c output r' c := by
  unfold readNext at h
  split at h
  · next hp =>
    split at h
    · next hx =>
      obtain ⟨he, rfl⟩ := Reader.next_eq_entry hx
      cases h
      split
      · next hc => exact .more hp he hc
      · next hc => exact .complete hp he hc
    · next hx =>
      obtain ⟨he, hc, -⟩ := Reader.next_eq_ended hx
      cases h
      exact .ended hp he hc
    · cases h
  · cases h

namespace Pipeline

/-- What can come of a step of the policy stage: its store, the output and the errors, and the
consumer itself. -/
inductive AccessStepped (p : Pipeline) (fault : Option StoreError) : Consumer AccessWork →
    Store → Log AuthorisedResource → Log AuditEvent → Consumer AccessWork → Prop
  | take {reader entry} : p.requests.read reader.position = some entry →
    AccessStepped p fault ⟨reader, .idle⟩ p.authorised p.output p.errors
      ⟨⟨reader.position + 1, p.requests.version⟩,
        .busy entry.envelope.token (.ofEnvelope entry.envelope)⟩
  | drained {reader} : p.requests.read reader.position = none → p.requests.isClosed →
    AccessStepped p fault ⟨reader, .idle⟩ p.authorised p.output p.errors
      ⟨⟨reader.position, p.requests.version⟩, .over .drained⟩
  | next {reader t} : AccessStepped p fault ⟨reader, .busy t .done⟩ p.authorised p.output p.errors
      ⟨reader, .idle⟩
  | refused {reader t e} : AccessStepped p fault ⟨reader, .busy t (.refused e)⟩ p.authorised
      p.output p.errors ⟨reader, .over .refused⟩
  | crashed {reader t} : AccessStepped p fault ⟨reader, .busy t .crashed⟩ p.authorised p.output
      p.errors ⟨reader, .over .crashed⟩
  | decide {reader t token q} :
    AccessStepped p fault ⟨reader, .busy t (.deciding token q)⟩ p.authorised p.output p.errors
      ⟨reader, .busy t (.ofDecision token q (p.policies.decide p.users token q))⟩
  | lookUp {reader t g} :
    AccessStepped p fault ⟨reader, .busy t (.granted g)⟩ p.authorised p.output p.errors
      ⟨reader, .busy t (.recording g (p.policies.recordRules? g.request.resource))⟩
  | record {reader t g rules} :
    AccessStepped p fault ⟨reader, .busy t (.recording g rules)⟩
      ((p.putAuthorised fault (g.authorisation rules)).toOption.getD p.authorised) p.output p.errors
      ⟨reader, .busy t (.ofRecording g rules (p.putAuthorised fault (g.authorisation rules)))⟩
  | publish {reader t envelope n output} : p.output.publish envelope = .ok (n, output) →
    AccessStepped p fault ⟨reader, .busy t (.publishing envelope)⟩ p.authorised output p.errors
      ⟨reader, .busy t .done⟩
  | refuse {reader t envelope e} : p.output.publish envelope = .error e →
    AccessStepped p fault ⟨reader, .busy t (.publishing envelope)⟩ p.authorised p.output p.errors
      ⟨reader, .busy t (.refused e)⟩
  | report {reader t token q e} :
    AccessStepped p fault ⟨reader, .busy t (.reporting token q e)⟩ p.authorised p.output
      (p.accessReporter.report p.errors token (some q) e) ⟨reader, .busy t .done⟩

/-- What can come of a step of the offset stage: the store of offsets, the coordinator and the
errors, and the consumer itself. -/
inductive IndexStepped (p : Pipeline) (fault : Option StoreError) : Consumer IndexWork →
    Store → Coordinator → Log AuditEvent → Consumer IndexWork → Prop
  | take {reader entry} : p.output.read reader.position = some entry →
    IndexStepped p fault ⟨reader, .idle⟩ p.offsets p.coordinator p.errors
      ⟨⟨reader.position + 1, p.output.version⟩, .busy entry.envelope.token
        (.ofEnvelope p.wiring.boundary entry.offset entry.envelope)⟩
  | drained {reader} : p.output.read reader.position = none → p.output.isClosed →
    IndexStepped p fault ⟨reader, .idle⟩ p.offsets p.coordinator p.errors
      ⟨⟨reader.position, p.output.version⟩, .over .drained⟩
  | next {reader t o} : IndexStepped p fault ⟨reader, .busy t (.done (.ok o))⟩ p.offsets
      p.coordinator p.errors ⟨reader, .idle⟩
  | report {reader t e} : IndexStepped p fault ⟨reader, .busy t (.done (.error e))⟩ p.offsets
      p.coordinator (p.indexReporter.report p.errors t none e) ⟨reader, .idle⟩
  | crashed {reader t} : IndexStepped p fault ⟨reader, .busy t .crashed⟩ p.offsets p.coordinator
      p.errors ⟨reader, .over .crashed⟩
  | record {reader t o} : IndexStepped p fault ⟨reader, .busy t (.recording o)⟩
      ((p.putOffset fault o).toOption.getD p.offsets) p.coordinator p.errors
      ⟨reader, .busy t (.ofRecording o (p.putOffset fault o))⟩
  | announce {reader t o} : IndexStepped p fault ⟨reader, .busy t (.announcing o)⟩ p.offsets
      (p.coordinator.available o).1 p.errors ⟨reader, .busy t (.done (.ok (some o)))⟩

/-- The step of the coordinator that an event stands for. -/
def Event.command? (now : Instant) : Event → Option Coordinator.Event
  | .ask token => some (.request token)
  | .announce offset => some (.available offset)
  | .cancel token reason => some (.cancel token reason)
  | .workerStart place => some (.start place now)
  | .workerResolve place => some (.resolve place)
  | .workerExpire place => some (.expire place now)
  | .workerHandle place => some (.handle place)
  | .workerHangUp place => some (.hangUp place)
  | .workerDrain place => some (.drain place)
  | .workerLeave place => some (.leave place)
  | .workerCrash place => some (.crash place)
  | .reap => some .reap
  | .shutdownCoordinator => some .shutdown
  | _ => none

/-- What the store of offsets answers about a token. -/
def lookup (p : Pipeline) (token : Token) : Except StoreError (Option TokenOffset) :=
  (p.offsets.get TokenOffset.recordType p.now token.text).1

/-- What can come of a step of a pipeline. -/
inductive Stepped (p : Pipeline) : Event → Pipeline → Prop
  | register {token request} : Stepped p (.register token request)
      { p with registrations := p.registrations ++ [.new token request] }
  | registration {number r r' requests errors} : p.registrations[number]? = some r →
    r.Stepped p.ingressReporter p.requests p.errors r' requests errors →
    Stepped p (.registration number)
      { p with requests, errors, registrations := p.registrations.set number r' }
  | read {token} : Stepped p (.read token) { p with readings := p.readings ++ [.new token] }
  | reading {number r r' coordinator} : p.readings[number]? = some r →
    r.Stepped p.wiring.boundary p.coordinator p.output r' coordinator →
    Stepped p (.reading number) { p with readings := p.readings.set number r', coordinator }
  | access {fault consumer authorised output errors consumer'} : p.access = some consumer →
    p.AccessStepped fault consumer authorised output errors consumer' →
    Stepped p (.access fault) { p with authorised, output, errors, access := some consumer' }
  | index {fault consumer offsets coordinator errors consumer'} : p.index = some consumer →
    p.IndexStepped fault consumer offsets coordinator errors consumer' →
    Stepped p (.index fault) { p with offsets, coordinator, errors, index := some consumer' }
  | coordinate {e ce coordinator} : e.command? p.now = some ce →
    p.coordinator.step ce = some coordinator → Stepped p e { p with coordinator }
  | lookup {place worker coordinator} : p.coordinator.workers[place]? = some worker →
    p.coordinator.read place (p.lookup worker.token) = some coordinator →
    Stepped p (.workerLookup place none)
      { p with
        coordinator
        offsets := (p.offsets.get TokenOffset.recordType p.now worker.token.text).2 }
  | fail {place e coordinator} :
    p.coordinator.read place (.error e) = some coordinator →
    Stepped p (.workerLookup place (some e)) { p with coordinator }
  | setResourceRules {resource rules} : Stepped p (.setResourceRules resource rules)
      { p with policies := (p.policies.setResourceRules resource rules).2 }
  | setRecordRules {resource rules} : Stepped p (.setRecordRules resource rules)
      { p with policies := (p.policies.setRecordRules resource rules).2 }
  | wait {elapsed} : Stepped p (.wait elapsed)
      { p with
        now := p.now.plus elapsed
        authorised := p.authorised.advance p.now elapsed
        offsets := p.offsets.advance p.now elapsed }
  | closeRequests : Stepped p .closeRequests { p with requests := p.requests.close }
  | closeOutput : Stepped p .closeOutput { p with output := p.output.close }
  | closeErrors : Stepped p .closeErrors { p with errors := p.errors.close }

variable {p q : Pipeline} {e : Event}

theorem stepped_registration {number : Nat} (h : p.stepRegistration number = some q) :
    Stepped p (.registration number) q := by
  obtain ⟨r, hr, h⟩ := Option.bind_eq_some_iff.1 h
  obtain ⟨⟨r', requests, errors⟩, hs, rfl⟩ := Option.map_eq_some_iff.1 h
  exact .registration hr (Registration.stepped hs)

/-- A reading takes no other steps than those that are listed. -/
theorem stepped_reading {number : Nat} (h : p.stepReading number = some q) :
    Stepped p (.reading number) q := by
  obtain ⟨r, hr, h⟩ := Option.bind_eq_some_iff.1 h
  simp only at h
  split at h
  · next hp =>
    obtain ⟨⟨r', c⟩, ha, rfl⟩ := Option.map_eq_some_iff.1 h
    simp only [Reading.ask, hp, Option.some.injEq, Prod.mk.injEq] at ha
    obtain ⟨rfl, rfl⟩ := ha
    exact .reading hr (.ask hp)
  · next hp =>
    obtain ⟨r', hh, rfl⟩ := Option.map_eq_some_iff.1 h
    simp only [Reading.hear, hp] at hh
    obtain ⟨reply, ha, rfl⟩ := Option.map_eq_some_iff.1 hh
    cases reply with
    | ok offset => exact .reading hr (.hear hp ha)
    | error e => exact .reading hr (.fail hp ha)
  · next hp =>
    obtain ⟨r', hn, rfl⟩ := Option.map_eq_some_iff.1 h
    exact .reading hr (Reading.stepped_of_readNext hn ..)
  · cases h

/-- The policy stage takes no other steps than those that are listed. -/
theorem stepped_access {fault : Option StoreError} (h : p.stepAccess fault = some q) :
    Stepped p (.access fault) q := by
  obtain ⟨⟨reader, state⟩, ha, h⟩ := Option.bind_eq_some_iff.1 h
  simp only at h
  split at h
  · split at h
    · next hx =>
      obtain ⟨he, rfl⟩ := Reader.next_eq_entry hx
      cases h
      exact .access ha (.take he)
    · next hx =>
      obtain ⟨he, hc, rfl⟩ := Reader.next_eq_ended hx
      cases h
      exact .access ha (.drained he hc)
    · cases h
  · next work =>
    split at h
    · cases h; exact .access ha .next
    · cases h; exact .access ha .refused
    · cases h; exact .access ha .crashed
    · obtain ⟨⟨p', work'⟩, hw, h⟩ := Option.bind_eq_some_iff.1 h
      cases h
      cases work with
      | deciding => cases hw; exact .access ha .decide
      | granted => cases hw; exact .access ha .lookUp
      | recording => cases hw; exact .access ha .record
      | publishing =>
        simp only [workAccess] at hw
        split at hw
        · next hl => cases hw; exact .access ha (.publish hl)
        · next hl => cases hw; exact .access ha (.refuse hl)
      | reporting => cases hw; exact .access ha .report
      | done | refused | crashed => cases hw
  · cases h

/-- The offset stage takes no other steps than those that are listed. -/
theorem stepped_index {fault : Option StoreError} (h : p.stepIndex fault = some q) :
    Stepped p (.index fault) q := by
  obtain ⟨⟨reader, state⟩, hi, h⟩ := Option.bind_eq_some_iff.1 h
  simp only at h
  split at h
  · split at h
    · next hx =>
      obtain ⟨he, rfl⟩ := Reader.next_eq_entry hx
      cases h
      exact .index hi (.take he)
    · next hx =>
      obtain ⟨he, hc, rfl⟩ := Reader.next_eq_ended hx
      cases h
      exact .index hi (.drained he hc)
    · cases h
  · next work =>
    split at h
    · cases h; exact .index hi .next
    · cases h; exact .index hi .report
    · cases h; exact .index hi .crashed
    · obtain ⟨⟨p', work'⟩, hw, h⟩ := Option.bind_eq_some_iff.1 h
      cases h
      cases work with
      | recording => cases hw; exact .index hi .record
      | announcing => cases hw; exact .index hi .announce
      | done | crashed => cases hw
  · cases h

theorem stepped_lookup {place : Nat} {fault : Option StoreError}
    (h : p.stepLookup place fault = some q) : Stepped p (.workerLookup place fault) q := by
  obtain ⟨worker, hw, h⟩ := Option.bind_eq_some_iff.1 h
  obtain ⟨coordinator, hc, rfl⟩ := Option.map_eq_some_iff.1 h
  cases fault with
  | none => exact .lookup hw hc
  | some e => exact .fail hc

theorem stepped_coordinate {ce : Coordinator.Event} (he : e.command? p.now = some ce)
    (h : p.stepCoordinator ce = some q) : Stepped p e q := by
  obtain ⟨coordinator, hc, rfl⟩ := Option.map_eq_some_iff.1 h
  exact .coordinate he hc

theorem eq_ok_of_toOption {ε α : Type} {x : Except ε α} {a : α} (h : x.toOption = some a) :
    x = .ok a := by
  cases x with
  | error => cases h
  | ok => cases h; rfl

/-- Every step of a pipeline is one of its kinds. -/
theorem stepped (h : p.step e = some q) : Stepped p e q := by
  cases e with
  | register => cases h; exact .register
  | registration => exact stepped_registration h
  | read => cases h; exact .read
  | reading => exact stepped_reading h
  | access => exact stepped_access h
  | index => exact stepped_index h
  | workerLookup => exact stepped_lookup h
  | setResourceRules => cases h; exact .setResourceRules
  | setRecordRules => cases h; exact .setRecordRules
  | wait => cases h; exact .wait
  | closeRequests => cases h; exact .closeRequests
  | closeOutput => cases h; exact .closeOutput
  | closeErrors => cases h; exact .closeErrors
  | ask | announce | cancel | workerStart | workerResolve | workerExpire | workerHandle
  | workerHangUp | workerDrain | workerLeave | workerCrash | reap | shutdownCoordinator =>
    exact stepped_coordinate rfl h

end Pipeline

end PolicyGate
