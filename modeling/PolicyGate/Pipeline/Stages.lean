import PolicyGate.Pipeline.Basic

/-!
The steps of the two consuming stages of a pipeline. A write to a store may be made to fail. Main
statements: work on a request changes only the output topic, the error topic and the store of
authorisations, and a failed write releases nothing.
-/

namespace PolicyGate

namespace Pipeline

/-- Tries to record an authorisation. -/
def putAuthorised (p : Pipeline) (fault : Option StoreError) (a : AuthorisedRequest) :
    Except Store.WriteFault Store :=
  match fault with
  | some e => .error (.failed e)
  | none => p.authorised.put AuthorisedRequest.recordType p.now a.storageKey a none

/-- Tries to record an offset. -/
def putOffset (p : Pipeline) (fault : Option StoreError) (offset : TokenOffset) :
    Except Store.WriteFault Store :=
  match fault with
  | some e => .error (.failed e)
  | none =>
    p.offsets.put TokenOffset.recordType p.now offset.token.text offset (some p.wiring.offsetTtl)

/-- One step of the policy stage on an envelope. -/
def workAccess (p : Pipeline) (fault : Option StoreError) (work : AccessWork) :
    Option (Pipeline × AccessWork) :=
  match work with
  | .deciding token request =>
    some (p, .ofDecision token request (p.policies.decide p.users token request))
  | .granted grant => some (p, .recording grant (p.policies.recordRules? grant.request.resource))
  | .recording grant rules =>
    let result := p.putAuthorised fault (grant.authorisation rules)
    some ({ p with authorised := result.toOption.getD p.authorised },
      .ofRecording grant rules result)
  | .publishing envelope =>
    match p.output.publish envelope with
    | .ok (_, output) => some ({ p with output }, .done)
    | .error e => some (p, .refused e)
  | .reporting token request e =>
    some ({ p with errors := p.accessReporter.report p.errors token (some request) e }, .done)
  | .done => none
  | .refused _ => none
  | .crashed => none

/-- One step of the offset stage on an entry. -/
def workIndex (p : Pipeline) (fault : Option StoreError) (work : IndexWork) :
    Option (Pipeline × IndexWork) :=
  match work with
  | .recording offset =>
    let result := p.putOffset fault offset
    some ({ p with offsets := result.toOption.getD p.offsets }, .ofRecording offset result)
  | .announcing offset =>
    some ({ p with coordinator := (p.coordinator.available offset).1 }, .done (.ok (some offset)))
  | .done _ => none
  | .crashed => none

/-- The steps that the policy stage takes on an envelope at most. -/
def accessSteps : Nat := 4

/-- All steps of the policy stage on an envelope without interruption. -/
def handleAccess (fault : Option StoreError) : Nat → Pipeline → AccessWork → Pipeline × AccessWork
  | 0, p, work => (p, work)
  | fuel + 1, p, work =>
    match p.workAccess fault work with
    | some (p, work) => handleAccess fault fuel p work
    | none => (p, work)

/-- Lets the policy stage handle an envelope at once. -/
def handleRequest (p : Pipeline) (fault : Option StoreError) (e : Envelope DataRequest) :
    Pipeline × AccessWork :=
  handleAccess fault accessSteps p (.ofEnvelope e)

/-- The steps that the offset stage takes on an entry at most. -/
def indexSteps : Nat := 2

/-- All steps of the offset stage on an entry without interruption. -/
def handleIndex (fault : Option StoreError) : Nat → Pipeline → IndexWork → Pipeline × IndexWork
  | 0, p, work => (p, work)
  | fuel + 1, p, work =>
    match p.workIndex fault work with
    | some (p, work) => handleIndex fault fuel p work
    | none => (p, work)

/-- Lets the offset stage handle an envelope at an offset at once. -/
def handleOutput (p : Pipeline) (fault : Option StoreError) (offset : Int)
    (e : Envelope AuthorisedResource) : Pipeline × IndexWork :=
  handleIndex fault indexSteps p (.ofEnvelope p.wiring.boundary offset e)

/-- The next step of the policy stage as a consumer: it takes an entry, works on it, or stops. -/
def stepAccess (p : Pipeline) (fault : Option StoreError) : Option Pipeline :=
  p.access.bind fun consumer =>
    let become (p : Pipeline) (consumer : Consumer AccessWork) : Option Pipeline :=
      some { p with access := some consumer }
    match consumer.state with
    | .idle =>
      match consumer.reader.next p.requests with
      | (.entry entry, reader) =>
        become p ⟨reader, .busy entry.envelope.token (.ofEnvelope entry.envelope)⟩
      | (.ended, reader) => become p ⟨reader, .over .drained⟩
      | (.pending, _) => none
    | .busy token work =>
      match work with
      | .done => become p { consumer with state := .idle }
      | .refused _ => become p { consumer with state := .over .refused }
      | .crashed => become p { consumer with state := .over .crashed }
      | work =>
        (p.workAccess fault work).bind fun (p, work) =>
          become p { consumer with state := .busy token work }
    | .over _ => none

/-- The next step of the offset stage as a consumer. -/
def stepIndex (p : Pipeline) (fault : Option StoreError) : Option Pipeline :=
  p.index.bind fun consumer =>
    let become (p : Pipeline) (consumer : Consumer IndexWork) : Option Pipeline :=
      some { p with index := some consumer }
    match consumer.state with
    | .idle =>
      match consumer.reader.next p.output with
      | (.entry entry, reader) =>
        become p ⟨reader, .busy entry.envelope.token
          (.ofEnvelope p.wiring.boundary entry.offset entry.envelope)⟩
      | (.ended, reader) => become p ⟨reader, .over .drained⟩
      | (.pending, _) => none
    | .busy token work =>
      match work with
      | .done (.ok _) => become p { consumer with state := .idle }
      | .done (.error e) =>
        become { p with errors := p.indexReporter.report p.errors token none e }
          { consumer with state := .idle }
      | .crashed => become p { consumer with state := .over .crashed }
      | work =>
        (p.workIndex fault work).bind fun (p, work) =>
          become p { consumer with state := .busy token work }
    | .over _ => none

theorem workAccess_eq_none_iff (p : Pipeline) (fault : Option StoreError) (work : AccessWork) :
    p.workAccess fault work = none ↔ work.isOver := by
  cases work <;> simp [workAccess, AccessWork.isOver]
  split <;> simp

theorem workAccess_recording_fault (p : Pipeline) (e : StoreError) (grant : Grant)
    (rules : Option RecordRules) :
    p.workAccess (some e) (.recording grant rules) =
      some (p, .reporting grant.token grant.request (.store e)) := rfl

end Pipeline

end PolicyGate
