import PolicyGate.Proofs.Pipeline.Topics
import PolicyGate.Proofs.Pipeline.Transition
import PolicyGate.Proofs.Stage.Release

/-!
Accounts of the envelopes that the policy stage takes. A marker is handed on; a request is granted,
denied, or fails, because it cannot be decided or because its authorisation cannot be stored. An
account says what is stored, released and reported for its envelope, and it is founded on the turns
that the stage has taken on this envelope, in their order: nothing is released before it is stored
under the key of its token and resource. Main statements: which turns an account is founded on
(`Account.Founded`), that a failed put makes the account of its request (`Founded.eq_failed`), and
what a report adds to the events of its service (`eventsOf_report`).
-/

namespace PolicyGate

theorem Log.isClosed_of_publish_eq_error {α : Type} {l : Log α} {envelope : Envelope α}
    {e : TopicClosed} (h : l.publish envelope = .error e) : l.isClosed := by
  unfold publish at h
  split at h
  · next hc => exact hc
  · cases h

/-- The frame of a marker. -/
def Marker.frame {α : Type} : Marker → Frame α
  | .start => .start
  | .finish => .finish

/-- What became of an envelope of the topic of requests. -/
inductive Account where
  | marker (token : Token) (m : Marker)
  | granted (grant : Grant) (rules : Option RecordRules)
  | denied (token : Token) (request : DataRequest)
  | failed (token : Token) (request : DataRequest) (error : StageError)

namespace Account

def envelope : Account → Envelope DataRequest
  | marker token m => ⟨token, m.frame⟩
  | granted g _ => ⟨g.token, .message g.request⟩
  | denied token q => ⟨token, .message q⟩
  | failed token q _ => ⟨token, .message q⟩

/-- What is published on the output topic. -/
def outputs : Account → List (Envelope AuthorisedResource)
  | marker token m => [⟨token, m.frame⟩]
  | granted g rules => [⟨g.token, .message (g.released rules)⟩]
  | denied .. => []
  | failed .. => []

/-- What is put into the store. -/
def records : Account → List AuthorisedRequest
  | granted g rules => [g.authorisation rules]
  | _ => []

/-- What is published on the error topic. -/
def events (r : Reporter) : Account → List (Envelope AuditEvent)
  | failed token q e => [⟨token, .message (r.event token (some q) e)⟩]
  | _ => []

variable {a : Account}

theorem token_of_mem_outputs {e : Envelope AuthorisedResource} (h : e ∈ a.outputs) :
    e.token = a.envelope.token := by
  cases a with
  | marker | granted => cases List.mem_singleton.1 h; rfl
  | denied | failed => cases h

/-- What is published for the envelopes of a token are the entries of the token. -/
theorem stream_outputs (token : Token) (accounts : List Account) :
    Envelope.stream token (accounts.flatMap outputs) =
      (accounts.filter fun a => a.envelope.token = token).flatMap outputs := by
  induction accounts with
  | nil => rfl
  | cons a rest ih =>
    rw [List.flatMap_cons, Envelope.stream_append, ih]
    by_cases ha : a.envelope.token = token
    · rw [Envelope.stream_of_forall fun e he => (token_of_mem_outputs he).trans ha]
      simp [ha]
    · rw [Envelope.stream_eq_nil fun e he => token_of_mem_outputs he ▸ ha]
      simp [ha]

theorem stream_map_envelope (token : Token) (accounts : List Account) :
    Envelope.stream token (accounts.map envelope) =
      (accounts.filter fun a => a.envelope.token = token).map envelope := by
  rw [Envelope.stream, List.filter_map]
  rfl

end Account

/-! ## Turns of the stage -/

namespace Pipeline.Transition

/-- A turn in which the stage decides about a request. -/
structure Decides (t : Transition) (token : Token) (q : DataRequest)
    (decision : Except StageError (Option Grant)) : Prop where
  work : t.work? = some (.deciding token q)
  decision : t.before.policies.decide t.before.users token q = decision

/-- A turn in which the stage looks up the rules for the records of what it grants. -/
structure LooksUp (t : Transition) (g : Grant) (rules : Option RecordRules) : Prop where
  work : t.work? = some (.granted g)
  rules : t.before.policies.recordRules? g.request.resource = rules

/-- A turn in which the authorisation of a grant is put into the store, under the key of its token
and resource. -/
structure Stores (t : Transition) (g : Grant) (rules : Option RecordRules) : Prop where
  work : t.work? = some (.recording g rules)
  /-- the write is not made to fail -/
  sound : t.event = .access none
  put : t.before.authorised.put AuthorisedRequest.recordType t.before.now
    (AuthorisedRequest.key g.token g.request.resource) (g.authorisation rules) none =
      .ok t.after.authorised

/-- A turn in which the authorisation of a grant cannot be stored, and the store is left as
it is. -/
structure FailsToStore (t : Transition) (g : Grant) (rules : Option RecordRules)
    (reason : Store.WriteFault) : Prop where
  work : t.work? = some (.recording g rules)
  put : ∃ fault, t.event = .access fault ∧
    t.before.putAuthorised fault (g.authorisation rules) = .error reason
  kept : t.after.authorised = t.before.authorised

/-- A turn in which an envelope is published on the output topic. -/
structure Releases (t : Transition) (envelope : Envelope AuthorisedResource) : Prop where
  work : t.work? = some (.publishing envelope)
  published : ∃ n, t.before.output.publish envelope = .ok (n, t.after.output)

/-- A turn in which the output topic rejects an envelope. -/
structure IsRefused (t : Transition) (envelope : Envelope AuthorisedResource) : Prop where
  work : t.work? = some (.publishing envelope)
  rejected : ∃ e, t.before.output.publish envelope = .error e
  kept : t.after.output = t.before.output

/-- A turn in which the failure of a request is reported. -/
structure Reports (t : Transition) (token : Token) (q : DataRequest) (e : StageError) : Prop where
  work : t.work? = some (.reporting token q e)
  reported : t.after.errors = t.before.accessReporter.report t.before.errors token (some q) e

theorem FailsToStore.not_stores {t : Transition} {g : Grant} {rules : Option RecordRules}
    {reason : Store.WriteFault} (h : t.FailsToStore g rules reason) : ¬ t.Stores g rules := by
  intro hs
  obtain ⟨fault, he, hput⟩ := h.put
  cases hs.sound.symm.trans he
  cases hs.put.symm.trans hput

theorem FailsToStore.reason_inj {t : Transition} {g : Grant} {rules : Option RecordRules}
    {reason reason' : Store.WriteFault} (h : t.FailsToStore g rules reason)
    (h' : t.FailsToStore g rules reason') : reason = reason' := by
  obtain ⟨fault, he, hput⟩ := h.put
  obtain ⟨fault', he', hput'⟩ := h'.put
  cases he.symm.trans he'
  exact Except.error.inj (hput.symm.trans hput')

end Pipeline.Transition

open Pipeline (Transition)

/-- The turns, last first, by which a request has come to a grant and to the rules for its
records. -/
inductive Entitled : List Transition → Grant → Option RecordRules → Prop
  | intro {d l : Transition} {g rules} : d.Decides g.token g.request (.ok (some g)) →
    l.LooksUp g rules → Entitled [l, d] g rules

/-- The turns by which an account is about to be settled: all but the release of its envelope. -/
inductive Prepared : List Transition → Account → Envelope AuthorisedResource → Prop
  | marker {token m} : Prepared [] (.marker token m) ⟨token, m.frame⟩
  | granted {own g rules} {r : Transition} : Entitled own g rules → r.Stores g rules →
    Prepared (r :: own) (.granted g rules) ⟨g.token, .message (g.released rules)⟩

/-- The turns by which a request has failed, but for the report. -/
inductive Failing : List Transition → Token → DataRequest → StageError → Prop
  | undecided {token q e} {d : Transition} : d.Decides token q (.error e) → Failing [d] token q e
  | unrecorded {own g rules e} {r : Transition} : Entitled own g rules →
    r.FailsToStore g rules (.failed e) → Failing (r :: own) g.token g.request (.store e)

namespace Account

/-- The turns on an envelope, last first, that make its account. -/
inductive Founded : List Transition → Account → Prop
  | released {own a envelope} {u : Transition} : Prepared own a envelope → u.Releases envelope →
    Founded (u :: own) a
  | denied {token q} {d : Transition} : d.Decides token q (.ok none) →
    Founded [d] (denied token q)
  | reported {own token q e} {n : Transition} : Failing own token q e → n.Reports token q e →
    Founded (n :: own) (failed token q e)

end Account

theorem Entitled.work?_ne {own : List Transition} {g g' : Grant}
    {rules rules' : Option RecordRules} {t : Transition} (h : Entitled own g rules)
    (ht : t ∈ own) : t.work? ≠ some (.recording g' rules') := by
  cases h with
  | intro hd hl =>
    intro hw
    rcases List.mem_pair.1 ht with rfl | rfl
    · cases hl.work.symm.trans hw
    · cases hd.work.symm.trans hw

/-- A request whose authorisation could not be stored has failed for this reason. -/
theorem Account.Founded.eq_failed {own : List Transition} {a : Account} {t : Transition}
    {g : Grant} {rules : Option RecordRules} {e : StoreError} (h : a.Founded own) (ht : t ∈ own)
    (hf : t.FailsToStore g rules (.failed e)) : a = .failed g.token g.request (.store e) := by
  have hother : ∀ work, t.work? = some work → work = .recording g rules := fun work hw =>
    Option.some.inj (hw.symm.trans hf.work)
  cases h with
  | released hp hu =>
    rcases List.mem_cons.1 ht with rfl | ht
    · cases hother _ hu.work
    · cases hp with
      | marker => cases ht
      | granted hg hr =>
        rcases List.mem_cons.1 ht with rfl | ht
        · cases hother _ hr.work
          exact absurd hr hf.not_stores
        · exact absurd hf.work (hg.work?_ne ht)
  | denied hd =>
    cases List.mem_singleton.1 ht
    cases hother _ hd.work
  | reported hf' hn =>
    rcases List.mem_cons.1 ht with rfl | ht
    · cases hother _ hn.work
    · cases hf' with
      | undecided hd =>
        cases List.mem_singleton.1 ht
        cases hother _ hd.work
      | unrecorded hg hr =>
        rcases List.mem_cons.1 ht with rfl | ht
        · cases hother _ hr.work
          cases hf.reason_inj hr
          rfl
        · exact absurd hf.work (hg.work?_ne ht)

/-- The account that the policy stage is about to settle, and the envelope that it is still at work
on to get there, with the turns that it has taken on it so far. -/
inductive AtHand : List Transition → ConsumerState AccessWork → Option Account →
    List (Envelope DataRequest) → Prop
  | idle : AtHand [] .idle none []
  | drained : AtHand [] (.over .drained) none []
  | deciding {t token q} : AtHand [] (.busy t (.deciding token q)) none [⟨token, .message q⟩]
  | granted {t g} {d : Transition} : d.Decides g.token g.request (.ok (some g)) →
    AtHand [d] (.busy t (.granted g)) none [⟨g.token, .message g.request⟩]
  | recording {own t g rules} : Entitled own g rules →
    AtHand own (.busy t (.recording g rules)) none [⟨g.token, .message g.request⟩]
  | publishing {own t a envelope} : Prepared own a envelope →
    AtHand own (.busy t (.publishing envelope)) (some a) []
  | reporting {own t token q e} : Failing own token q e →
    AtHand own (.busy t (.reporting token q e)) (some (.failed token q e)) []
  | done {t} : AtHand [] (.busy t .done) none []
  | refused {own t e a envelope} {u : Transition} : Prepared own a envelope →
    u.IsRefused envelope → AtHand (u :: own) (.busy t (.refused e)) (some a) []
  | stopped {own a envelope} {u : Transition} : Prepared own a envelope → u.IsRefused envelope →
    AtHand (u :: own) (.over .refused) (some a) []
  | crashed {own t g rules} {r : Transition} : Entitled own g rules →
    r.FailsToStore g rules .clockOverflow →
    AtHand (r :: own) (.busy t .crashed) none [⟨g.token, .message g.request⟩]
  | aborted {own g rules} {r : Transition} : Entitled own g rules →
    r.FailsToStore g rules .clockOverflow →
    AtHand (r :: own) (.over .crashed) none [⟨g.token, .message g.request⟩]

/-! ## The events of a service -/

/-- The audit events that a service has published. -/
def eventsOf (service : String) (errors : Log AuditEvent) : List (Envelope AuditEvent) :=
  errors.envelopes.filter fun e => e.payload?.map AuditEvent.service = some service

@[simp] theorem Reporter.service_event (r : Reporter) (token : Token)
    (request : Option DataRequest) (error : StageError) :
    (r.event token request error).service = r.service := by
  cases request <;> rfl

/-- A report adds its event to those of its service, unless the topic is closed. -/
theorem eventsOf_report (service : String) (r : Reporter) {errors : Log AuditEvent}
    (h : errors.isClosed = false) (token : Token) (request : Option DataRequest)
    (error : StageError) : eventsOf service (r.report errors token request error) =
      eventsOf service errors ++
        if r.service = service then [⟨token, .message (r.event token request error)⟩] else [] := by
  rw [eventsOf, Reporter.envelopes_report r h, List.filter_append]
  by_cases hs : r.service = service <;> simp [eventsOf, Envelope.payload?, hs]

/-- A service reports only on its own behalf. -/
theorem eventsOf_report_of_ne {service : String} {r : Reporter} (hs : r.service ≠ service)
    (errors : Log AuditEvent) (token : Token) (request : Option DataRequest)
    (error : StageError) :
    eventsOf service (r.report errors token request error) = eventsOf service errors := by
  cases h : errors.isClosed with
  | true => rw [r.report_of_isClosed h]
  | false => rw [eventsOf_report service r h, if_neg hs, List.append_nil]

/-- The service that takes a step. -/
def Pipeline.Event.service? : Pipeline.Event → Option String
  | .registration _ => some "ingress"
  | .access _ => some "policy-stage"
  | .index _ => some "topic-offset-stage"
  | _ => none

/-- A step publishes events only on behalf of the service that takes it. -/
theorem Pipeline.Stepped.eventsOf_eq {p q : Pipeline} {e : Event} {service : String}
    (h : Stepped p e q) (he : e.service? ≠ some service) :
    eventsOf service q.errors = eventsOf service p.errors := by
  have hother : ∀ r : Reporter, e.service? = some r.service → ∀ token request error,
      eventsOf service (r.report p.errors token request error) = eventsOf service p.errors := by
    intro r hr token request error
    exact eventsOf_report_of_ne (fun hs => he (hr.trans (congrArg some hs))) ..
  cases h with
  | registration _ hs =>
    cases hs with
    | report => exact hother p.ingressReporter rfl ..
    | accept | refuse | publish | closed | complete => rfl
  | access _ hs =>
    cases hs with
    | report => exact hother p.accessReporter rfl ..
    | take | drained | next | refused | crashed | decide | lookUp | record | publish | refuse => rfl
  | index _ hs =>
    cases hs with
    | report => exact hother p.indexReporter rfl ..
    | take | drained | next | crashed | record | announce => rfl
  | _ => rfl

end PolicyGate
