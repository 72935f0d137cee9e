import PolicyGate.Proofs.Pipeline.Consulted
import PolicyGate.Proofs.Pipeline.Shutdown

/-!
What a registration leaves behind. Topics only grow, so that what was published before a topic was
closed stays, and a report to a closed topic is dropped. Main statements: a registration that
succeeds has its whole stream on the topic of requests, and one that fails has none of it there, or
a part of it if the topic was closed in between, and its report on the error topic if that was open
(`outcome_of_register`). Neither loss can be ruled out (`rejected_with_losses`).
-/

namespace PolicyGate

open Envelope ListUpdate

/-! ## Reports of the entry -/

/-- What the entry has reported under a token. -/
def entryReports (token : Token) (errors : Log AuditEvent) : List (Envelope AuditEvent) :=
  stream token (eventsOf "ingress" errors)

theorem entryReports_report {r : Reporter} (hr : r.service = "ingress") (errors : Log AuditEvent)
    (token : Token) (request : Option DataRequest) (e : StageError) :
    entryReports token (r.report errors token request e) = entryReports token errors ++
      if errors.isClosed then [] else [⟨token, .message (r.event token request e)⟩] := by
  cases h : errors.isClosed with
  | true => simp [r.report_of_isClosed h]
  | false =>
    have hown : stream token [⟨token, .message (r.event token request e)⟩] =
        [⟨token, .message (r.event token request e)⟩] := stream_singleton rfl
    rw [entryReports, eventsOf_report _ r h, if_pos hr, stream_append, hown]
    rfl

theorem entryReports_report_of_ne {token other : Token} (h : other ≠ token) (r : Reporter)
    (errors : Log AuditEvent) (request : Option DataRequest) (e : StageError) :
    entryReports token (r.report errors other request e) = entryReports token errors := by
  cases hc : errors.isClosed with
  | true => rw [r.report_of_isClosed hc]
  | false =>
    rw [entryReports, eventsOf_report _ r hc, stream_append]
    split
    · rw [stream_singleton_of_ne h, List.append_nil]
      rfl
    · exact List.append_nil _

/-- A report adds at most its own event. -/
theorem mem_report {r : Reporter} {errors : Log AuditEvent} {token : Token}
    {request : Option DataRequest} {e : StageError} {event : Envelope AuditEvent}
    (h : event ∈ (r.report errors token request e).envelopes) :
    event ∈ errors.envelopes ∨ event = ⟨token, .message (r.event token request e)⟩ := by
  cases hc : errors.isClosed with
  | true =>
    rw [r.report_of_isClosed hc] at h
    exact .inl h
  | false =>
    rw [Reporter.envelopes_report r hc] at h
    exact (List.mem_append.1 h).imp_right List.mem_singleton.1

/-! ## One registration -/

/-- Why the registration of a request fails and what is missing on the topic then: all of its stream
if the request does not pass the check, and some of it if the topic is closed. -/
inductive DataRequest.Fails (q : DataRequest) (token : Token) (requests : Log DataRequest) :
    StageError → Prop
  | unfit {e} : q.check = .error e → stream token requests.envelopes = [] → Fails q token requests e
  | cutOff : q.check = .ok () → requests.isClosed →
    stream token requests.envelopes ≠ q.envelopes token →
    Fails q token requests (.closed ⟨Pipeline.requestTopic⟩)

theorem DataRequest.Fails.frame {q : DataRequest} {token : Token}
    {requests requests' : Log DataRequest} {e : StageError} (H : q.Fails token requests e)
    (hk : requests.Kept requests')
    (hs : stream token requests'.envelopes = stream token requests.envelopes) :
    q.Fails token requests' e := by
  cases H with
  | unfit hc hnil => exact .unfit hc (hs.trans hnil)
  | cutOff hc hclosed hne => exact .cutOff hc (hk.closed hclosed).1 (hs ▸ hne)

/-- What a registration has checked, missed and reported so far. -/
def Registration.Stands (r : Registration) (requests : Log DataRequest) (errors : Log AuditEvent) :
    Prop :=
  match r.phase with
  | .fresh => entryReports r.token errors = []
  | .publishing _ => r.request.check = .ok () ∧ entryReports r.token errors = []
  | .registered => entryReports r.token errors = []
  | .failing e => r.request.Fails r.token requests e ∧ entryReports r.token errors = []
  | .rejected e => r.request.Fails r.token requests e

namespace Registration

variable {r r' : Registration} {reporter : Reporter} {requests requests' : Log DataRequest}
  {errors errors' : Log AuditEvent}

/-- Nothing changes for a registration while nothing happens under its token. -/
theorem Stands.frame (H : r.Stands requests errors) (hk : requests.Kept requests')
    (hs : stream r.token requests'.envelopes = stream r.token requests.envelopes)
    (he : entryReports r.token errors' = entryReports r.token errors) :
    r.Stands requests' errors' := by
  unfold Stands at H ⊢
  split at H
  · exact he.trans H
  · exact ⟨H.1, he.trans H.2⟩
  · exact he.trans H
  · exact ⟨H.1.frame hk hs, he.trans H.2⟩
  · exact H.frame hk hs

/-- A step of a registration that owes what is not published under its token. -/
theorem Stands.step {rest : List (Envelope DataRequest)} (H : r.Stands requests errors)
    (ho : r.Owes rest)
    (hs : stream r.token requests.envelopes ++ rest = r.request.envelopes r.token)
    (hname : requests.name = Pipeline.requestTopic)
    (h : r.Stepped reporter requests errors r' requests' errors') :
    r'.Stands requests' errors' := by
  cases h with
  | accept hp hc =>
    simp only [Stands, hp] at H
    exact ⟨hc, H⟩
  | refuse hp hc =>
    simp only [Stands, hp] at H
    simp only [Owes, hp] at ho
    subst ho
    exact ⟨.unfit hc (List.append_left_eq_self.1 hs), H⟩
  | publish hp =>
    simp only [Stands, hp] at H
    exact H
  | closed hp hl =>
    simp only [Stands, hp] at H
    simp only [Owes, hp] at ho
    subst ho
    have hclosed := Log.isClosed_of_publish_eq_error hl
    rw [Log.publish_of_isClosed hclosed] at hl
    cases hl
    refine ⟨?_, H.2⟩
    rw [Log.closedError, hname]
    refine .cutOff H.1 hclosed fun he => ?_
    rw [← hs] at he
    simp at he
  | complete hp =>
    simp only [Stands, hp] at H
    exact H.2
  | report hp =>
    simp only [Stands, hp] at H
    exact H.1

/-- A registration that is over takes no step. -/
theorem Stepped.result?_eq_none (h : r.Stepped reporter requests errors r' requests' errors') :
    r.result? = none := by
  cases h with
  | accept hp | refuse hp | publish hp | closed hp | complete hp | report hp =>
    simp only [result?, hp]

/-- A registration is rejected by its report. -/
theorem Stepped.of_rejected {e : StageError}
    (h : r.Stepped reporter requests errors r' requests' errors') (hp : r'.phase = .rejected e) :
    r.phase = .failing e ∧ requests' = requests ∧
      errors' = reporter.report errors r.token (some r.request) e := by
  cases h with
  | report hf =>
    cases hp
    exact ⟨hf, rfl, rfl⟩
  | accept | refuse | publish | closed | complete => cases hp

theorem result?_eq_ok {t : Token} (h : r.result? = some (.ok t)) :
    r.phase = .registered ∧ r.token = t := by
  unfold result? at h
  split at h
  · next hp =>
    cases h
    exact ⟨hp, rfl⟩
  · cases h
  · cases h

theorem result?_eq_error {e : StageError} (h : r.result? = some (.error e)) :
    r.phase = .rejected e := by
  unfold result? at h
  split at h
  · cases h
  · next hp =>
    cases h
    exact hp
  · cases h

end Registration

/-! ## The token that the policy stage is at work for -/

theorem Log.mem_of_read {α : Type} {l : Log α} {offset : Nat} {entry : Entry α}
    (h : l.read offset = some entry) : entry.envelope ∈ l.envelopes := by
  obtain ⟨envelope, hx, rfl⟩ := Log.exists_of_read h
  exact List.mem_of_getElem? hx

namespace AccessWork

/-- The token that work of the policy stage is for. -/
def token? : AccessWork → Option Token
  | deciding token _ => some token
  | granted grant => some grant.token
  | recording grant _ => some grant.token
  | publishing envelope => some envelope.token
  | reporting token _ _ => some token
  | _ => none

theorem token?_ofEnvelope (e : Envelope DataRequest) : (ofEnvelope e).token? = some e.token := by
  obtain ⟨token, frame⟩ := e
  cases frame <;> rfl

theorem eq_of_token?_ofDecision {policies : PolicyService} {users : UserDirectory}
    {token t : Token} {q : DataRequest}
    (h : (ofDecision token q (policies.decide users token q)).token? = some t) : t = token := by
  cases hd : policies.decide users token q with
  | error =>
    rw [hd] at h
    cases h
    rfl
  | ok grant =>
    rw [hd] at h
    cases grant with
    | none => cases h
    | some g =>
      cases h
      exact (decide_eq_some hd).1

theorem eq_of_token?_ofRecording {g : Grant} {rules : Option RecordRules}
    {stored : Except Store.WriteFault Store} {t : Token}
    (h : (ofRecording g rules stored).token? = some t) : t = g.token := by
  rcases stored with (_ | _) | _ <;> cases h <;> rfl

end AccessWork

/-- The token that the policy stage is at work for. -/
def ConsumerState.token? : ConsumerState AccessWork → Option Token
  | busy _ work => work.token?
  | _ => none

namespace Pipeline

variable {wiring : Wiring} {policies : PolicyService} {users : UserDirectory}
  {authorised offsets : Store} {timeout : Duration} {p₀ p q : Pipeline} {e : Event} {number : Nat}
  {r : Registration}

/-! ## The registrations of a run -/

theorem Reachable.trans (h : Reachable p₀ p) (h' : Reachable p q) : Reachable p₀ q := by
  induction h' with
  | refl => exact h
  | step e _ hs ih => exact ih.step e hs

/-- Where a run comes to have a property, there is a step that gives it. -/
theorem Reachable.exists_turn {P : Pipeline → Prop} (h : Reachable p q) (hp : ¬ P p) (hq : P q) :
    ∃ m e m', Reachable p m ∧ ¬ P m ∧ m.step e = some m' ∧ P m' ∧ Reachable m' q := by
  induction h with
  | refl => exact absurd hq hp
  | @step m m' e h hs ih =>
    by_cases hm : P m
    · obtain ⟨a, ea, b, ha, hna, hstep, hb, hrest⟩ := ih hm
      exact ⟨a, ea, b, ha, hna, hstep, hb, hrest.step e hs⟩
    · exact ⟨m, e, m', h, hm, hs, hq, .refl⟩

/-- A registration takes a step of its own, or stays as it is. -/
theorem Stepped.registration_cases (h : Stepped p e q) (hr : p.registrations[number]? = some r) :
    e ≠ .registration number ∧ q.registrations[number]? = some r ∨
      e = .registration number ∧ ∃ r', q.registrations[number]? = some r' ∧
        r.Stepped p.ingressReporter p.requests p.errors r' q.requests q.errors := by
  cases h with
  | register => exact .inl ⟨nofun, getElem?_mono (List.prefix_append ..) hr⟩
  | @registration other r' r'' _ _ ho hs =>
    by_cases hn : other = number
    · subst hn
      cases hr.symm.trans ho
      exact .inr ⟨rfl, r'', getElem?_set_of_some hr _, hs⟩
    · exact .inl ⟨fun he => hn (Event.registration.inj he), (List.getElem?_set_ne hn).trans hr⟩
  | coordinate he =>
    refine .inl ⟨?_, hr⟩
    rintro rfl
    cases he
  | _ => exact .inl ⟨nofun, hr⟩

/-- A registration has been there before, or it is new. -/
theorem Stepped.registration_inv (h : Stepped p e q) (hr : q.registrations[number]? = some r) :
    (∃ r', p.registrations[number]? = some r') ∨ r.phase = .fresh ∧ q.errors = p.errors ∧
      q.registrations.map Registration.token =
        p.registrations.map Registration.token ++ [r.token] := by
  cases h with
  | @register token request =>
    rcases getElem?_concat_cases hr with hr | ⟨-, rfl⟩
    · exact .inl ⟨r, hr⟩
    · exact .inr ⟨rfl, rfl, List.map_append⟩
  | registration ho =>
    rcases getElem?_set_cases hr with ⟨rfl, -⟩ | ⟨-, hr⟩
    · exact .inl ⟨_, ho⟩
    · exact .inl ⟨_, hr⟩
  | _ => exact .inl ⟨r, hr⟩

theorem Stepped.tokens (h : Stepped p e q) :
    p.registrations.map Registration.token <+: q.registrations.map Registration.token := by
  cases h with
  | register => exact (List.prefix_append ..).map _
  | registration hr hs =>
    exact ⟨[], by rw [List.append_nil, map_set_of_eq hr hs.owes.1]⟩
  | _ => exact List.prefix_rfl

theorem Reachable.tokens (h : Reachable p q) :
    p.registrations.map Registration.token <+: q.registrations.map Registration.token := by
  induction h with
  | refl => exact List.prefix_rfl
  | step _ _ hs ih => exact ih.trans (stepped hs).tokens

/-- A registration keeps its token and its request, and when it is over it stays as it is. -/
theorem Reachable.registration (h : Reachable p q) (hr : p.registrations[number]? = some r) :
    ∃ r', q.registrations[number]? = some r' ∧ r'.token = r.token ∧ r'.request = r.request ∧
      (r.result?.isSome → r' = r) := by
  induction h with
  | refl => exact ⟨r, hr, rfl, rfl, fun _ => rfl⟩
  | step e _ hs ih =>
    obtain ⟨r', hr', htoken, hrequest, hover⟩ := ih
    rcases (stepped hs).registration_cases hr' with ⟨-, hsame⟩ | ⟨-, r'', hr'', hx⟩
    · exact ⟨r', hsame, htoken, hrequest, hover⟩
    · refine ⟨r'', hr'', hx.owes.1.trans htoken, hx.owes.2.1.trans hrequest, fun h => ?_⟩
      rw [← hover h, hx.result?_eq_none] at h
      cases h

/-! ## The entry in a run -/

/-- The topic of requests holds what the registrations have published, and the entry has reported
nothing but them. -/
structure Entrance (p : Pipeline) : Prop where
  intake : Intake p.registrations p.requests.envelopes
  name : p.requests.name = requestTopic
  stands : ∀ r ∈ p.registrations, r.Stands p.requests p.errors
  known : ∀ e ∈ eventsOf "ingress" p.errors, e.token ∈ p.registrations.map Registration.token

theorem Stepped.name_requests (h : Stepped p e q) : q.requests.name = p.requests.name := by
  cases h with
  | registration _ hs =>
    cases hs with
    | publish _ hl =>
      unfold Log.publish at hl
      split at hl <;> cases hl
      rfl
    | accept | refuse | closed | complete | report => rfl
  | _ => rfl

/-- Under its token only a registration itself is reported and only its envelopes are published. -/
theorem Stepped.apart (h : Stepped p e q) (H : Intake p.registrations p.requests.envelopes)
    (hr : p.registrations[number]? = some r) (he : e ≠ .registration number) :
    stream r.token q.requests.envelopes = stream r.token p.requests.envelopes ∧
      entryReports r.token q.errors = entryReports r.token p.errors := by
  have hevents (hs : e.service? ≠ some "ingress") :
      entryReports r.token q.errors = entryReports r.token p.errors :=
    congrArg (stream r.token) (h.eventsOf_eq hs)
  cases h with
  | @registration other r' r'' requests errors ho hs =>
    have hne : other ≠ number := fun hn => he (congrArg Event.registration hn)
    have htoken : r'.token ≠ r.token := fun ht => hne (eq_of_nodup_map H.distinct ho hr ht)
    obtain ⟨rest, howes, hstream⟩ := H.owed r' (List.mem_of_getElem? ho)
    cases hs with
    | @publish envelope rest' n _ hp hl =>
      simp only [Registration.Owes, hp] at howes
      have hmem : envelope ∈ r'.request.envelopes r'.token := by
        rw [← hstream, howes]
        exact List.mem_append_right _ List.mem_cons_self
      have henvelope : envelope.token ≠ r.token :=
        DataRequest.token_of_mem_envelopes hmem ▸ htoken
      refine ⟨?_, rfl⟩
      rw [(Log.publish_eq_ok hl).2.2, stream_append, stream_singleton_of_ne henvelope,
        List.append_nil]
    | report => exact ⟨rfl, entryReports_report_of_ne htoken ..⟩
    | accept | refuse | closed | complete => exact ⟨rfl, rfl⟩
  | access | index => exact ⟨rfl, hevents (by simp [Event.service?])⟩
  | _ => exact ⟨rfl, rfl⟩

theorem Entrance.start : Entrance (start wiring policies users authorised offsets timeout) :=
  ⟨.nil, rfl, nofun, nofun⟩

namespace Entrance

/-- What a registration has checked, missed and reported stands after every step. -/
theorem stands_step (H : Entrance p) (h : Stepped p e q)
    (hn : (q.registrations.map Registration.token).Nodup) :
    ∀ r ∈ q.registrations, r.Stands q.requests q.errors := by
  intro r' hr'
  obtain ⟨number, hr'⟩ := List.mem_iff_getElem?.1 hr'
  obtain ⟨r, hr⟩ | ⟨hfresh, herrors, htokens⟩ := h.registration_inv hr'
  · have hmem := List.mem_of_getElem? hr
    rcases h.registration_cases hr with ⟨he, hsame⟩ | ⟨-, r'', hr'', hx⟩
    · cases hr'.symm.trans hsame
      obtain ⟨hs, hreports⟩ := h.apart H.intake hr he
      exact (H.stands r' hmem).frame h.requests hs hreports
    · cases hr'.symm.trans hr''
      obtain ⟨rest, ho, hs⟩ := H.intake.owed r hmem
      exact (H.stands r hmem).step ho hs H.name hx
  · rw [htokens, List.nodup_append] at hn
    simp only [Registration.Stands, hfresh]
    refine stream_eq_nil fun e' he' ht => ?_
    rw [herrors] at he'
    exact hn.2.2 _ (H.known e' he') _ (List.mem_singleton_self _) ht

/-- The entry reports on registrations only. -/
theorem known_step (H : Entrance p) (h : Stepped p e q) :
    ∀ e' ∈ eventsOf "ingress" q.errors, e'.token ∈ q.registrations.map Registration.token := by
  have hold : ∀ e' ∈ eventsOf "ingress" p.errors,
      e'.token ∈ q.registrations.map Registration.token :=
    fun e' he' => h.tokens.subset (H.known e' he')
  intro e' he'
  cases e with
  | registration number =>
    cases h with
    | coordinate he => cases he
    | registration hr hx =>
      cases hx with
      | report =>
        obtain ⟨hmem, hservice⟩ := List.mem_filter.1 he'
        rcases mem_report hmem with hmem | rfl
        · exact hold e' (List.mem_filter.2 ⟨hmem, hservice⟩)
        · exact List.mem_map.2 ⟨_, List.mem_of_getElem? (getElem?_set_of_some hr _), rfl⟩
      | accept | refuse | publish | closed | complete => exact hold e' he'
  | _ =>
    rw [h.eventsOf_eq (by simp [Event.service?])] at he'
    exact hold e' he'

theorem step (H : Entrance p) (h : p.step e = some q)
    (hn : (q.registrations.map Registration.token).Nodup) : Entrance q where
  intake := intake_of_step (fun _ => H.intake) h hn
  name := (stepped h).name_requests.trans H.name
  stands := H.stands_step (stepped h) hn
  known := H.known_step (stepped h)

end Entrance

theorem Reachable.entrance (h₀ : Entrance p) (h : Reachable p q)
    (hn : (q.registrations.map Registration.token).Nodup) : Entrance q := by
  induction h with
  | refl => exact h₀
  | step _ _ hs ih => exact (ih (hn.sublist (stepped hs).tokens.sublist)).step hs hn

/-- What the entry has reported about a registration that is over is all that it ever reports. -/
theorem Reachable.entryReports_eq (h₀ : Entrance p) (h : Reachable p q)
    (hn : (q.registrations.map Registration.token).Nodup) (hr : p.registrations[number]? = some r)
    (hover : r.result?.isSome) : entryReports r.token q.errors = entryReports r.token p.errors := by
  induction h with
  | refl => rfl
  | step _ hm hs ih =>
    have hn' := hn.sublist (stepped hs).tokens.sublist
    obtain ⟨r', hr', -, -, hsame⟩ := hm.registration hr
    cases hsame hover
    rcases (stepped hs).registration_cases hr' with ⟨he, -⟩ | ⟨-, _, -, hx⟩
    · exact ((stepped hs).apart (hm.entrance h₀ hn').intake hr' he).2.trans (ih hn')
    · rw [hx.result?_eq_none] at hover
      cases hover

/-! ## What others report -/

/-- No stage has come across a token, and what is reported under it is reported by the entry. -/
structure Unseen (token : Token) (p : Pipeline) : Prop where
  output : ∀ e ∈ p.output.envelopes, e.token ≠ token
  access : ∀ consumer, p.access = some consumer → consumer.state.token? ≠ some token
  index : ∀ reader t work, p.index = some ⟨reader, .busy t work⟩ → t ≠ token
  errors : ∀ e ∈ p.errors.envelopes, e.token = token →
    e.payload?.map AuditEvent.service = some "ingress"

namespace Unseen

variable {token : Token} {fault : Option StoreError} {errors : Log AuditEvent}

theorem report (H : Unseen token p) {reporter : Reporter} {t : Token} {request : Option DataRequest}
    {error : StageError} (hr : t = token → reporter.service = "ingress") :
    ∀ e ∈ (reporter.report p.errors t request error).envelopes, e.token = token →
      e.payload?.map AuditEvent.service = some "ingress" := by
  intro e he ht
  rcases mem_report he with he | rfl
  · exact H.errors e he ht
  · exact congrArg some ((reporter.service_event ..).trans (hr ht))

/-- The policy stage brings nothing up under a token that has no request. -/
theorem access_step (H : Unseen token p) (hs : ∀ e ∈ p.requests.envelopes, e.token ≠ token)
    {consumer consumer' : Consumer AccessWork} {authorised : Store}
    {output : Log AuthorisedResource} (ha : p.access = some consumer)
    (h : p.AccessStepped fault consumer authorised output errors consumer') :
    Unseen token { p with authorised, output, errors, access := some consumer' } := by
  have htoken := H.access consumer ha
  -- the stage works on for the token that it was at work for
  have hkeep (hsame : ∀ t, consumer'.state.token? = some t → consumer.state.token? = some t) :
      ∀ c, some consumer' = some c → c.state.token? ≠ some token := by
    rintro _ ⟨⟩ ht
    exact htoken (hsame _ ht)
  cases h with
  | @take reader entry he =>
    refine ⟨H.output, ?_, H.index, H.errors⟩
    rintro _ ⟨⟩ ht
    rw [ConsumerState.token?, AccessWork.token?_ofEnvelope] at ht
    exact hs _ (Log.mem_of_read he) (Option.some.inj ht)
  | decide =>
    refine ⟨H.output, hkeep fun t ht => ?_, H.index, H.errors⟩
    exact congrArg some (AccessWork.eq_of_token?_ofDecision ht).symm
  | record =>
    refine ⟨H.output, hkeep fun t ht => ?_, H.index, H.errors⟩
    exact congrArg some (AccessWork.eq_of_token?_ofRecording ht).symm
  | lookUp => exact ⟨H.output, hkeep fun _ ht => ht, H.index, H.errors⟩
  | publish hl =>
    refine ⟨fun e he => ?_, hkeep nofun, H.index, H.errors⟩
    rw [(Log.publish_eq_ok hl).2.2] at he
    rcases List.mem_append.1 he with he | he
    · exact H.output e he
    · rw [List.mem_singleton.1 he]
      exact fun ht => htoken (congrArg some ht)
  | report =>
    exact ⟨H.output, hkeep nofun, H.index, H.report fun ht => absurd (congrArg some ht) htoken⟩
  | drained | next | refused | crashed | refuse =>
    exact ⟨H.output, hkeep nofun, H.index, H.errors⟩

theorem index_step (H : Unseen token p) {consumer consumer' : Consumer IndexWork}
    {offsets : Store} {coordinator : Coordinator} (hi : p.index = some consumer)
    (h : p.IndexStepped fault consumer offsets coordinator errors consumer') :
    Unseen token { p with offsets, coordinator, errors, index := some consumer' } := by
  cases h with
  | take he =>
    refine ⟨H.output, H.access, ?_, H.errors⟩
    rintro _ _ _ ⟨⟩
    exact H.output _ (Log.mem_of_read he)
  | record | announce =>
    refine ⟨H.output, H.access, ?_, H.errors⟩
    rintro _ _ _ ⟨⟩
    exact H.index _ _ _ hi
  | report =>
    exact ⟨H.output, H.access, nofun, H.report fun ht => absurd ht (H.index _ _ _ hi)⟩
  | drained | next | crashed => exact ⟨H.output, H.access, nofun, H.errors⟩

/-- A token without a request stays unseen. -/
theorem step (H : Unseen token p) (hs : ∀ e ∈ p.requests.envelopes, e.token ≠ token)
    (h : Stepped p e q) : Unseen token q := by
  cases h with
  | registration _ hx =>
    cases hx with
    | report => exact ⟨H.output, H.access, H.index, H.report fun _ => rfl⟩
    | accept | refuse | publish | closed | complete => exact ⟨H.output, H.access, H.index, H.errors⟩
  | access ha hx => exact H.access_step hs ha hx
  | index hi hx => exact H.index_step hi hx
  | _ => exact ⟨H.output, H.access, H.index, H.errors⟩

/-- While nothing is published under a token, only the entry reports under it. -/
theorem entryReports_eq (H : Unseen token p) :
    stream token p.errors.envelopes = entryReports token p.errors := by
  rw [entryReports, eventsOf, stream, stream, List.filter_comm, eq_comm, List.filter_eq_self]
  intro e he
  obtain ⟨hmem, ht⟩ := List.mem_filter.1 he
  exact decide_eq_true (H.errors e hmem (of_decide_eq_true ht))

end Unseen

theorem unseen_start {token : Token} :
    Unseen token (start wiring policies users authorised offsets timeout) where
  output := nofun
  access := by
    rintro _ ⟨⟩
    exact nofun
  index := nofun
  errors := nofun

theorem Reachable.unseen {token : Token} (h₀ : Unseen token p) (h : Reachable p q)
    (hs : stream token q.requests.envelopes = []) : Unseen token q := by
  induction h with
  | refl => exact h₀
  | @step m q e h hstep ih =>
    have hnil : stream token m.requests.envelopes = [] :=
      List.prefix_nil.1 (hs ▸ stream_mono (stepped hstep).requests.envelopes token)
    refine (ih hnil).step (fun e' he' ht => ?_) (stepped hstep)
    exact List.not_mem_nil (hnil ▸ mem_stream.2 ⟨he', ht⟩)

/-! ## The outcome -/

theorem Reachable.wiring_eq (h : Reachable p q) : q.wiring = p.wiring := by
  induction h with
  | refl => rfl
  | step _ _ hs ih => exact (stepped hs).wiring_eq.trans ih

/-- The report of the entry about a request. -/
def failureReport (w : Wiring) (token : Token) (request : DataRequest) (e : StageError) :
    Envelope AuditEvent :=
  ⟨token, .message {
    token
    user := request.user
    resource := request.resource
    context := request.context
    service := "ingress"
    timestamp := w.clock
    host := w.host
    attributes := ∅
    error := e.message }⟩

/-- What a registration that began at one point leaves when it is rejected: a first part of its
stream, which is none unless the topic was closed in between, and its report unless the error topic
is closed when it is due. -/
structure Rejected (p q : Pipeline) (number : Nat) (token : Token) (request : DataRequest)
    (e : StageError) : Prop where
  fails : request.Fails token q.requests e
  published : stream token q.requests.envelopes <+: request.envelopes token
  closed : p.requests.isClosed → stream token q.requests.envelopes = []
  reported : ∃ m m', Reachable p m ∧ m.registrations[number]? = some ⟨token, request, .failing e⟩ ∧
    m.step (.registration number) = some m' ∧ Reachable m' q ∧
    entryReports token q.errors =
      if m.errors.isClosed then [] else [failureReport p.wiring token request e]
  /-- without any envelope of it, nobody else reports it -/
  alone : stream token q.requests.envelopes = [] →
    stream token q.errors.envelopes = entryReports token q.errors

/-- A registration that is rejected was reported before. -/
theorem Reachable.exists_report {token : Token} {request : DataRequest} {e : StageError}
    (h₀ : Entrance p) (h : Reachable p q)
    (hn : (q.registrations.map Registration.token).Nodup)
    (hr : p.registrations[number]? = some (.new token request))
    (hq : q.registrations[number]? = some ⟨token, request, .rejected e⟩) :
    ∃ m m', Reachable p m ∧ m.registrations[number]? = some ⟨token, request, .failing e⟩ ∧
      m.step (.registration number) = some m' ∧ Reachable m' q ∧
      entryReports token q.errors =
        if m.errors.isClosed then [] else [failureReport p.wiring token request e] := by
  obtain ⟨m, event, m', hm, hbefore, hs, hafter, hrest⟩ := h.exists_turn
    (P := fun m => m.registrations[number]? = some ⟨token, request, .rejected e⟩)
    (by rw [hr]; exact nofun) hq
  obtain ⟨r, hrm, htoken, hrequest, -⟩ := hm.registration hr
  rcases (stepped hs).registration_cases hrm with ⟨-, hsame⟩ | ⟨rfl, r', hr', hx⟩
  · exact absurd (hrm.trans (hsame.symm.trans hafter)) hbefore
  · cases hr'.symm.trans hafter
    obtain ⟨hp, -, herrors⟩ := hx.of_rejected rfl
    obtain ⟨token, request, phase⟩ := r
    cases htoken
    cases hrequest
    cases hp
    have hn' := hn.sublist hrest.tokens.sublist
    have hentrance := (hm.step _ hs).entrance h₀ hn'
    have hsilent : entryReports token m.errors = [] :=
      ((hm.entrance h₀ (hn'.sublist (stepped hs).tokens.sublist)).stands _
        (List.mem_of_getElem? hrm)).2
    refine ⟨m, m', hm, hrm, hs, hrest, ?_⟩
    rw [hrest.entryReports_eq hentrance hn hafter rfl, herrors, entryReports_report rfl, hsilent,
      ← hm.wiring_eq]
    rfl

/-- A registration, whatever comes in between, leaves its whole stream and no report if it succeeds,
and what a rejected one leaves if it fails. -/
theorem outcome_of_register {p' : Pipeline} {token : Token} {request : DataRequest}
    (h₀ : Reachable (start wiring policies users authorised offsets timeout) p)
    (hp : p.step (.register token request) = some p') (h : Reachable p' q)
    (hn : (q.registrations.map Registration.token).Nodup) :
    ∃ r, q.registrations[p.registrations.length]? = some r ∧
      (∀ t, r.result? = some (.ok t) → t = token ∧
        stream token q.requests.envelopes =
          [⟨token, .start⟩, ⟨token, .message request⟩, ⟨token, .finish⟩] ∧
        entryReports token q.errors = []) ∧
      ∀ e, r.result? = some (.error e) →
        Rejected p q p.registrations.length token request e := by
  have hnew : p'.registrations[p.registrations.length]? = some (.new token request) := by
    cases hp
    exact List.getElem?_concat_length
  have hbegun : Reachable p p' := .step _ .refl hp
  have hn' := hn.sublist h.tokens.sublist
  have hold := hn'.sublist hbegun.tokens.sublist
  have hfresh : ∀ r ∈ p.registrations, r.token ≠ token := by
    cases hp
    rw [List.map_append, List.nodup_append] at hn'
    exact fun r hr => hn'.2.2 _ (List.mem_map_of_mem hr) _ (List.mem_singleton_self _)
  have hentrance' := (h₀.trans hbegun).entrance .start hn'
  have hentrance := h.entrance hentrance' hn
  obtain ⟨⟨t, request', phase⟩, hr, rfl, rfl, -⟩ := h.registration hnew
  have hmem := List.mem_of_getElem? hr
  obtain ⟨rest, howes, hstream⟩ := hentrance.intake.owed _ hmem
  refine ⟨_, hr, fun t ht => ?_, fun e he => ?_⟩
  · obtain ⟨rfl, rfl⟩ := Registration.result?_eq_ok ht
    simp only [Registration.Owes] at howes
    rw [howes, List.append_nil] at hstream
    exact ⟨rfl, hstream, hentrance.stands _ hmem⟩
  · cases Registration.result?_eq_error he
    refine ⟨hentrance.stands _ hmem, ⟨rest, hstream⟩, fun hc => ?_, ?_, fun hnil => ?_⟩
    · have hnothing : stream t p.requests.envelopes = [] := by
        refine stream_eq_nil fun e' he' ht => ?_
        obtain ⟨r, hr, hre⟩ := (h₀.entrance .start hold).intake.registered e' he'
        exact hfresh r hr (hre.trans ht)
      rw [((hbegun.trans h).topics.1.closed hc).2, hnothing]
    · obtain ⟨m, m', hm, hrest⟩ := h.exists_report hentrance' hn hnew hr
      rw [hbegun.wiring_eq] at hrest
      exact ⟨m, m', hbegun.trans hm, hrest⟩
    · exact (((h₀.trans hbegun).trans h).unseen unseen_start hnil).entryReports_eq

/-! ## Runs -/

theorem Reachable.exists_of_foldlM {α : Type} {l : List Event} {f : Pipeline → α} {a : α}
    (h : Reachable p₀ p) (hs : (l.foldlM Pipeline.step p).map f = some a) :
    ∃ q, Reachable p₀ q ∧ f q = a :=
  ListUpdate.exists_of_foldlM h hs fun _ e _ _ h hs => h.step e hs

/-- How the first registration of a pipeline came out. -/
def firstResult? (p : Pipeline) : Option (Except StageError Token) :=
  (p.registrations[0]?).bind Registration.result?

/-- The topic of requests is closed after the first envelope. -/
theorem outcome_of_register_cut_off : ∃ p' q,
    maskedFile.step (.register ⟨"t"⟩ fileRequest) = some p' ∧ Reachable p' q ∧
    q.firstResult? = some (.error (.closed ⟨requestTopic⟩)) ∧
    stream ⟨"t"⟩ q.requests.envelopes = [⟨⟨"t"⟩, .start⟩] ∧
    Rejected maskedFile q 0 ⟨"t"⟩ fileRequest (.closed ⟨requestTopic⟩) := by
  obtain ⟨p', hp⟩ : ∃ p', maskedFile.step (.register ⟨"t"⟩ fileRequest) = some p' := ⟨_, rfl⟩
  have hbegun : Reachable p' p' := .refl
  obtain ⟨q, hq, hf⟩ := hbegun.exists_of_foldlM
    (l := [.registration 0, .registration 0, .closeRequests, .registration 0, .registration 0])
    (f := fun q => (q.registrations.map Registration.token, q.firstResult?,
      stream ⟨"t"⟩ q.requests.envelopes))
    (a := ([⟨"t"⟩], some (.error (.closed ⟨requestTopic⟩)), [⟨⟨"t"⟩, .start⟩]))
    (by cases hp; rfl)
  simp only [Prod.mk.injEq] at hf
  obtain ⟨htokens, hresult, hstream⟩ := hf
  obtain ⟨r, hr, -, hrejected⟩ := outcome_of_register .refl hp hq (htokens ▸ List.nodup_singleton _)
  refine ⟨p', q, hp, hq, hresult, hstream, hrejected _ ?_⟩
  rw [firstResult?] at hresult
  exact (congrArg (Option.bind · Registration.result?) hr).symm.trans hresult

/-- A registration may fail and leave an envelope, if the topic of requests is closed in between;
and after a shutdown it fails without a report. -/
theorem rejected_with_losses :
    (∃ q, Reachable maskedFile q ∧ q.registrations.map Registration.token = [⟨"t"⟩] ∧
      q.firstResult? = some (.error (.closed ⟨requestTopic⟩)) ∧
      q.requests.envelopes = [⟨⟨"t"⟩, .start⟩]) ∧
    ∃ history p q, Stopping maskedFile history .returned p ∧ p.registrations = [] ∧
      Reachable p q ∧ q.registrations.map Registration.token = [⟨"t"⟩] ∧
      q.firstResult? = some (.error (.closed ⟨requestTopic⟩)) ∧ q.errors.envelopes = [] := by
  constructor
  · have h : Reachable maskedFile maskedFile := .refl
    obtain ⟨q, hq, hf⟩ := h.exists_of_foldlM
      (l := [.register ⟨"t"⟩ fileRequest, .registration 0, .registration 0, .closeRequests,
        .registration 0, .registration 0])
      (f := fun q => (q.registrations.map Registration.token, q.firstResult?, q.requests.envelopes))
      (a := ([⟨"t"⟩], some (.error (.closed ⟨requestTopic⟩)), [⟨⟨"t"⟩, .start⟩])) rfl
    simp only [Prod.mk.injEq] at hf
    exact ⟨q, hq, hf⟩
  · have h : Stopping maskedFile [] .running maskedFile := .start
    obtain ⟨history, phase, p, hp, hf⟩ := h.exists_of_stopAll
      (l := [.closeRequests, .access none, .closeOutput, .index none, .closeErrors,
        .shutdownCoordinator])
      (f := fun reached => (reached.1, reached.2.registrations,
        (List.foldlM Pipeline.step reached.2 (.register ⟨"t"⟩ fileRequest ::
          List.replicate 3 (.registration 0))).map fun q =>
            (q.registrations.map Registration.token, q.firstResult?, q.errors.envelopes)))
      (a := (.returned, [], some ([⟨"t"⟩], some (.error (.closed ⟨requestTopic⟩)), [])))
      rfl
    simp only [Prod.mk.injEq] at hf
    obtain ⟨rfl, hregistrations, hrun⟩ := hf
    have hreturned : Reachable p p := .refl
    obtain ⟨q, hq, hresult⟩ := hreturned.exists_of_foldlM hrun
    simp only [Prod.mk.injEq] at hresult
    exact ⟨history, p, q, hp, hregistrations, hq, hresult⟩

end Pipeline

end PolicyGate
