import Mathlib.Data.List.Flatten
import PolicyGate.Proofs.Offset.Cancelled
import PolicyGate.Proofs.Pipeline.Accounted
import PolicyGate.Proofs.Pipeline.Marked
import PolicyGate.Proofs.Stage.Intake

/-!
The shutdown of a pipeline. It closes the topics one after the other, waits for the stage that reads
a topic before it closes the next one, and cancels the workers in the end, while clients go on.
Main statement: when a shutdown has returned, everything that was registered has come out, every
marker has been handled, nothing can be published any more, and every request for an offset comes to
an answer (`shutdown_drains`). A stage that dies because the clock cannot hold the end of a record
leaves the rest of its topic.
-/

namespace PolicyGate

/-- The accounts of the envelopes of a request are those of two markers with that of the request in
between. -/
theorem Account.eq_of_map_envelope {accounts : List Account} {token : Token} {q : DataRequest}
    (h : accounts.map envelope = q.envelopes token) : ∃ a, a.envelope = ⟨token, .message q⟩ ∧
      accounts = [.marker token .start, a, .marker token .finish] := by
  have hmarker : ∀ (a : Account) (m : Marker), a.envelope = ⟨token, m.frame⟩ →
      a = .marker token m := by
    intro a m ha
    cases a with
    | marker t m' =>
      cases m <;> cases m' <;> cases ha <;> rfl
    | granted | denied | failed => cases m <;> cases ha
  obtain ⟨a, rest, rfl, ha, h⟩ := List.map_eq_cons_iff.1 h
  obtain ⟨b, rest, rfl, hb, h⟩ := List.map_eq_cons_iff.1 h
  obtain ⟨c, rest, rfl, hc, h⟩ := List.map_eq_cons_iff.1 h
  rw [List.map_eq_nil_iff.1 h, hmarker a .start ha, hmarker c .finish hc]
  exact ⟨b, hb, rfl⟩

namespace Pipeline

/-- How far a shutdown has come. -/
inductive ShutdownPhase where
  | running
  /-- the topic of requests is closed, and the policy stage is awaited -/
  | awaitingAccess
  /-- the output topic is closed, and the offset stage is awaited -/
  | awaitingIndex
  /-- all topics are closed -/
  | closed
  /-- the workers are cancelled -/
  | returned
  deriving DecidableEq

namespace ShutdownPhase

/-- The phase after a step. None is due that closes a topic out of turn, that does not wait for a
stage, or that comes when the shutdown has returned. -/
def after? (p : Pipeline) : ShutdownPhase → Event → Option ShutdownPhase
  | running, .closeRequests => some awaitingAccess
  | awaitingAccess, .closeOutput =>
    if p.access.any Consumer.isRunning then none else some awaitingIndex
  | awaitingIndex, .closeErrors => if p.index.any Consumer.isRunning then none else some closed
  | closed, .shutdownCoordinator => some returned
  | returned, _ => none
  | phase, e => if e.closes then none else some phase

/-- Whether the topic of requests is closed. -/
def closesRequests : ShutdownPhase → Bool
  | running => false
  | _ => true

/-- Whether the output topic is closed. -/
def closesOutput : ShutdownPhase → Bool
  | running => false
  | awaitingAccess => false
  | _ => true

/-- Whether the error topic is closed. -/
def closesErrors : ShutdownPhase → Bool
  | closed => true
  | returned => true
  | _ => false

/-- The steps by what they do to the phase. -/
inductive Turn (p : Pipeline) : ShutdownPhase → Event → ShutdownPhase → Prop
  | other {phase e} : phase ≠ returned → e.closes = false → Turn p phase e phase
  | closeRequests : Turn p running .closeRequests awaitingAccess
  | closeOutput : p.access.any Consumer.isRunning = false →
    Turn p awaitingAccess .closeOutput awaitingIndex
  | closeErrors : p.index.any Consumer.isRunning = false →
    Turn p awaitingIndex .closeErrors closed
  | shutdown : Turn p closed .shutdownCoordinator returned

/-- The phase after a step is what the step does to the phase. -/
theorem turn_of_after? {p : Pipeline} {phase phase' : ShutdownPhase} {e : Event}
    (h : phase.after? p e = some phase') : phase.Turn p e phase' := by
  unfold after? at h
  split at h
  · cases h; exact .closeRequests
  · split at h
    · cases h
    · next hr => cases h; exact .closeOutput (by simpa using hr)
  · split at h
    · cases h
    · next hr => cases h; exact .closeErrors (by simpa using hr)
  · cases h; exact .shutdown
  · cases h
  · next hreturned _ _ _ _ =>
    split at h
    · cases h
    · next hc => cases h; exact .other hreturned (by simpa using hc)

end ShutdownPhase

/-- A run in which the pipeline is shut down once, at any moment, while everybody else goes on, with
its history. Nobody else closes a topic. -/
inductive Stopping (p₀ : Pipeline) : List Transition → ShutdownPhase → Pipeline → Prop
  | start : Stopping p₀ [] .running p₀
  | step {history phase phase' p q} {e : Event} : Stopping p₀ history phase p →
    phase.after? p e = some phase' → (hs : p.step e = some q) →
    Stopping p₀ (⟨p, e, q, hs⟩ :: history) phase' q

/-- The policy stage could not store an authorisation because the clock could not hold its end. -/
def AccessOverflows (history : List Transition) : Prop :=
  ∃ t ∈ history, (∃ g rules, t.FailsToStore g rules .clockOverflow) ∧
    t.before.authorised.Overflows t.before.now none

/-- The accounts of all that was published on the topic of requests, when the policy stage has
drained it. -/
structure Tally (history : List Transition) (p : Pipeline) (settled : List Account) : Prop where
  access : ∃ reader, p.access = some ⟨reader, .over .drained⟩
  founded : ∀ (n : Nat) (a : Account), settled[n]? = some a → a.Founded (turnsOn n history)
  requests : settled.map Account.envelope = p.requests.envelopes
  output : p.output.envelopes = settled.flatMap Account.outputs
  events : eventsOf "policy-stage" p.errors = settled.flatMap (Account.events p.accessReporter)

/-- The offset stage has attempted to store the offset of every boundary marker on the output topic,
in the order of the topic, and reported the attempts that failed under their tokens. -/
structure Handled (history : List Transition) (p : Pipeline) : Prop where
  attempted : (attemptsOf history).reverse.map Attempt.offset =
    markerOffsets p.wiring.boundary p.output.envelopes
  /-- an attempt that succeeds has put the offset into the store, under its token -/
  made : ∀ t ∈ history, ∀ a, t.before.attempted? t.event = some a → a.Made t
  reported : (eventsOf "topic-offset-stage" p.errors).map Envelope.token =
    Attempt.failures (attemptsOf history)

/-- A registered request has come out: its markers, with what was granted in between, and the report
if it failed. -/
structure Delivered (history : List Transition) (p : Pipeline) (r : Registration) (a : Account) :
    Prop where
  request : a.envelope = ⟨r.token, .message r.request⟩
  /-- the turns on the envelope of the request make the account, and a put that fails in one of them
  makes it a failure -/
  founded : ∃ n, p.requests.envelopes[n]? = some a.envelope ∧ a.Founded (turnsOn n history) ∧
    ∀ t ∈ turnsOn n history, ∀ g rules e, t.FailsToStore g rules (.failed e) →
      a = .failed r.token r.request (.store e)
  output : (⟨r.token, .start⟩ :: (a.outputs ++ [⟨r.token, .finish⟩])).Sublist p.output.envelopes
  /-- the stream of a token of its own holds nothing else -/
  stream : (p.registrations.map Registration.token).Nodup →
    Envelope.stream r.token p.output.envelopes =
      ⟨r.token, .start⟩ :: (a.outputs ++ [⟨r.token, .finish⟩])
  events : ∀ e ∈ a.events p.accessReporter, e ∈ p.errors.envelopes

/-- What is left of a pipeline whose shutdown has returned: nothing is published any more, and the
requests for offsets that had come in are answered when all mailboxes are handled. -/
structure Silenced (p q : Pipeline) : Prop where
  requests : q.requests.envelopes = p.requests.envelopes ∧
    ∀ envelope, q.requests.publish envelope = .error q.requests.closedError
  output : q.output.envelopes = p.output.envelopes ∧
    ∀ envelope, q.output.publish envelope = .error q.output.closedError
  errors : q.errors.envelopes = p.errors.envelopes ∧
    ∀ envelope, q.errors.publish envelope = .error q.errors.closedError
  answered : (∀ w ∈ q.coordinator.workers, w.mailbox = []) →
    ∀ request < p.coordinator.requests.length, ∃ reply,
      q.coordinator.answersTo request = [reply]

variable {p₀ p q : Pipeline} {e : Event} {history : List Transition}
  {phase phase' : ShutdownPhase} {settled : List Account}

theorem Stopping.course (h : Stopping p₀ history phase p) : Course p₀ history p := by
  induction h with
  | start => exact .start
  | step _ _ hs ih => exact ih.step hs

/-! ## What every step keeps -/

/-- What holds of a run, be it shut down or not. -/
structure Sound (p₀ : Pipeline) (history : List Transition) (p : Pipeline) : Prop where
  course : Course p₀ history p
  books : ∃ consumer settled prepared inHand,
    Books p₀ history p consumer settled prepared inHand
  marked : ∃ stage unreported, Marked history p stage unreported
  coordinator : p.coordinator.Mapping ∧ p.coordinator.Placement
  published : ∀ r ∈ p.registrations, r.HasPublished p.requests.envelopes
  intake : (p.registrations.map Registration.token).Nodup →
    Intake p.registrations p.requests.envelopes

/-- After every step, what the registrations have published is on the topic of requests. -/
theorem published_of_step (H : ∀ r ∈ p.registrations, r.HasPublished p.requests.envelopes)
    (h : p.step e = some q) : ∀ r ∈ q.registrations, r.HasPublished q.requests.envelopes := by
  have hgrow := (stepped h).requests.envelopes
  cases stepped h with
  | @register token request =>
    intro r hr
    rcases List.mem_append.1 hr with hr | hr
    · exact H r hr
    · cases List.mem_singleton.1 hr
      exact .new token request _
  | registration hr hs =>
    intro r' hr'
    rcases List.mem_or_eq_of_mem_set hr' with hr' | rfl
    · exact (H r' hr').grow hgrow
    · exact (H _ (List.mem_of_getElem? hr)).step hs
  | _ => exact fun r hr => (H r hr).grow hgrow

theorem intake_of_step (H : (p.registrations.map Registration.token).Nodup →
    Intake p.registrations p.requests.envelopes) (h : p.step e = some q)
    (hn : (q.registrations.map Registration.token).Nodup) :
    Intake q.registrations q.requests.envelopes := by
  cases stepped h with
  | @register token request =>
    rw [List.map_append, List.nodup_append] at hn
    refine (H hn.1).register (fun r hr ht => ?_) request
    exact hn.2.2 _ (List.mem_map_of_mem hr) token (List.mem_singleton_self _) ht
  | registration hr hs =>
    rw [ListUpdate.map_set_of_eq hr hs.owes.1] at hn
    exact (H hn).step hr hs
  | _ => exact H hn

theorem overflows_of_putAuthorised {fault : Option StoreError} {a : AuthorisedRequest}
    (h : p.putAuthorised fault a = .error .clockOverflow) :
    p.authorised.Overflows p.now none := by
  cases fault with
  | none => exact Store.overflows_of_put h
  | some => cases h

/-- A step does not turn a store into one of another kind. -/
theorem isCache_of_step (h : p.step e = some q) :
    q.authorised.isCache = p.authorised.isCache ∧ q.offsets.isCache = p.offsets.isCache := by
  cases stepped h with
  | @access fault _ _ _ _ _ _ hs =>
    cases hs with
    | @record _ _ g rules =>
      refine ⟨?_, rfl⟩
      cases hp : p.putAuthorised fault (g.authorisation rules) with
      | error => rfl
      | ok => exact Store.isCache_put (put_of_putAuthorised hp)
    | take | drained | next | refused | crashed | decide | lookUp | publish | refuse | report =>
      exact ⟨rfl, rfl⟩
  | @index fault _ _ _ _ _ _ hs =>
    cases hs with
    | @record _ _ o =>
      refine ⟨rfl, ?_⟩
      cases hp : p.putOffset fault o with
      | error => rfl
      | ok => exact Store.isCache_put (put_of_putOffset hp)
    | take | drained | next | report | crashed | announce => exact ⟨rfl, rfl⟩
  | lookup => exact ⟨rfl, Store.isCache_get ..⟩
  | wait => exact ⟨Store.isCache_advance .., Store.isCache_advance ..⟩
  | _ => exact ⟨rfl, rfl⟩

/-- The stores are of the same kinds all along. -/
theorem Course.isCache (h : Course p₀ history p) :
    (p.authorised.isCache = p₀.authorised.isCache ∧ p.offsets.isCache = p₀.offsets.isCache) ∧
    ∀ t ∈ history, t.before.authorised.isCache = p₀.authorised.isCache ∧
      t.before.offsets.isCache = p₀.offsets.isCache := by
  induction h with
  | start => exact ⟨⟨rfl, rfl⟩, List.forall_mem_nil _⟩
  | step _ hs ih =>
    obtain ⟨hauthorised, hoffsets⟩ := isCache_of_step hs
    exact ⟨⟨hauthorised.trans ih.1.1, hoffsets.trans ih.1.2⟩, List.forall_mem_cons.2 ih⟩

theorem sound_of_step (H : p.coordinator.Mapping ∧ p.coordinator.Placement)
    (h : p.step e = some q) : q.coordinator.Mapping ∧ q.coordinator.Placement := by
  rcases coordinator_of_step h with hc | ⟨_, -, hc⟩
  · exact hc ▸ H
  · exact Coordinator.sound_step H.1 H.2 hc

/-- Every step of a run keeps it sound. -/
theorem Sound.step (H : Sound p₀ history p) (hs : p.step e = some q) :
    Sound p₀ (⟨p, e, q, hs⟩ :: history) q where
  course := H.course.step hs
  books := by
    obtain ⟨_, _, _, _, hb⟩ := H.books
    exact hb.step hs
  marked := by
    obtain ⟨_, _, hm⟩ := H.marked
    exact hm.step hs
  coordinator := sound_of_step H.coordinator hs
  published := published_of_step H.published hs
  intake := intake_of_step H.intake hs

theorem concluding_of_step {request : Nat} (H : p.coordinator.Concluding request)
    (h : p.step e = some q) : q.coordinator.Concluding request := by
  rcases coordinator_of_step h with hc | ⟨_, -, hc⟩
  · exact hc ▸ H
  · exact H.step hc

/-! ## The phases -/

theorem AccessOverflows.cons (h : AccessOverflows history) (t : Transition) :
    AccessOverflows (t :: history) := by
  obtain ⟨u, hu, h⟩ := h
  exact ⟨u, List.mem_cons_of_mem _ hu, h⟩

/-- The topics hold the same as before. -/
structure Untouched (p q : Pipeline) : Prop where
  wiring : q.wiring = p.wiring
  requests : q.requests.envelopes = p.requests.envelopes
  output : q.output.envelopes = p.output.envelopes
  errors : q.errors.envelopes = p.errors.envelopes

theorem Stepped.untouched (h : Stepped p e q) (hrequests : p.requests.isClosed)
    (houtput : p.output.isClosed) (herrors : p.errors.isClosed) : Untouched p q :=
  ⟨h.wiring_eq, (h.requests.closed hrequests).2, (h.output.closed houtput).2,
    (h.errors.closed herrors).2⟩

theorem Untouched.eventsOf_eq (h : Untouched p q) (service : String) :
    eventsOf service q.errors = eventsOf service p.errors := by
  rw [eventsOf, eventsOf, h.errors]

/-- What was settled stays settled. -/
theorem Tally.keep (H : Tally history p settled) (h : Untouched p q) (hs : p.step e = some q) :
    Tally (⟨p, e, q, hs⟩ :: history) q settled := by
  obtain ⟨reader, ha⟩ := H.access
  have hplace : (Transition.mk p e q hs).place? = none := Transition.place?_eq_none ha nofun
  constructor
  case access => exact ⟨reader, (stays_of_over ha hs).1.trans ha⟩
  case founded =>
    intro n a hn
    rw [turnsOn_cons_of_ne (by simp [hplace])]
    exact H.founded n a hn
  case requests => exact H.requests.trans h.requests.symm
  case output => exact h.output.trans H.output
  case events =>
    have hreporter : q.accessReporter = p.accessReporter := by
      rw [accessReporter, reporter, h.wiring]
      rfl
    rw [h.eventsOf_eq, hreporter, H.events]

theorem Handled.keep (H : Handled history p) (h : Untouched p q) (hs : p.step e = some q)
    (hnone : p.attempted? e = none) : Handled (⟨p, e, q, hs⟩ :: history) q := by
  have hattempts : attemptsOf (⟨p, e, q, hs⟩ :: history) = attemptsOf history := by
    rw [attemptsOf_cons, hnone]
    rfl
  constructor
  case attempted => rw [hattempts, h.output, h.wiring, H.attempted]
  case made => exact fun t _ a ha => t.made ha
  case reported => rw [hattempts, h.eventsOf_eq, H.reported]

/-- The policy stage has drained the topic of requests, or died. -/
def AccessEnded (history : List Transition) (p : Pipeline) : Prop :=
  (∃ reader, p.access = some ⟨reader, .over .drained⟩) ∨ AccessOverflows history

theorem AccessEnded.step (H : AccessEnded history p) (hs : p.step e = some q) :
    AccessEnded (⟨p, e, q, hs⟩ :: history) q := by
  rcases H with ⟨reader, ha⟩ | H
  · exact .inl ⟨reader, (stays_of_over ha hs).1.trans ha⟩
  · exact .inr (H.cons _)

/-- What is settled once both stages have stopped. -/
structure Concluded (history : List Transition) (p : Pipeline) : Prop where
  index : ∃ reader ending, p.index = some ⟨reader, .over ending⟩
  tally : AccessOverflows history ∨ ∃ settled, Tally history p settled
  handled : OffsetOverflows history ∨ Handled history p

/-- An offset stage that is over attempts nothing more. -/
theorem stays_of_index_over {reader : Reader} {ending : ConsumerEnd}
    (hi : p.index = some ⟨reader, .over ending⟩) (h : p.step e = some q) :
    p.attempted? e = none ∧ q.index = some ⟨reader, .over ending⟩ := by
  cases stepped h with
  | index hi' hs =>
    cases hi.symm.trans hi'
    cases hs
  | coordinate he => exact ⟨attempted?_of_command? he, hi⟩
  | _ => exact ⟨rfl, hi⟩

theorem Concluded.step (H : Concluded history p) (hu : Untouched p q) (hs : p.step e = some q) :
    Concluded (⟨p, e, q, hs⟩ :: history) q := by
  obtain ⟨reader, ending, hi⟩ := H.index
  obtain ⟨hnone, hi'⟩ := stays_of_index_over hi hs
  exact ⟨⟨reader, ending, hi'⟩,
    H.tally.imp (fun ho => ho.cons _) fun ⟨settled, ht⟩ => ⟨settled, ht.keep hu hs⟩,
    H.handled.imp (fun ho => ho.cons _) fun hh => hh.keep hu hs hnone⟩

/-- What holds in a phase. -/
structure Halting (history : List Transition) (phase : ShutdownPhase) (p : Pipeline) : Prop where
  requests : p.requests.isClosed = phase.closesRequests
  output : p.output.isClosed = phase.closesOutput
  errors : p.errors.isClosed = phase.closesErrors
  access : phase.closesOutput → AccessEnded history p
  concluded : phase.closesErrors → Concluded history p
  cancelled : phase = .returned → ∀ w ∈ p.coordinator.workers, w.isOpen →
    .cancel Coordinator.shutdownReason ∈ w.mailbox

/-- A policy stage that has stopped while the output topic was open was not refused. -/
theorem Books.ended {consumer : Consumer AccessWork} {prepared : Option Account}
    {inHand : List (Envelope DataRequest)}
    (H : Books p₀ history p consumer settled prepared inHand)
    (hover : consumer.isRunning = false) (hopen : p.output.isClosed = false) :
    AccessEnded history p := by
  obtain ⟨reader, state⟩ := consumer
  have hhand := H.atHand
  have hrefused := H.refused
  generalize hown : turnsOn settled.length history = own at hhand
  cases hhand with
  | drained => exact .inl ⟨reader, H.access⟩
  | stopped =>
    rw [hrefused .over] at hopen
    cases hopen
  | @aborted _ _ _ t _ hr =>
    have ht : t ∈ turnsOn settled.length history := hown ▸ List.mem_cons_self
    obtain ⟨fault, -, hput⟩ := hr.put
    exact .inr ⟨t, mem_of_mem_turnsOn ht, ⟨_, _, hr⟩, overflows_of_putAuthorised hput⟩
  | idle | deciding | granted | recording | publishing | reporting | done | refused | crashed =>
    cases hover

/-- The books of a policy stage that has drained its topic are complete. -/
theorem Books.tally {consumer : Consumer AccessWork} {prepared : Option Account}
    {inHand : List (Envelope DataRequest)} {reader : Reader}
    (H : Books p₀ history p consumer settled prepared inHand)
    (hdrained : p.access = some ⟨reader, .over .drained⟩) (hopen : p.errors.isClosed = false)
    (houtput : p₀.output.envelopes = []) (herrors : p₀.errors.envelopes = []) :
    Tally history p settled := by
  cases H.access.symm.trans hdrained
  obtain ⟨-, hposition⟩ := H.drained rfl
  have htaken := H.taken
  have hhand := H.atHand
  generalize turnsOn settled.length history = own at hhand
  cases hhand
  have hreporter : p.accessReporter = p₀.accessReporter := by
    rw [accessReporter, reporter, H.wiring]
    rfl
  constructor
  · exact ⟨reader, hdrained⟩
  · exact H.founded
  · rw [hposition, List.take_length] at htaken
    simpa using htaken
  · rw [H.output, houtput, List.nil_append]
  · rw [H.events hopen, eventsOf, herrors, hreporter]
    rfl

/-- Two stages that have stopped while the error topic was open have left nothing undone. -/
theorem Sound.concluded (S : Sound p₀ history p) (houtput : p₀.output.envelopes = [])
    (herrors : p₀.errors.envelopes = []) (haccess : AccessEnded history p)
    (hover : p.index.any Consumer.isRunning = false) (hopen : p.errors.isClosed = false) :
    Concluded history p := by
  obtain ⟨⟨reader, state⟩, _, hm⟩ := S.marked
  rw [hm.index, Option.any_some] at hover
  cases state with
  | idle | busy => cases hover
  | «over» ending =>
    refine ⟨⟨reader, ending, hm.index⟩, ?_, (hm.handled rfl hopen).symm.imp_right ?_⟩
    · rcases haccess with ⟨_, hdrained⟩ | ho
      · obtain ⟨_, _, _, _, hb⟩ := S.books
        exact .inr ⟨_, hb.tally hdrained hopen houtput herrors⟩
      · exact .inl ho
    · exact fun ⟨hattempted, hreported⟩ =>
        ⟨hattempted, fun t _ a ha => t.made ha, hreported⟩

theorem Halting.untouched (H : Halting history phase p) (hc : phase.closesErrors)
    (h : Stepped p e q) : Untouched p q := by
  have hearlier : phase.closesRequests ∧ phase.closesOutput := by
    cases phase with
    | running | awaitingAccess | awaitingIndex => cases hc
    | closed | returned => exact ⟨rfl, rfl⟩
  exact h.untouched (H.requests.trans hearlier.1) (H.output.trans hearlier.2) (H.errors.trans hc)

/-- A step that leaves the topics open leaves the phase as it is. -/
theorem Halting.other (H : Halting history phase p) (hphase : phase ≠ .returned)
    (he : e.closes = false) (h : p.step e = some q) :
    Halting (⟨p, e, q, h⟩ :: history) phase q := by
  obtain ⟨hrequests, houtput, herrors⟩ := (stepped h).isClosed_eq he
  constructor
  · exact hrequests.trans H.requests
  · exact houtput.trans H.output
  · exact herrors.trans H.errors
  · exact fun hc => (H.access hc).step h
  · exact fun hc => (H.concluded hc).step (H.untouched hc (stepped h)) h
  · exact fun hr => absurd hr hphase

/-- Every step of a shutdown keeps what holds in its phase. -/
theorem Halting.step (S : Sound p₀ history p) (houtput : p₀.output.envelopes = [])
    (herrors : p₀.errors.envelopes = []) (H : Halting history phase p)
    (ht : phase.Turn p e phase') (h : p.step e = some q) :
    Halting (⟨p, e, q, h⟩ :: history) phase' q := by
  cases ht with
  | other hphase he => exact H.other hphase he h
  | closeRequests =>
    cases h
    exact ⟨rfl, H.output, H.errors, nofun, nofun, nofun⟩
  | closeOutput hover =>
    obtain ⟨consumer, _, _, _, hb⟩ := S.books
    rw [hb.access, Option.any_some] at hover
    have haccess := (hb.ended hover H.output).step h
    cases h
    exact ⟨H.requests, rfl, H.errors, fun _ => haccess, nofun, nofun⟩
  | closeErrors hover =>
    have haccess := (H.access rfl).step h
    have hconcluded := S.concluded houtput herrors (H.access rfl) hover H.errors
    have hconcluded' := fun hu => hconcluded.step hu h
    cases h
    exact ⟨H.requests, H.output, rfl, fun _ => haccess,
      fun _ => hconcluded' ⟨rfl, rfl, rfl, rfl⟩, nofun⟩
  | shutdown =>
    obtain ⟨hrequests, houtput, herrors⟩ := (stepped h).isClosed_eq rfl
    have hconcluded := (H.concluded rfl).step (H.untouched rfl (stepped h)) h
    have hmapping := S.coordinator.1
    refine ⟨hrequests.trans H.requests, houtput.trans H.output, herrors.trans H.errors,
      fun _ => (H.access rfl).step h, fun _ => hconcluded, fun _ w hw ho => ?_⟩
    cases h
    exact Coordinator.cancelled_shutdown hmapping hw ho

variable {wiring : Wiring} {policies : PolicyService} {users : UserDirectory}
  {authorised offsets : Store} {timeout : Duration}

theorem sound_start :
    Sound (start wiring policies users authorised offsets timeout) []
      (start wiring policies users authorised offsets timeout) where
  course := .start
  books := Course.start.books rfl
  marked := Course.start.marked rfl rfl
  coordinator := ⟨Coordinator.mapping_new timeout, Coordinator.placement_new timeout⟩
  published _ hr := nomatch hr
  intake _ := .nil

/-- What holds in the phase that a run has come to. -/
theorem halting_of_stopping
    (h : Stopping (start wiring policies users authorised offsets timeout) history phase p) :
    Sound (start wiring policies users authorised offsets timeout) history p ∧
      Halting history phase p := by
  induction h with
  | start => exact ⟨sound_start, rfl, rfl, rfl, nofun, nofun, nofun⟩
  | step _ ht hs ih =>
    exact ⟨ih.1.step hs, ih.2.step ih.1 rfl rfl (ShutdownPhase.turn_of_after? ht) hs⟩

/-! ## What comes out -/

/-- The accounts of a registered request say what has come out for it. -/
theorem Tally.delivered {r : Registration} (H : Tally history p settled)
    (hpublished : r.HasPublished p.requests.envelopes) (hintake :
      (p.registrations.map Registration.token).Nodup → Intake p.registrations p.requests.envelopes)
    (hr : r ∈ p.registrations) (hp : r.phase = .registered) : ∃ a, Delivered history p r a := by
  -- a token of its own tells which accounts are those of the request
  obtain ⟨accounts, haccounts, henvelopes, hstream⟩ : ∃ accounts, accounts.Sublist settled ∧
      accounts.map Account.envelope = r.request.envelopes r.token ∧
      ((p.registrations.map Registration.token).Nodup →
        accounts = settled.filter fun a => a.envelope.token = r.token) := by
    by_cases hn : (p.registrations.map Registration.token).Nodup
    · obtain ⟨rest, howes, hrest⟩ := (hintake hn).owed r hr
      simp only [Registration.Owes, hp] at howes
      rw [howes, List.append_nil, ← H.requests, Account.stream_map_envelope] at hrest
      exact ⟨_, List.filter_sublist, hrest, fun _ => rfl⟩
    · have hsublist := hpublished.sublist_of_registered hp
      rw [← H.requests] at hsublist
      obtain ⟨accounts, ha, he⟩ := List.sublist_map_iff.1 hsublist
      exact ⟨accounts, ha, he.symm, fun h => absurd h hn⟩
  obtain ⟨a, hrequest, rfl⟩ := Account.eq_of_map_envelope henvelopes
  have houtputs : [Account.marker r.token .start, a, .marker r.token .finish].flatMap
      Account.outputs = ⟨r.token, .start⟩ :: (a.outputs ++ [⟨r.token, .finish⟩]) := rfl
  have hmem : a ∈ settled := haccounts.subset (List.mem_cons_of_mem _ List.mem_cons_self)
  refine ⟨a, hrequest, ?_, ?_, fun hn => ?_, fun e he => ?_⟩
  · obtain ⟨n, hn⟩ := List.getElem?_of_mem hmem
    refine ⟨n, by rw [← H.requests, List.getElem?_map, hn]; rfl, H.founded n a hn, ?_⟩
    intro t ht g rules e hf
    have hfailed := (H.founded n a hn).eq_failed ht hf
    obtain ⟨htoken, hmessage⟩ := Envelope.mk.inj ((congrArg Account.envelope hfailed).symm.trans
      hrequest)
    rw [hfailed, htoken, Frame.message.inj hmessage]
  · rw [H.output, ← houtputs]
    exact haccounts.flatMap _
  · rw [H.output, Account.stream_outputs, ← hstream hn, houtputs]
  · refine List.mem_of_mem_filter (?_ : e ∈ eventsOf "policy-stage" p.errors)
    rw [H.events]
    exact List.mem_flatMap.2 ⟨a, hmem, he⟩

/-- After the return of a shutdown nothing is published, and whoever has asked for an offset hears
of it. -/
theorem Halting.silenced (S : Sound p₀ history p) (H : Halting history .returned p)
    (h : Reachable p q) : Silenced p q := by
  obtain ⟨hrequests, houtput, herrors⟩ := h.topics
  obtain ⟨hrc, hre⟩ := hrequests.closed H.requests
  obtain ⟨hoc, hoe⟩ := houtput.closed H.output
  obtain ⟨hec, hee⟩ := herrors.closed H.errors
  have hcoordinator : (q.coordinator.Mapping ∧ q.coordinator.Placement) ∧
      ∀ request < p.coordinator.requests.length, q.coordinator.Concluding request := by
    clear * - S H h
    induction h with
    | refl => exact ⟨S.coordinator, fun _ hr => S.coordinator.2.concluding (H.cancelled rfl) hr⟩
    | step _ _ hs ih =>
      exact ⟨sound_of_step ih.1 hs, fun request hr => concluding_of_step (ih.2 request hr) hs⟩
  exact ⟨⟨hre, Log.publish_of_isClosed hrc⟩, ⟨hoe, Log.publish_of_isClosed hoc⟩,
    ⟨hee, Log.publish_of_isClosed hec⟩,
    fun hm request hr => (hcoordinator.2 request hr).answersTo_eq hcoordinator.1.2 hm⟩

/-- Once a shutdown has returned, every request that was registered has its two markers on the
output topic, with what was granted or nothing in between, and its report if it failed, as it does
when its authorisation could not be stored; and the offset of every boundary marker on the output
topic has been put into the store, or its failure has been reported. Only a cache can spoil this,
when the clock cannot hold the end of what is stored. Every worker that takes commands has been told
to stop, and from then on nothing is published, and the requests for offsets that had come in are
answered when the workers have handled their mailboxes. -/
theorem shutdown_drains
    (h : Stopping (start wiring policies users authorised offsets timeout) history .returned p) :
    (authorised.isCache ∧ AccessOverflows history ∨
      ∀ r ∈ p.registrations, r.phase = .registered → ∃ a, Delivered history p r a) ∧
    (offsets.isCache ∧ OffsetOverflows history ∨ Handled history p) ∧
    (∀ w ∈ p.coordinator.workers, w.isOpen → .cancel Coordinator.shutdownReason ∈ w.mailbox) ∧
    ∀ q, Reachable p q → Silenced p q := by
  obtain ⟨S, H⟩ := halting_of_stopping h
  obtain ⟨-, htally, hhandled⟩ := H.concluded rfl
  obtain ⟨-, hcache⟩ := h.course.isCache
  have hauthorised : AccessOverflows history → authorised.isCache := fun ⟨t, ht, _, ho⟩ =>
    (hcache t ht).1.symm.trans (Store.isCache_of_overflows ho)
  have hoffsets : OffsetOverflows history → offsets.isCache := fun ⟨t, ht, _, ho⟩ =>
    (hcache t ht).2.symm.trans (Store.isCache_of_overflows ho)
  refine ⟨htally.imp (fun ho => ⟨hauthorised ho, ho⟩) fun ⟨settled, ht⟩ r hr hp => ?_,
    hhandled.imp_left fun ho => ⟨hoffsets ho, ho⟩, H.cancelled rfl, fun q hq => H.silenced S hq⟩
  exact ht.delivered (S.published r hr) S.intake hr hp

/-! ## Runs -/

/-- Takes steps one after the other, as far as the shutdown lets them be taken. -/
def stopAll (s : ShutdownPhase × Pipeline) (events : List Event) :
    Option (ShutdownPhase × Pipeline) :=
  events.foldlM (fun (phase, p) e => (phase.after? p e).bind fun phase' =>
    (p.step e).map fun q => (phase', q)) s

theorem Stopping.exists_of_stopAll {α : Type} {l : List Event} {f : ShutdownPhase × Pipeline → α}
    {a : α} (h : Stopping p₀ history phase p) (hr : (stopAll (phase, p) l).map f = some a) :
    ∃ history' phase' q, Stopping p₀ history' phase' q ∧ f (phase', q) = a := by
  have hrun := ListUpdate.exists_of_foldlM
    (R := fun s => ∃ history, Stopping p₀ history s.1 s.2) ⟨history, h⟩ hr ?_
  · obtain ⟨⟨phase', q⟩, ⟨history', h⟩, hf⟩ := hrun
    exact ⟨history', phase', q, h, hf⟩
  · intro s e _ s' ⟨history, h⟩ hs
    obtain ⟨phase', ht, hs⟩ := Option.bind_eq_some_iff.1 hs
    obtain ⟨q, hq, rfl⟩ := Option.map_eq_some_iff.1 hs
    exact ⟨_, h.step ht hq⟩

/-- One request is registered and another one half published when the shutdown begins, and a client
waits for the offset of a token that never gets one. -/
theorem shutdown_drains_halfway : ∃ history p,
    Stopping maskedFile history .returned p ∧
    p.registrations.map (fun r => r.result?.any Except.isOk) = [true, false] ∧
    p.output.envelopes.map (fun e => (e.token, e.marker?)) =
      [(⟨"t"⟩, some .start), (⟨"t"⟩, none), (⟨"t"⟩, some .finish), (⟨"s"⟩, some .start)] ∧
    p.coordinator.workers.map Worker.mailbox = [[.cancel Coordinator.shutdownReason]] ∧
    (∀ r ∈ p.registrations, r.phase = .registered → ∃ a, Delivered history p r a) ∧
    Handled history p ∧ ∀ q, Reachable p q → Silenced p q := by
  have h : Stopping maskedFile [] .running maskedFile := .start
  obtain ⟨history, phase, p, hp, hf⟩ := h.exists_of_stopAll
    (l := List.flatten [.register ⟨"t"⟩ ⟨⟨"u"⟩, ⟨"file:/p"⟩, .empty⟩ ::
        List.replicate 5 (.registration 0),
      [.ask ⟨"w"⟩, .workerStart 0, .workerLookup 0 none, .workerResolve 0],
      [.register ⟨"s"⟩ ⟨⟨"u"⟩, ⟨"file:/p"⟩, .empty⟩, .registration 1, .registration 1],
      [.closeRequests, .registration 1, .registration 1], List.replicate 16 (.access none),
      .closeOutput :: List.replicate 13 (.index none), [.closeErrors, .shutdownCoordinator]])
    (f := fun (phase, p) =>
      ((phase, p.registrations.map fun r => r.result?.any Except.isOk),
        p.output.envelopes.map fun e => (e.token, e.marker?),
        p.coordinator.workers.map Worker.mailbox))
    (a := ((.returned, [true, false]),
      [(⟨"t"⟩, some .start), (⟨"t"⟩, none), (⟨"t"⟩, some .finish), (⟨"s"⟩, some .start)],
      [[.cancel Coordinator.shutdownReason]]))
    (by decide +kernel)
  simp only [Prod.mk.injEq] at hf
  obtain ⟨⟨rfl, hregistrations⟩, houtput, hmailboxes⟩ := hf
  obtain ⟨hdelivered, hhandled, -, hsilenced⟩ := shutdown_drains hp
  -- neither store is a cache
  exact ⟨history, p, hp, hregistrations, houtput, hmailboxes,
    hdelivered.resolve_left (fun hc => nomatch hc.1),
    hhandled.resolve_left (fun hc => nomatch hc.1), hsilenced⟩

/-- The pipeline of the masked file with offsets that are to be kept for longer than the clock
goes. -/
def endlessOffsets : Pipeline :=
  start { maskedFile.wiring with offsetTtl := .ofSeconds 10000000000000000000 } maskedFile.policies
    .empty (.memory .empty) (.cache (.ofSeconds 10000000000000000000)) ⟨1000⟩

/-- Another call of a shutdown while the first one waits: it has no stage left to wait for. -/
def shutdownAgain (p : Pipeline) : Option Pipeline :=
  [Event.closeRequests, .closeOutput, .closeErrors, .shutdownCoordinator].foldlM step p

/-- The offset stage dies of the first marker, which is neither stored nor reported. A second call
while the first one waits for the policy stage closes the output topic before anything has come out
for a request that was registered. -/
theorem shutdown_loses :
    (∃ history p, Stopping endlessOffsets history .returned p ∧
      p.registrations.map (fun r => r.result?.any Except.isOk) = [true] ∧
      markerOffsets p.wiring.boundary p.output.envelopes = [⟨⟨"t"⟩, 0⟩] ∧
      p.lookup ⟨"t"⟩ = .ok none ∧ p.errors.envelopes = []) ∧
    ∃ history p q, Stopping maskedFile history .awaitingAccess p ∧
      p.registrations.map (fun r => r.result?.any Except.isOk) = [true] ∧
      p.shutdownAgain = some q ∧ ∀ r, Reachable q r → r.output.envelopes = [] := by
  constructor
  · have h : Stopping endlessOffsets [] .running endlessOffsets := .start
    obtain ⟨history, phase, p, hp, hf⟩ := h.exists_of_stopAll
      (l := List.flatten [.register ⟨"t"⟩ ⟨⟨"u"⟩, ⟨"file:/p"⟩, .empty⟩ ::
          List.replicate 5 (.registration 0), .closeRequests :: List.replicate 13 (.access none),
        .closeOutput :: List.replicate 3 (.index none), [.closeErrors, .shutdownCoordinator]])
      (f := fun (phase, p) => ((phase, p.registrations.map fun r => r.result?.any Except.isOk),
        markerOffsets p.wiring.boundary p.output.envelopes, (p.lookup ⟨"t"⟩).toOption,
        p.errors.envelopes.map Envelope.token))
      (a := ((.returned, [true]), [⟨⟨"t"⟩, 0⟩], some none, []))
      (by decide +kernel)
    simp only [Prod.mk.injEq] at hf
    obtain ⟨⟨rfl, hregistrations⟩, hmarkers, hlookup, herrors⟩ := hf
    exact ⟨history, p, hp, hregistrations, hmarkers, eq_ok_of_toOption hlookup,
      List.map_eq_nil_iff.1 herrors⟩
  · have h : Stopping maskedFile [] .running maskedFile := .start
    obtain ⟨history, phase, p, hp, hf⟩ := h.exists_of_stopAll
      (l := .register ⟨"t"⟩ ⟨⟨"u"⟩, ⟨"file:/p"⟩, .empty⟩ ::
        (List.replicate 5 (.registration 0) ++ [.closeRequests]))
      (f := fun (phase, p) => (phase, p.registrations.map fun r => r.result?.any Except.isOk,
        p.output.envelopes.map Envelope.token))
      (a := (.awaitingAccess, [true], [])) (by decide +kernel)
    simp only [Prod.mk.injEq] at hf
    obtain ⟨rfl, hregistrations, houtput⟩ := hf
    refine ⟨history, p, _, hp, hregistrations, rfl, fun r hr => ?_⟩
    rw [(hr.topics.2.1.closed rfl).2]
    exact List.map_eq_nil_iff.1 houtput

end Pipeline

end PolicyGate
