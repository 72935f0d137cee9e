import PolicyGate.Proofs.Stage.Account

/-!
The books of the policy stage. Whatever comes between its steps, every envelope that it has taken
has its account, founded on the turns that the stage has taken on it, except for the one that it is
at work on; and what was stored, released and reported is what these accounts say. Main statements:
every step keeps the books (`Books.step`), and so a stage that starts with the topic of requests has
them (`Course.books`).
-/

namespace PolicyGate.Pipeline

/-- A state in which the policy stage has met with a closed output topic. -/
inductive Refuses : ConsumerState AccessWork → Prop
  | refused {t e} : Refuses (.busy t (.refused e))
  | over : Refuses (.over .refused)

/-- A step of others than the policy stage: the topic of requests may grow while it is open, and
topics may be closed. -/
structure Aside (p q : Pipeline) : Prop where
  access : q.access = p.access
  wiring : q.wiring = p.wiring
  requests : p.requests.envelopes <+: q.requests.envelopes
  requestsClosed : p.requests.isClosed →
    q.requests.isClosed ∧ q.requests.envelopes = p.requests.envelopes
  output : q.output.envelopes = p.output.envelopes
  outputClosed : p.output.isClosed → q.output.isClosed
  events : eventsOf "policy-stage" q.errors = eventsOf "policy-stage" p.errors
  errorsOpen : q.errors.isClosed = false → p.errors.isClosed = false

/-- The books on what the policy stage has taken: the accounts that are settled, the one that is
about to be, and the envelope that it is still at work on. -/
structure Books (p₀ : Pipeline) (history : List Transition) (p : Pipeline)
    (consumer : Consumer AccessWork) (settled : List Account) (prepared : Option Account)
    (inHand : List (Envelope DataRequest)) : Prop where
  access : p.access = some consumer
  wiring : p.wiring = p₀.wiring
  atHand : AtHand (turnsOn settled.length history) consumer.state prepared inHand
  founded : ∀ (n : Nat) (a : Account), settled[n]? = some a → a.Founded (turnsOn n history)
  /-- no turn was taken on an envelope that comes later -/
  places : ∀ t ∈ history, ∀ n, t.place? = some n → n < consumer.reader.position
  position : consumer.reader.position ≤ p.requests.envelopes.length
  taken : (settled ++ prepared.toList).map Account.envelope ++ inHand =
    p.requests.envelopes.take consumer.reader.position
  output : p.output.envelopes = p₀.output.envelopes ++ settled.flatMap Account.outputs
  records : (recordsOf history).reverse = (settled ++ prepared.toList).flatMap Account.records
  events : p.errors.isClosed = false → eventsOf "policy-stage" p.errors =
    eventsOf "policy-stage" p₀.errors ++ settled.flatMap (Account.events p₀.accessReporter)
  drained : consumer.state = .over .drained →
    p.requests.isClosed ∧ consumer.reader.position = p.requests.envelopes.length
  refused : Refuses consumer.state → p.output.isClosed

variable {p₀ p q : Pipeline} {e : Event} {history : List Transition}
  {consumer consumer' : Consumer AccessWork} {settled : List Account} {prepared : Option Account}
  {inHand : List (Envelope DataRequest)} {fault : Option StoreError}

theorem recorded?_access (ha : p.access = some consumer) : p.recorded? (.access fault) =
    match consumer.state with
    | .busy _ (.recording g rules) =>
      (p.putAuthorised fault (g.authorisation rules)).toOption.map fun _ => g.authorisation rules
    | _ => none := by
  obtain ⟨reader, state⟩ := consumer
  simp only [recorded?, ha]
  split <;> simp_all

/-! ## Steps of others -/

/-- Who is not the policy stage leaves its part alone. -/
theorem Stepped.aside (h : Stepped p e q) (he : ∀ fault, e ≠ .access fault) : Aside p q where
  access := by
    cases h with
    | access => exact absurd rfl (he _)
    | _ => rfl
  wiring := h.wiring_eq
  requests := h.requests.envelopes
  requestsClosed := h.requests.closed
  output := by
    cases h with
    | access => exact absurd rfl (he _)
    | _ => rfl
  outputClosed hc := (h.output.closed hc).1
  events := by
    refine h.eventsOf_eq ?_
    cases e with
    | access => exact absurd rfl (he _)
    | _ => simp [Event.service?]
  errorsOpen hc := by
    rw [Bool.eq_false_iff] at hc ⊢
    exact fun hp => hc (h.errors.closed hp).1

/-- A step is one of the policy stage, or one of others. -/
theorem access_or_aside (h : p.step e = some q) :
    (∃ fault consumer authorised output errors consumer', e = .access fault ∧
      p.access = some consumer ∧
      p.AccessStepped fault consumer authorised output errors consumer' ∧
      q = { p with authorised, output, errors, access := some consumer' }) ∨
    (∀ fault, e ≠ .access fault) ∧ Aside p q := by
  by_cases he : ∃ fault, e = .access fault
  · obtain ⟨fault, rfl⟩ := he
    cases stepped h with
    | access ha hs => exact .inl ⟨_, _, _, _, _, _, rfl, ha, hs, rfl⟩
    | coordinate hce => cases hce
  · have hne : ∀ fault, e ≠ .access fault := fun fault hf => he ⟨fault, hf⟩
    exact .inr ⟨hne, (stepped h).aside hne⟩

theorem recorded?_of_ne (he : ∀ fault, e ≠ .access fault) : p.recorded? e = none := by
  cases e with
  | access fault => exact absurd rfl (he fault)
  | _ => rfl

namespace Books

/-- What is no step of the policy stage leaves its books as they are. -/
theorem aside (H : Books p₀ history p consumer settled prepared inHand)
    (he : ∀ fault, e ≠ .access fault) (hs : p.step e = some q) (h : Aside p q) :
    Books p₀ (⟨p, e, q, hs⟩ :: history) q consumer settled prepared inHand := by
  have hplace : (Transition.mk p e q hs).place? = none := Transition.place?_eq_none_of_ne he
  have hturns : ∀ n, turnsOn n (⟨p, e, q, hs⟩ :: history) = turnsOn n history := fun n =>
    turnsOn_cons_of_ne (by simp [hplace]) history
  constructor
  case access => exact h.access.trans H.access
  case wiring => exact h.wiring.trans H.wiring
  case atHand => exact hturns _ ▸ H.atHand
  case founded => exact fun n a ha => hturns n ▸ H.founded n a ha
  case places => exact List.forall_mem_cons.2 ⟨by simp [hplace], H.places⟩
  case position => exact Nat.le_trans H.position h.requests.length_le
  case taken =>
    rw [H.taken]
    obtain ⟨more, hm⟩ := h.requests
    rw [← hm, List.take_append_of_le_length H.position]
  case output => exact h.output.trans H.output
  case records =>
    rw [recordsOf_cons, recorded?_of_ne he]
    exact H.records
  case events => exact fun hc => by rw [h.events, H.events (h.errorsOpen hc)]
  case drained =>
    intro hd
    obtain ⟨hc, hp⟩ := H.drained hd
    obtain ⟨hc', he⟩ := h.requestsClosed hc
    exact ⟨hc', by rw [hp, he]⟩
  case refused => exact fun hr => h.outputClosed (H.refused hr)

/-- The accounts are of the first envelopes on the topic of requests. -/
theorem isPrefix_requests (H : Books p₀ history p consumer settled prepared inHand) :
    (settled ++ prepared.toList).map Account.envelope <+: p.requests.envelopes :=
  (H.taken ▸ List.prefix_append ..).trans (List.take_prefix ..)

/-- The stage has taken the envelopes of the settled accounts and the one at hand. -/
theorem position_eq (H : Books p₀ history p consumer settled prepared inHand) :
    consumer.reader.position = settled.length + (prepared.toList.length + inHand.length) := by
  have hlength := congrArg List.length H.taken
  rw [List.length_take_of_le H.position, List.length_append, List.length_map,
    List.length_append] at hlength
  omega

/-- Whatever was stored was granted. -/
theorem exists_granted (H : Books p₀ history p consumer settled prepared inHand)
    {a : AuthorisedRequest} (ha : a ∈ recordsOf history) : ∃ g rules, a = g.authorisation rules ∧
      Account.granted g rules ∈ settled ++ prepared.toList := by
  rw [← List.mem_reverse, H.records] at ha
  obtain ⟨x, hx, ha⟩ := List.mem_flatMap.1 ha
  cases x with
  | granted g rules => exact ⟨g, rules, List.mem_singleton.1 ha, hx⟩
  | marker | denied | failed => cases ha

theorem position_of_busy {reader : Reader} {token : Token} {work : AccessWork}
    (H : Books p₀ history p ⟨reader, .busy token work⟩ settled prepared inHand)
    (hw : work.isOver = false) : reader.position = settled.length + 1 := by
  have hposition := H.position_eq
  have hhand := H.atHand
  generalize turnsOn settled.length history = own at hhand
  cases hhand with
  | deciding | granted | recording | publishing | reporting => exact hposition
  | done | refused | crashed => cases hw

/-- While the stage is at work on an envelope, this is the one after those that are settled. -/
theorem place?_eq {reader : Reader} {token : Token} {work : AccessWork}
    (H : Books p₀ history p ⟨reader, .busy token work⟩ settled prepared inHand)
    (hw : work.isOver = false) (hs : p.step (.access fault) = some q) :
    (Transition.mk p (.access fault) q hs).place? = some settled.length := by
  rw [Transition.place?_eq rfl H.access hw, H.position_of_busy hw, Nat.add_sub_cancel]

/-- A turn on the envelope at hand is none on those before. -/
theorem founded_cons {t : Transition} {n : Nat} {a : Account}
    (H : Books p₀ history p consumer settled prepared inHand)
    (ht : t.place? = some settled.length) (ha : settled[n]? = some a) :
    a.Founded (turnsOn n (t :: history)) := by
  have hn := (List.getElem?_eq_some_iff.1 ha).1
  have hne : t.place? ≠ some n := by
    rw [ht]
    exact fun h => Nat.ne_of_gt hn (Option.some.inj h)
  rw [turnsOn_cons_of_ne hne]
  exact H.founded n a ha

/-- The stage goes on with the envelope at hand without settling its account. -/
theorem shift {reader : Reader} {token : Token} {work : AccessWork}
    {state' : ConsumerState AccessWork} {authorised : Store} {prepared' : Option Account}
    {inHand' : List (Envelope DataRequest)}
    (H : Books p₀ history p ⟨reader, .busy token work⟩ settled prepared inHand)
    (hw : work.isOver = false)
    (hs : p.step (.access fault) = some { p with authorised, access := some ⟨reader, state'⟩ })
    (hhand : AtHand (⟨p, _, _, hs⟩ :: turnsOn settled.length history) state' prepared' inHand')
    (htaken : prepared'.toList.map Account.envelope ++ inHand' =
      prepared.toList.map Account.envelope ++ inHand)
    (hrecords : prepared'.toList.flatMap Account.records =
      prepared.toList.flatMap Account.records ++ (p.recorded? (.access fault)).toList)
    (hdrained : state' ≠ .over .drained) (hrefused : Refuses state' → p.output.isClosed) :
    Books p₀ (⟨p, _, _, hs⟩ :: history) { p with authorised, access := some ⟨reader, state'⟩ }
      ⟨reader, state'⟩ settled prepared' inHand' := by
  have hplace := H.place?_eq hw hs
  constructor
  case access => rfl
  case wiring => exact H.wiring
  case atHand =>
    rw [turnsOn_cons_of_eq hplace]
    exact hhand
  case founded => exact fun n a ha => H.founded_cons hplace ha
  case places =>
    refine List.forall_mem_cons.2 ⟨fun n hn => ?_, H.places⟩
    cases hplace.symm.trans hn
    exact Nat.lt_of_succ_le (Nat.le_of_eq (H.position_of_busy hw).symm)
  case position => exact H.position
  case taken =>
    have ht := H.taken
    rw [List.map_append, List.append_assoc] at ht
    rw [List.map_append, List.append_assoc, htaken, ht]
  case output => exact H.output
  case records =>
    have hr := H.records
    have hmore : (p.recorded? (.access fault)).toList.reverse =
        (p.recorded? (.access fault)).toList := by
      cases p.recorded? (.access fault) <;> rfl
    rw [List.flatMap_append] at hr
    rw [recordsOf_cons, List.reverse_append, hmore, hr, List.flatMap_append, hrecords,
      List.append_assoc]
  case events => exact H.events
  case drained => exact fun hd => absurd hd hdrained
  case refused => exact hrefused

/-- The account of the envelope at hand is settled. -/
theorem settle {reader : Reader} {token : Token} {work : AccessWork}
    {output : Log AuthorisedResource} {errors : Log AuditEvent} {a : Account}
    (H : Books p₀ history p ⟨reader, .busy token work⟩ settled prepared inHand)
    (hw : work.isOver = false) (hs : p.step (.access fault) =
      some { p with output, errors, access := some ⟨reader, .busy token .done⟩ })
    (hrecorded : p.recorded? (.access fault) = none)
    (hfounded : a.Founded (⟨p, _, _, hs⟩ :: turnsOn settled.length history))
    (htaken : [a.envelope] = prepared.toList.map Account.envelope ++ inHand)
    (hrecords : a.records = prepared.toList.flatMap Account.records)
    (houtput : output.envelopes = p.output.envelopes ++ a.outputs)
    (hevents : p.errors.isClosed = false → eventsOf "policy-stage" errors =
      eventsOf "policy-stage" p.errors ++ a.events p.accessReporter)
    (hopen : errors.isClosed = p.errors.isClosed) :
    Books p₀ (⟨p, _, _, hs⟩ :: history)
      { p with output, errors, access := some ⟨reader, .busy token .done⟩ }
      ⟨reader, .busy token .done⟩ (settled ++ [a]) none [] := by
  have hplace := H.place?_eq hw hs
  have hposition := H.position_of_busy hw
  constructor
  case access => rfl
  case wiring => exact H.wiring
  case atHand =>
    have hnone : turnsOn (settled ++ [a]).length (⟨p, _, _, hs⟩ :: history) = [] := by
      rw [List.length_append, List.length_singleton, ← hposition]
      refine turnsOn_eq_nil (List.forall_mem_cons.2 ⟨?_, fun t ht hn => ?_⟩)
      · rw [hplace, hposition]
        exact fun h => Nat.ne_of_lt (Nat.lt_succ_self _) (Option.some.inj h)
      · exact Nat.lt_irrefl _ (H.places t ht _ hn)
    rw [hnone]
    exact .done
  case founded =>
    intro n b hb
    rcases ListUpdate.getElem?_concat_cases hb with hb | ⟨rfl, rfl⟩
    · exact H.founded_cons hplace hb
    · rw [turnsOn_cons_of_eq hplace]
      exact hfounded
  case places =>
    refine List.forall_mem_cons.2 ⟨fun n hn => ?_, H.places⟩
    cases hplace.symm.trans hn
    exact Nat.lt_of_succ_le (Nat.le_of_eq hposition.symm)
  case position => exact H.position
  case taken =>
    have ht := H.taken
    rw [List.map_append, List.append_assoc, ← htaken] at ht
    simpa using ht
  case output => rw [houtput, H.output, List.flatMap_append, List.append_assoc]; simp
  case records =>
    have hr := H.records
    rw [List.flatMap_append, ← hrecords] at hr
    rw [recordsOf_cons, hrecorded, Option.toList_none, List.nil_append, hr]
    simp
  case events =>
    intro hc
    have hreporter : p.accessReporter = p₀.accessReporter := by
      rw [accessReporter, reporter, H.wiring]
      rfl
    have hc' : p.errors.isClosed = false := hopen ▸ hc
    rw [hevents hc', H.events hc', hreporter]
    simp
  case drained => exact nofun
  case refused => exact nofun

/-- The stage puts an envelope away, or stops. -/
theorem pass {reader reader' : Reader} {state state' : ConsumerState AccessWork}
    (H : Books p₀ history p ⟨reader, state⟩ settled prepared inHand)
    (hw : ∀ token work, state = .busy token work → work.isOver)
    (hs : p.step (.access fault) = some { p with access := some ⟨reader', state'⟩ })
    (hposition : reader'.position = reader.position)
    (hhand : ∀ own, AtHand own state prepared inHand → AtHand own state' prepared inHand)
    (hdrained : state' = .over .drained →
      p.requests.isClosed ∧ reader'.position = p.requests.envelopes.length)
    (hrefused : Refuses state' → p.output.isClosed) :
    Books p₀ (⟨p, _, _, hs⟩ :: history) { p with access := some ⟨reader', state'⟩ }
      ⟨reader', state'⟩ settled prepared inHand := by
  have hplace : (Transition.mk p _ _ hs).place? = none := Transition.place?_eq_none H.access hw
  have hturns : ∀ n, turnsOn n (⟨p, _, _, hs⟩ :: history) = turnsOn n history := fun n =>
    turnsOn_cons_of_ne (by simp [hplace]) history
  have hrecorded : p.recorded? (.access fault) = none := by
    rw [recorded?_access H.access]
    split
    · next h => cases hw _ _ h
    · rfl
  constructor
  case access => rfl
  case wiring => exact H.wiring
  case atHand => exact hturns _ ▸ hhand _ H.atHand
  case founded => exact fun n a ha => hturns n ▸ H.founded n a ha
  case places =>
    rw [hposition]
    exact List.forall_mem_cons.2 ⟨by simp [hplace], H.places⟩
  case position => exact hposition ▸ H.position
  case taken => exact hposition ▸ H.taken
  case output => exact H.output
  case records =>
    rw [recordsOf_cons, hrecorded]
    exact H.records
  case events => exact H.events
  case drained => exact hdrained
  case refused => exact hrefused

/-- The stage takes the next envelope. -/
theorem take {reader : Reader} {envelope : Envelope DataRequest} {version : Nat}
    (H : Books p₀ history p ⟨reader, .idle⟩ settled prepared inHand)
    (he : p.requests.envelopes[reader.position]? = some envelope)
    (hs : p.step (.access fault) = some { p with access := some ⟨⟨reader.position + 1, version⟩,
      .busy envelope.token (.ofEnvelope envelope)⟩ }) : ∃ prepared' inHand',
      Books p₀ (⟨p, _, _, hs⟩ :: history)
        { p with access := some ⟨⟨reader.position + 1, version⟩,
          .busy envelope.token (.ofEnvelope envelope)⟩ }
        ⟨⟨reader.position + 1, version⟩, .busy envelope.token (.ofEnvelope envelope)⟩
        settled prepared' inHand' := by
  have hhand := H.atHand
  have htaken := H.taken
  have hrecords := H.records
  generalize hown : turnsOn settled.length history = own at hhand
  cases hhand
  have hnext : ∃ prepared' inHand',
      AtHand [] (.busy envelope.token (.ofEnvelope envelope)) prepared' inHand' ∧
      prepared'.toList.map Account.envelope ++ inHand' = [envelope] ∧
      prepared'.toList.flatMap Account.records = [] := by
    obtain ⟨token, frame⟩ := envelope
    cases frame with
    | start => exact ⟨some (.marker token .start), [], .publishing .marker, rfl, rfl⟩
    | message q => exact ⟨none, _, .deciding, rfl, rfl⟩
    | finish => exact ⟨some (.marker token .finish), [], .publishing .marker, rfl, rfl⟩
  obtain ⟨prepared', inHand', hnext, henvelope, hnone⟩ := hnext
  have hplace : (Transition.mk p _ _ hs).place? = none :=
    Transition.place?_eq_none H.access nofun
  have hturns : ∀ n, turnsOn n (⟨p, _, _, hs⟩ :: history) = turnsOn n history := fun n =>
    turnsOn_cons_of_ne (by simp [hplace]) history
  refine ⟨prepared', inHand', ?_⟩
  constructor
  case access => rfl
  case wiring => exact H.wiring
  case atHand =>
    rw [hturns, hown]
    exact hnext
  case founded => exact fun n a ha => hturns n ▸ H.founded n a ha
  case places =>
    exact List.forall_mem_cons.2
      ⟨by simp [hplace], fun t ht n hn => Nat.lt_succ_of_lt (H.places t ht n hn)⟩
  case position => exact (List.getElem?_eq_some_iff.1 he).1
  case taken =>
    rw [List.map_append, List.append_assoc, henvelope, List.take_add_one, he, ← htaken]
    simp
  case output => exact H.output
  case records =>
    rw [recordsOf_cons, recorded?_access H.access, List.flatMap_append, hnone]
    simpa using hrecords
  case events => exact H.events
  case drained => exact nofun
  case refused =>
    intro hr
    obtain ⟨token, frame⟩ := envelope
    cases frame <;> cases hr

/-- The stage decides about a request. -/
theorem decide {reader : Reader} {t token : Token} {r : DataRequest}
    {decision : Except StageError (Option Grant)}
    (H : Books p₀ history p ⟨reader, .busy t (.deciding token r)⟩ settled prepared inHand)
    (hd : p.policies.decide p.users token r = decision)
    (hs : p.step (.access fault) =
      some { p with access := some ⟨reader, .busy t (.ofDecision token r decision)⟩ }) :
    ∃ settled' prepared' inHand', Books p₀ (⟨p, _, _, hs⟩ :: history)
      { p with access := some ⟨reader, .busy t (.ofDecision token r decision)⟩ }
      ⟨reader, .busy t (.ofDecision token r decision)⟩ settled' prepared' inHand' := by
  have hdecides : (Transition.mk p _ _ hs).Decides token r decision :=
    ⟨Transition.work?_eq rfl H.access, hd⟩
  have hrecorded : p.recorded? (.access fault) = none := recorded?_access H.access
  have hhand := H.atHand
  generalize hown : turnsOn settled.length history = own at hhand
  cases hhand
  -- a failure has its account once it is reported, a denial at once
  rcases decision with e | _ | g
  · refine ⟨settled, some (.failed token r e), [],
      H.shift rfl hs ?_ rfl (by rw [hrecorded]; rfl) nofun nofun⟩
    rw [hown]
    exact .reporting (.undecided hdecides)
  · refine ⟨settled ++ [.denied token r], none, [], H.settle rfl hs hrecorded ?_ rfl rfl
      (List.append_nil _).symm (fun _ => (List.append_nil _).symm) rfl⟩
    rw [hown]
    exact .denied hdecides
  · obtain ⟨rfl, rfl⟩ := decide_eq_some hd
    refine ⟨settled, none, _, H.shift rfl hs ?_ rfl (by rw [hrecorded]; rfl) nofun nofun⟩
    rw [hown]
    exact .granted hdecides

/-- The stage looks up the rules for the records of what it grants. -/
theorem lookUp {reader : Reader} {t : Token} {g : Grant} {rules : Option RecordRules}
    (H : Books p₀ history p ⟨reader, .busy t (.granted g)⟩ settled prepared inHand)
    (hr : p.policies.recordRules? g.request.resource = rules)
    (hs : p.step (.access fault) =
      some { p with access := some ⟨reader, .busy t (.recording g rules)⟩ }) :
    ∃ inHand', Books p₀ (⟨p, _, _, hs⟩ :: history)
      { p with access := some ⟨reader, .busy t (.recording g rules)⟩ }
      ⟨reader, .busy t (.recording g rules)⟩ settled none inHand' := by
  have hlooksUp : (Transition.mk p _ _ hs).LooksUp g rules :=
    ⟨Transition.work?_eq rfl H.access, hr⟩
  have hrecorded : p.recorded? (.access fault) = none := recorded?_access H.access
  have hhand := H.atHand
  generalize hown : turnsOn settled.length history = own at hhand
  cases hhand with
  | granted hd =>
    refine ⟨_, H.shift rfl hs ?_ rfl (by rw [hrecorded]; rfl) nofun nofun⟩
    rw [hown]
    exact .recording (.intro hd hlooksUp)

/-- The stage tries to store an authorisation. -/
theorem record {reader : Reader} {t : Token} {g : Grant} {rules : Option RecordRules}
    {result : Except Store.WriteFault Store}
    (H : Books p₀ history p ⟨reader, .busy t (.recording g rules)⟩ settled prepared inHand)
    (hput : p.putAuthorised fault (g.authorisation rules) = result)
    (hs : p.step (.access fault) = some { p with
      authorised := result.toOption.getD p.authorised
      access := some ⟨reader, .busy t (.ofRecording g rules result)⟩ }) :
    ∃ prepared' inHand', Books p₀ (⟨p, _, _, hs⟩ :: history)
      { p with
        authorised := result.toOption.getD p.authorised
        access := some ⟨reader, .busy t (.ofRecording g rules result)⟩ }
      ⟨reader, .busy t (.ofRecording g rules result)⟩ settled prepared' inHand' := by
  have hwork : (Transition.mk p _ _ hs).work? = some (.recording g rules) :=
    Transition.work?_eq rfl H.access
  have hrecorded : p.recorded? (.access fault) =
      result.toOption.map fun _ => g.authorisation rules := by
    rw [recorded?_access H.access, ← hput]
  have hhand := H.atHand
  generalize hown : turnsOn settled.length history = own at hhand
  cases hhand with
  | recording hg =>
    rcases result with (e | _) | store
    · refine ⟨some (.failed g.token g.request (.store e)), [],
        H.shift rfl hs ?_ rfl (by rw [hrecorded]; rfl) nofun nofun⟩
      rw [hown]
      exact .reporting (.unrecorded hg ⟨hwork, ⟨fault, rfl, hput⟩, rfl⟩)
    · refine ⟨none, _, H.shift rfl hs ?_ rfl (by rw [hrecorded]; rfl) nofun nofun⟩
      rw [hown]
      exact .crashed hg ⟨hwork, ⟨fault, rfl, hput⟩, rfl⟩
    · -- stored, but not released yet: the account is prepared and not settled
      refine ⟨some (.granted g rules), [],
        H.shift rfl hs ?_ rfl (by rw [hrecorded]; rfl) nofun nofun⟩
      rw [hown]
      cases fault with
      | none => exact .publishing (.granted hg ⟨hwork, rfl, hput⟩)
      | some => cases hput

/-- What the stage has prepared is published. -/
theorem publish {reader : Reader} {t : Token} {envelope : Envelope AuthorisedResource} {n : Nat}
    {output : Log AuthorisedResource}
    (H : Books p₀ history p ⟨reader, .busy t (.publishing envelope)⟩ settled prepared inHand)
    (hl : p.output.publish envelope = .ok (n, output))
    (hs : p.step (.access fault) =
      some { p with output, access := some ⟨reader, .busy t .done⟩ }) :
    ∃ settled', Books p₀ (⟨p, _, _, hs⟩ :: history)
      { p with output, access := some ⟨reader, .busy t .done⟩ } ⟨reader, .busy t .done⟩
      settled' none [] := by
  have hreleases : (Transition.mk p _ _ hs).Releases envelope :=
    ⟨Transition.work?_eq rfl H.access, n, hl⟩
  have hrecorded : p.recorded? (.access fault) = none := recorded?_access H.access
  obtain ⟨-, -, he⟩ := Log.publish_eq_ok hl
  have hhand := H.atHand
  generalize hown : turnsOn settled.length history = own at hhand
  cases hhand with
  | @publishing _ _ a _ hp =>
    obtain ⟨houtputs, hevents⟩ : a.outputs = [envelope] ∧ a.events p.accessReporter = [] := by
      cases hp <;> exact ⟨rfl, rfl⟩
    refine ⟨settled ++ [a], H.settle rfl hs hrecorded ?_ rfl (by simp) (by rw [he, houtputs])
      (fun _ => by rw [hevents, List.append_nil]) rfl⟩
    rw [hown]
    exact .released hp hreleases

/-- A failure is reported. -/
theorem report {reader : Reader} {t token : Token} {r : DataRequest} {e : StageError}
    (H : Books p₀ history p ⟨reader, .busy t (.reporting token r e)⟩ settled prepared inHand)
    (hs : p.step (.access fault) = some { p with
      errors := p.accessReporter.report p.errors token (some r) e
      access := some ⟨reader, .busy t .done⟩ }) :
    ∃ settled', Books p₀ (⟨p, _, _, hs⟩ :: history)
      { p with
        errors := p.accessReporter.report p.errors token (some r) e
        access := some ⟨reader, .busy t .done⟩ } ⟨reader, .busy t .done⟩ settled' none [] := by
  have hreports : (Transition.mk p _ _ hs).Reports token r e :=
    ⟨Transition.work?_eq rfl H.access, rfl⟩
  have hrecorded : p.recorded? (.access fault) = none := recorded?_access H.access
  have hhand := H.atHand
  generalize hown : turnsOn settled.length history = own at hhand
  cases hhand with
  | reporting hf =>
    have hevents : p.errors.isClosed = false → eventsOf "policy-stage"
        (p.accessReporter.report p.errors token (some r) e) =
        eventsOf "policy-stage" p.errors ++
          (Account.failed token r e).events p.accessReporter := by
      intro hc
      have hservice : p.accessReporter.service = "policy-stage" := rfl
      rw [eventsOf_report _ _ hc, if_pos hservice]
      rfl
    refine ⟨settled ++ [.failed token r e], H.settle rfl hs hrecorded ?_ rfl rfl
      (List.append_nil _).symm hevents (isClosed_report ..)⟩
    rw [hown]
    exact .reported hf hreports

/-- The output topic is closed, so that nothing can be published. -/
theorem refuse {reader : Reader} {t : Token} {envelope : Envelope AuthorisedResource}
    {e : TopicClosed}
    (H : Books p₀ history p ⟨reader, .busy t (.publishing envelope)⟩ settled prepared inHand)
    (hl : p.output.publish envelope = .error e)
    (hs : p.step (.access fault) =
      some { p with access := some ⟨reader, .busy t (.refused e)⟩ }) :
    Books p₀ (⟨p, _, _, hs⟩ :: history)
      { p with access := some ⟨reader, .busy t (.refused e)⟩ } ⟨reader, .busy t (.refused e)⟩
      settled prepared inHand := by
  have hrefused : (Transition.mk p _ _ hs).IsRefused envelope :=
    ⟨Transition.work?_eq rfl H.access, ⟨e, hl⟩, rfl⟩
  have hrecorded : p.recorded? (.access fault) = none := recorded?_access H.access
  have hhand := H.atHand
  generalize hown : turnsOn settled.length history = own at hhand
  cases hhand with
  | publishing hp =>
    refine H.shift rfl hs ?_ rfl (by simp [hrecorded]) nofun fun _ =>
      Log.isClosed_of_publish_eq_error hl
    rw [hown]
    exact .refused hp hrefused

/-- Every step of the policy stage keeps the books. -/
theorem access_step {authorised : Store} {output : Log AuthorisedResource}
    {errors : Log AuditEvent} (H : Books p₀ history p consumer settled prepared inHand)
    (h : p.AccessStepped fault consumer authorised output errors consumer')
    (hs : p.step (.access fault) =
      some { p with authorised, output, errors, access := some consumer' }) :
    ∃ settled' prepared' inHand', Books p₀ (⟨p, _, _, hs⟩ :: history)
      { p with authorised, output, errors, access := some consumer' } consumer'
      settled' prepared' inHand' := by
  cases h with
  | take he =>
    obtain ⟨envelope, hx, rfl⟩ := Log.exists_of_read he
    exact ⟨settled, H.take hx hs⟩
  | drained he hc =>
    have hend := Nat.le_antisymm H.position
      (Log.length_le_of_read he)
    refine ⟨settled, prepared, inHand, H.pass nofun hs rfl ?_ (fun _ => ⟨hc, hend⟩) nofun⟩
    intro own hhand
    cases hhand
    exact .drained
  | next =>
    refine ⟨settled, prepared, inHand, H.pass (by rintro _ _ ⟨⟩; rfl) hs rfl ?_ nofun nofun⟩
    intro own hhand
    cases hhand
    exact .idle
  | refused =>
    have hclosed := H.refused .refused
    refine ⟨settled, prepared, inHand,
      H.pass (by rintro _ _ ⟨⟩; rfl) hs rfl ?_ nofun fun _ => hclosed⟩
    intro own hhand
    cases hhand with
    | refused hp hu => exact .stopped hp hu
  | crashed =>
    refine ⟨settled, prepared, inHand, H.pass (by rintro _ _ ⟨⟩; rfl) hs rfl ?_ nofun nofun⟩
    intro own hhand
    cases hhand with
    | crashed hg hr => exact .aborted hg hr
  | decide => exact H.decide rfl hs
  | lookUp =>
    obtain ⟨inHand', H'⟩ := H.lookUp rfl hs
    exact ⟨settled, none, inHand', H'⟩
  | record =>
    obtain ⟨prepared', inHand', H'⟩ := H.record rfl hs
    exact ⟨settled, prepared', inHand', H'⟩
  | publish hl =>
    obtain ⟨settled', H'⟩ := H.publish hl hs
    exact ⟨settled', none, [], H'⟩
  | refuse hl => exact ⟨settled, prepared, inHand, H.refuse hl hs⟩
  | report =>
    obtain ⟨settled', H'⟩ := H.report hs
    exact ⟨settled', none, [], H'⟩

theorem step (H : Books p₀ history p consumer settled prepared inHand)
    (hs : p.step e = some q) : ∃ consumer' settled' prepared' inHand',
      Books p₀ (⟨p, e, q, hs⟩ :: history) q consumer' settled' prepared' inHand' := by
  rcases access_or_aside hs with ⟨_, _, _, _, _, _, rfl, ha, h, rfl⟩ | ⟨he, h⟩
  · cases H.access.symm.trans ha
    exact ⟨_, H.access_step h hs⟩
  · exact ⟨consumer, settled, prepared, inHand, H.aside he hs h⟩

end Books

/-- A stage that starts with the topic of requests keeps books on all that it takes. -/
theorem Course.books (h₀ : p₀.access = some (.new p₀.requests 0)) (h : Course p₀ history p) :
    ∃ consumer settled prepared inHand,
      Books p₀ history p consumer settled prepared inHand := by
  induction h with
  | start =>
    refine ⟨.new p₀.requests 0, [], none, [], ?_⟩
    constructor
    case access => exact h₀
    case atHand => exact .idle
    case position => exact Nat.zero_le _
    case drained => exact nofun
    case refused => exact nofun
    all_goals simp [Consumer.new, Reader.new, recordsOf]
  | step _ hs ih =>
    obtain ⟨_, _, _, _, H⟩ := ih
    exact H.step hs

end PolicyGate.Pipeline
