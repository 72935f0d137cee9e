import PolicyGate.Proofs.Pipeline.Ledger

/-!
What comes of all that the policy stage takes. Left to itself the stage comes to rest, and at rest
every request has its account, unless the output topic was closed or the clock ran over. Main
statement: nothing is released that was not stored before, and what was stored, released and
reported is what the accounts say (`requests_accounted_for`).
-/

namespace PolicyGate

/-- The steps that are left for the policy stage on an envelope at most, with the one that puts it
away. -/
def AccessWork.left : AccessWork → Nat
  | deciding .. => 5
  | granted _ => 4
  | recording .. => 3
  | publishing _ => 2
  | reporting .. => 2
  | done => 1
  | refused _ => 1
  | crashed => 1

namespace Consumer

/-- The steps that are left for the policy stage on a topic at most. -/
def left (c : Consumer AccessWork) (requests : Log DataRequest) : Nat :=
  7 * (requests.envelopes.length - c.reader.position) +
    match c.state with
    | .idle => 1
    | .busy _ work => work.left + 1
    | .over _ => 0

/-- The stage has stopped, or waits for an envelope. -/
def Rests (c : Consumer AccessWork) (requests : Log DataRequest) : Prop :=
  match c.state with
  | .idle => requests.read c.reader.position = none ∧ requests.isClosed = false
  | .busy .. => False
  | .over _ => True

end Consumer

namespace Pipeline

open Envelope

variable {p₀ p q : Pipeline} {e : Event} {history : List Transition}
  {consumer consumer' : Consumer AccessWork} {settled : List Account} {prepared : Option Account}
  {inHand : List (Envelope DataRequest)} {fault : Option StoreError}

/-! ## Coming to rest -/

/-- The policy stage has no step to take just if it rests. -/
theorem step_access_eq_none_iff (ha : p.access = some consumer) :
    p.step (.access fault) = none ↔ consumer.Rests p.requests := by
  obtain ⟨reader, state⟩ := consumer
  simp only [step, stepAccess, ha, Option.bind_some, Consumer.Rests]
  cases state with
  | «over» => simp
  | idle =>
    cases he : p.requests.read reader.position with
    | some entry => simp [Reader.position_next_of_read he]
    | none =>
      rw [Reader.next_of_read_eq_none he]
      cases p.requests.isClosed <;> simp
  | busy t work =>
    cases work with
    | publishing envelope =>
      simp only [workAccess]
      cases p.output.publish envelope <;> simp
    | _ => simp [workAccess]

/-- Every step of the policy stage leaves it fewer steps to take. -/
theorem AccessStepped.left_lt {authorised : Store} {output : Log AuthorisedResource}
    {errors : Log AuditEvent}
    (h : p.AccessStepped fault consumer authorised output errors consumer') :
    consumer'.left p.requests < consumer.left p.requests := by
  cases h with
  | @take reader entry he =>
    -- an envelope that waits counts for all the steps that it will take
    obtain ⟨envelope, hx, rfl⟩ := Log.exists_of_read he
    have hlt := (List.getElem?_eq_some_iff.1 hx).1
    have hwork : (AccessWork.ofEnvelope envelope).left ≤ 5 := by
      obtain ⟨token, frame⟩ := envelope
      cases frame <;> simp [AccessWork.ofEnvelope, AccessWork.left]
    simp only [Consumer.left]
    omega
  | @decide _ _ token q =>
    have hwork : (AccessWork.ofDecision token q (p.policies.decide p.users token q)).left < 5 := by
      rcases p.policies.decide p.users token q with _ | _ | _ <;>
        simp [AccessWork.ofDecision, AccessWork.left]
    exact Nat.add_lt_add_left (Nat.succ_lt_succ hwork) _
  | @record _ _ g rules =>
    have hwork : (AccessWork.ofRecording g rules
        (p.putAuthorised fault (g.authorisation rules))).left < 3 := by
      rcases p.putAuthorised fault (g.authorisation rules) with (_ | _) | _ <;>
        simp [AccessWork.ofRecording, AccessWork.left]
    exact Nat.add_lt_add_left (Nat.succ_lt_succ hwork) _
  | drained | next | refused | crashed | lookUp | publish | refuse | report =>
    simp [Consumer.left, AccessWork.left]

theorem AccessStepped.isClosed_output {authorised : Store} {output : Log AuthorisedResource}
    {errors : Log AuditEvent}
    (h : p.AccessStepped fault consumer authorised output errors consumer') :
    output.isClosed = p.output.isClosed := by
  cases h with
  | publish hl => exact Log.isClosed_of_publish_eq_ok hl
  | take | drained | next | refused | crashed | decide | lookUp | record | refuse | report => rfl

/-- Left to itself, the policy stage comes to rest. -/
theorem Course.rests (h : Course p₀ history p) (ha : p.access = some consumer) :
    ∃ more q, Course p₀ (more ++ history) q ∧ (∀ t ∈ more, t.event = .access none) ∧
      q.requests = p.requests ∧ q.output.isClosed = p.output.isClosed ∧
      ∀ fault, q.step (.access fault) = none := by
  -- the stage takes its steps without a fault until it has none left
  induction hn : consumer.left p.requests using Nat.strongRecOn
    generalizing history p consumer with
  | ind n ih =>
    cases hs : p.step (.access none) with
    | none =>
      have hrests := (step_access_eq_none_iff ha).1 hs
      exact ⟨[], p, h, List.forall_mem_nil _, rfl, rfl,
        fun _ => (step_access_eq_none_iff ha).2 hrests⟩
    | some q =>
      have hcourse := h.step hs
      cases stepped hs with
      | access ha' hstep =>
        cases ha.symm.trans ha'
        obtain ⟨more, r, hr, hmore, hrequests, hclosed, hrest⟩ :=
          ih _ (hn ▸ hstep.left_lt) hcourse rfl rfl
        refine ⟨more ++ [⟨p, _, _, hs⟩], r, by rwa [List.append_assoc], fun t ht => ?_, hrequests,
          hclosed.trans hstep.isClosed_output, hrest⟩
        rcases List.mem_append.1 ht with ht | ht
        · exact hmore t ht
        · exact congrArg Transition.event (List.mem_singleton.1 ht)
      | coordinate he => cases he

/-- A stage that has stopped takes no part any more, and what it has published stays. -/
theorem stays_of_over {reader : Reader} {ending : ConsumerEnd}
    (ha : p.access = some ⟨reader, .over ending⟩) (h : p.step e = some q) :
    q.access = p.access ∧ q.output.envelopes = p.output.envelopes := by
  rcases access_or_aside h with ⟨_, _, _, _, _, _, -, ha', hs, -⟩ | ⟨-, hq⟩
  · cases ha.symm.trans ha'
    cases hs
  · exact ⟨hq.access, hq.output⟩

namespace Books

theorem single (H : Books p₀ history p consumer settled prepared inHand) :
    prepared.toList.length + inHand.length ≤ 1 := by
  obtain ⟨reader, state⟩ := consumer
  have hhand := H.atHand
  generalize turnsOn settled.length history = own at hhand
  cases hhand <;> simp

/-- At rest, all requests are settled, or the stage has stopped at a closed topic, or it has died of
a record. -/
theorem rest (H : Books p₀ history p consumer settled prepared inHand)
    (h : consumer.Rests p.requests) :
    settled.map Account.envelope = p.requests.envelopes ∨
    (∃ reader, p.access = some ⟨reader, .over .refused⟩) ∧ p.output.isClosed ∨
    (∃ reader, p.access = some ⟨reader, .over .crashed⟩) ∧ ∃ r own g rules,
      turnsOn settled.length history = r :: own ∧ Entitled own g rules ∧
        r.FailsToStore g rules .clockOverflow := by
  obtain ⟨reader, state⟩ := consumer
  have hhand := H.atHand
  have htaken := H.taken
  have hposition := H.position
  generalize hown : turnsOn settled.length history = own at hhand
  cases hhand with
  | idle =>
    have hend := Log.length_le_of_read h.1
    rw [List.take_of_length_le hend] at htaken
    exact .inl (by simpa using htaken)
  | drained =>
    obtain ⟨-, hend⟩ := H.drained rfl
    rw [List.take_of_length_le (Nat.le_of_eq hend.symm)] at htaken
    exact .inl (by simpa using htaken)
  | stopped => exact .inr (.inl ⟨⟨reader, H.access⟩, H.refused .over⟩)
  | aborted hg hr => exact .inr (.inr ⟨⟨reader, H.access⟩, _, _, _, _, rfl, hg, hr⟩)
  | deciding | granted | recording | publishing | reporting | done | refused | crashed => cases h

end Books

end Pipeline

end PolicyGate
