import PolicyGate.Proofs.Pipeline.Indexed
import PolicyGate.Proofs.Stage.Account

/-!
What the offset stage stores and reports. An attempt puts the offset of a marker into the store
under its token, or it fails and leaves the store alone; then it is reported under the token before
the stage takes the next entry. A stage that has drained its topic has attempted to store every
marker. Main statements: what an attempt makes of the store (`Transition.made`), every step keeps
the reports in line with the attempts that failed (`Marked.step`), and a stage that has stopped has
handled all markers unless the clock ran over (`Marked.handled`).
-/

namespace PolicyGate

/-- The tokens for which the attempts to store an offset failed, in their order. -/
def Attempt.failures (attempts : List Attempt) : List Token :=
  (attempts.reverse.filter fun a => !a.stored).map fun a => a.offset.token

theorem Attempt.failures_cons (a : Attempt) (attempts : List Attempt) :
    failures (a :: attempts) =
      failures attempts ++ if a.stored then [] else [a.offset.token] := by
  rw [failures, List.reverse_cons, List.filter_append, List.map_append]
  cases h : a.stored <;> simp [failures, h]

open Pipeline (Transition)

/-- What an attempt makes of the store of offsets. -/
inductive Attempt.Made : Attempt → Transition → Prop
  | stored {o} {t : Transition} :
    t.before.offsets.put TokenOffset.recordType t.before.now o.token.text o
      (some t.before.wiring.offsetTtl) = .ok t.after.offsets → Made ⟨o, true⟩ t
  | failed {o fault reason} {t : Transition} : t.event = .index fault →
    t.before.putOffset fault o = .error reason → t.after.offsets = t.before.offsets →
    Made ⟨o, false⟩ t

namespace Pipeline

/-- The attempts of the offset stage, last first. -/
def attemptsOf (history : List Transition) : List Attempt :=
  history.filterMap fun t => t.before.attempted? t.event

theorem attemptsOf_cons (t : Transition) (history : List Transition) :
    attemptsOf (t :: history) = (t.before.attempted? t.event).toList ++ attemptsOf history := by
  rw [attemptsOf, List.filterMap_cons]
  split <;> next h => rw [h]; rfl

/-- The offset stage attempted to store an offset whose end the clock could not hold. -/
def OffsetOverflows (history : List Transition) : Prop :=
  ∃ t ∈ history, (t.before.attempted? t.event).isSome ∧
    t.before.offsets.Overflows t.before.now (some t.before.wiring.offsetTtl)

/-- The failure of the offset stage that is not reported yet, by its token. One that the stage dies
of is never reported. -/
inductive Unreported (history : List Transition) : ConsumerState IndexWork → List Token → Prop
  | idle : Unreported history .idle []
  | drained : Unreported history (.over .drained) []
  | recording {o} : Unreported history (.busy o.token (.recording o)) []
  | announcing {t o} : Unreported history (.busy t (.announcing o)) []
  | done {t result} : Unreported history (.busy t (.done (.ok result))) []
  | failed {t e} : Unreported history (.busy t (.done (.error e))) [t]
  | crashed {t} : OffsetOverflows history → Unreported history (.busy t .crashed) [t]
  | aborted {t} : OffsetOverflows history → Unreported history (.over .crashed) [t]

/-- The attempts of the offset stage are the markers that it has come to, and those that failed were
reported, up to the one that is not reported yet. -/
structure Marked (history : List Transition) (p : Pipeline) (stage : Consumer IndexWork)
    (unreported : List Token) : Prop where
  index : p.index = some stage
  processed : Processed p.wiring.boundary p.output.envelopes stage (attemptsOf history)
  state : Unreported history stage.state unreported
  reports : p.errors.isClosed = false →
    (eventsOf "topic-offset-stage" p.errors).map Envelope.token ++ unreported =
      Attempt.failures (attemptsOf history)
  drained : stage.state = .over .drained →
    p.output.isClosed ∧ stage.reader.position = p.output.envelopes.length

variable {p₀ p q : Pipeline} {e : Event} {history : List Transition}
  {stage stage' : Consumer IndexWork} {unreported : List Token} {fault : Option StoreError}

/-- An attempt puts its offset into the store, or it fails and leaves the store alone. -/
theorem Transition.made {t : Transition} {a : Attempt}
    (h : t.before.attempted? t.event = some a) : a.Made t := by
  obtain ⟨p, e, q, hs⟩ := t
  simp only [attempted?] at h
  split at h
  · next fault =>
    split at h
    · next reader token o hi =>
      cases h
      cases stepped hs with
      | index hi' hstep =>
        cases hi.symm.trans hi'
        cases hstep with
        | record =>
          obtain ⟨offsets, hp⟩ | ⟨reason, hp⟩ : (∃ offsets, p.putOffset fault o = .ok offsets) ∨
              ∃ reason, p.putOffset fault o = .error reason := by
            cases p.putOffset fault o <;> simp
          · have hok : (p.putOffset fault o).isOk = true := by rw [hp]; rfl
            rw [hok]
            exact .stored (by simpa [hp, Except.toOption] using put_of_putOffset hp)
          · have hok : (p.putOffset fault o).isOk = false := by rw [hp]; rfl
            rw [hok]
            exact .failed rfl hp (by simp [hp, Except.toOption])
      | coordinate hce => cases hce
    · cases h
  · cases h

theorem overflows_of_putOffset {o : TokenOffset} (h : p.putOffset fault o = .error .clockOverflow) :
    p.offsets.Overflows p.now (some p.wiring.offsetTtl) := by
  cases fault with
  | none => exact Store.overflows_of_put h
  | some => cases h

theorem OffsetOverflows.cons (h : OffsetOverflows history) (t : Transition) :
    OffsetOverflows (t :: history) := by
  obtain ⟨u, hu, h⟩ := h
  exact ⟨u, List.mem_cons_of_mem _ hu, h⟩

theorem Unreported.cons {state : ConsumerState IndexWork}
    (h : Unreported history state unreported) (t : Transition) :
    Unreported (t :: history) state unreported := by
  cases h with
  | idle => exact .idle
  | drained => exact .drained
  | recording => exact .recording
  | announcing => exact .announcing
  | done => exact .done
  | failed => exact .failed
  | crashed h => exact .crashed (h.cons t)
  | aborted h => exact .aborted (h.cons t)

theorem Unreported.ofEnvelope {α : Type} (boundary : Marker) (offset : Int) (e : Envelope α) :
    Unreported history (.busy e.token (.ofEnvelope boundary offset e)) [] := by
  unfold IndexWork.ofEnvelope
  split
  · exact .recording (o := ⟨e.token, offset⟩)
  · exact .done

/-- An attempt that fails is still to be reported. -/
theorem Unreported.ofRecording {o : TokenOffset} (hs : p.step (.index fault) = some q)
    (ha : p.attempted? (.index fault) = some ⟨o, (p.putOffset fault o).isOk⟩) :
    Unreported (⟨p, _, q, hs⟩ :: history)
      (.busy o.token (.ofRecording o (p.putOffset fault o)))
      (if (p.putOffset fault o).isOk then [] else [o.token]) := by
  rcases h : p.putOffset fault o with (_ | _) | _
  · exact .failed
  · exact .crashed ⟨_, List.mem_cons_self, by simp [ha], overflows_of_putOffset h⟩
  · exact .announcing

namespace Marked

/-- Steps of others keep the reports. -/
theorem aside (H : Marked history p stage unreported) (hs : p.step e = some q)
    (he : ∀ fault, e ≠ .index fault) :
    Marked (⟨p, e, q, hs⟩ :: history) q stage unreported := by
  have h := stepped hs
  obtain ⟨hindex, hnone, hservice⟩ : q.index = p.index ∧ p.attempted? e = none ∧
      e.service? ≠ some "topic-offset-stage" := by
    cases h with
    | index => exact absurd rfl (he _)
    | coordinate hce => exact ⟨rfl, attempted?_of_command? hce, by cases e <;> cases hce <;> nofun⟩
    | _ => exact ⟨rfl, rfl, by simp [Event.service?]⟩
  have hattempts : attemptsOf (⟨p, e, q, hs⟩ :: history) = attemptsOf history := by
    rw [attemptsOf_cons, hnone]
    rfl
  constructor
  case index => exact hindex.trans H.index
  case processed => exact hattempts ▸ h.wiring_eq ▸ H.processed.grow h.output.envelopes
  case state => exact H.state.cons _
  case reports =>
    intro hc
    have hopen : p.errors.isClosed = false := by
      rw [Bool.eq_false_iff] at hc ⊢
      exact fun hp => hc (h.errors.closed hp).1
    rw [h.eventsOf_eq hservice, H.reports hopen, hattempts]
  case drained =>
    intro hd
    obtain ⟨hc, hp⟩ := H.drained hd
    obtain ⟨hc', he'⟩ := h.output.closed hc
    exact ⟨hc', by rw [hp, he']⟩

/-- A step of the offset stage notes its attempt, and reports one that failed. -/
theorem index_step {offsets : Store} {coordinator : Coordinator} {errors : Log AuditEvent}
    (H : Marked history p stage unreported)
    (h : p.IndexStepped fault stage offsets coordinator errors stage')
    (hs : p.step (.index fault) =
      some { p with offsets, coordinator, errors, index := some stage' }) :
    ∃ unreported', Marked (⟨p, _, _, hs⟩ :: history)
      { p with offsets, coordinator, errors, index := some stage' } stage' unreported' := by
  have hattempts : attemptsOf (⟨p, _, _, hs⟩ :: history) =
      (p.attempted? (.index fault)).toList ++ attemptsOf history := attemptsOf_cons ..
  suffices hnext : ∃ unreported',
      Unreported (⟨p, _, _, hs⟩ :: history) stage'.state unreported' ∧
      (p.errors.isClosed = false →
        (eventsOf "topic-offset-stage" errors).map Envelope.token ++ unreported' =
          Attempt.failures ((p.attempted? (.index fault)).toList ++ attemptsOf history)) ∧
      (stage'.state = .over .drained →
        p.output.isClosed ∧ stage'.reader.position = p.output.envelopes.length) by
    obtain ⟨unreported', hstate, hreports, hdrained⟩ := hnext
    have hclosed := ((Stepped.index H.index h).isClosed_eq rfl).2.2
    refine ⟨unreported', rfl, ?_, hstate, fun hc => ?_, hdrained⟩
    · rw [hattempts]
      exact H.processed.step H.index h
    · rw [hattempts]
      exact hreports (hclosed ▸ hc)
  -- all but an attempt and a report leave both sides alone
  have hquiet : p.attempted? (.index fault) = none → p.errors.isClosed = false →
      (eventsOf "topic-offset-stage" p.errors).map Envelope.token ++ unreported =
        Attempt.failures ((p.attempted? (.index fault)).toList ++ attemptsOf history) :=
    fun hn hc => by rw [H.reports hc, hn]; rfl
  have hstate := H.state
  cases h with
  | take =>
    cases hstate
    exact ⟨[], .ofEnvelope .., hquiet (by simp [attempted?, H.index]), by simp⟩
  | drained he hc =>
    cases hstate
    refine ⟨[], .drained, hquiet (by simp [attempted?, H.index]), fun _ => ⟨hc, ?_⟩⟩
    exact Nat.le_antisymm H.processed.bound
      (Log.length_le_of_read he)
  | next =>
    cases hstate
    exact ⟨[], .idle, hquiet (by simp [attempted?, H.index]), by simp⟩
  | announce =>
    cases hstate
    exact ⟨[], .done, hquiet (by simp [attempted?, H.index]), by simp⟩
  | @crashed _ t =>
    cases hstate with
    | crashed h => exact ⟨[t], .aborted (h.cons _), hquiet (by simp [attempted?, H.index]), by simp⟩
  | report =>
    cases hstate
    refine ⟨[], .idle, fun hc => ?_, by simp⟩
    have hservice : p.indexReporter.service = "topic-offset-stage" := rfl
    rw [eventsOf_report _ _ hc, if_pos hservice, List.map_append, List.append_nil]
    simpa [attempted?, H.index] using H.reports hc
  | @record _ _ o =>
    cases hstate
    have hattempt : p.attempted? (.index fault) = some ⟨o, (p.putOffset fault o).isOk⟩ := by
      simp only [attempted?, H.index]
    refine ⟨_, .ofRecording hs hattempt, fun hc => ?_, by simp⟩
    rw [hattempt, Option.toList_some, List.singleton_append, Attempt.failures_cons,
      ← H.reports hc, List.append_nil]

/-- Every step keeps the attempts and the reports in agreement. -/
theorem step (H : Marked history p stage unreported) (hs : p.step e = some q) :
    ∃ stage' unreported', Marked (⟨p, e, q, hs⟩ :: history) q stage' unreported' := by
  by_cases he : ∃ fault, e = .index fault
  · obtain ⟨fault, rfl⟩ := he
    cases stepped hs with
    | index hi h =>
      cases H.index.symm.trans hi
      exact ⟨_, H.index_step h hs⟩
    | coordinate hce => cases hce
  · exact ⟨stage, unreported, H.aside hs fun fault hf => he ⟨fault, hf⟩⟩

/-- A stage that has stopped has attempted to store every marker on the topic and reported the
failures, unless the clock ran over. -/
theorem handled {ending : ConsumerEnd} (H : Marked history p stage unreported)
    (hover : stage.state = .over ending) (hopen : p.errors.isClosed = false) :
    ((attemptsOf history).reverse.map Attempt.offset =
        markerOffsets p.wiring.boundary p.output.envelopes ∧
      (eventsOf "topic-offset-stage" p.errors).map Envelope.token =
        Attempt.failures (attemptsOf history)) ∨
    OffsetOverflows history := by
  have hstate := H.state
  rw [hover] at hstate
  cases hstate with
  | drained =>
    obtain ⟨-, hposition⟩ := H.drained hover
    have hmarkers := H.processed.markers
    have hreports := H.reports hopen
    rw [hover, hposition, List.take_length] at hmarkers
    exact .inl ⟨by simpa [ConsumerState.inHand] using hmarkers, by simpa using hreports⟩
  | aborted h => exact .inr h

end Marked

/-- An offset stage that starts with the output topic handles its markers. -/
theorem Course.marked (h₀ : p₀.index = some (.new p₀.output 0))
    (herrors : eventsOf "topic-offset-stage" p₀.errors = []) (h : Course p₀ history p) :
    ∃ stage unreported, Marked history p stage unreported := by
  induction h with
  | start =>
    refine ⟨.new p₀.output 0, [], h₀, ⟨Nat.zero_le _, rfl, nofun⟩, .idle, fun _ => ?_, nofun⟩
    rw [herrors]
    rfl
  | step _ hs ih =>
    obtain ⟨_, _, H⟩ := ih
    exact H.step hs

end Pipeline

end PolicyGate
