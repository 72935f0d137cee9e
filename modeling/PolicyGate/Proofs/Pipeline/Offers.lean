import PolicyGate.Proofs.Offset.Known
import PolicyGate.Proofs.Pipeline.Coordination
import PolicyGate.Proofs.Store.Kept

/-!
The ways on which an offset comes to a client. The offset stage puts it into the store, where a
worker finds it, and announces it to the worker. Main statement: what is true of every offset that
the stage takes up, and was true of those in the store, is true of all that clients are told
(`Offers.step`).
-/

namespace PolicyGate.Pipeline

/-- The offset that the offset stage is at work on. -/
inductive Indexes : ConsumerState IndexWork → TokenOffset → Prop
  | recording {t o} : Indexes (.busy t (.recording o)) o
  | announcing {t o} : Indexes (.busy t (.announcing o)) o

/-- What the store keeps, what the offset stage is at work on and what the coordinator passes on is
known. An offset that stands under another token than its own is of no interest: no worker takes
it. -/
structure Offers (K : TokenOffset → Prop) (offsets : Store) (index : Option (Consumer IndexWork))
    (c : Coordinator) : Prop where
  mapping : c.Mapping
  placement : c.Placement
  knows : c.Knows K
  stored : ∀ token o, offsets.kept? TokenOffset.recordType token.text = some o →
    o.token = token → K o
  indexed : ∀ stage o, index = some stage → Indexes stage.state o → K o

namespace Offers

variable {K K' : TokenOffset → Prop} {p q : Pipeline} {e : Event}
  {offsets offsets' : Store} {index : Option (Consumer IndexWork)} {c c' : Coordinator}

theorem mono (H : Offers K offsets index c) (h : ∀ o, K o → K' o) : Offers K' offsets index c where
  mapping := H.mapping
  placement := H.placement
  knows := H.knows.mono h
  stored token o hs ht := h o (H.stored token o hs ht)
  indexed stage o hi ho := h o (H.indexed stage o hi ho)

theorem store (H : Offers K offsets index c)
    (h : ∀ token o, offsets'.kept? TokenOffset.recordType token.text = some o → o.token = token →
      offsets.kept? TokenOffset.recordType token.text = some o ∨ K o) :
    Offers K offsets' index c where
  mapping := H.mapping
  placement := H.placement
  knows := H.knows
  stored token o hs ht := (h token o hs ht).elim (fun hs => H.stored token o hs ht) id
  indexed := H.indexed

theorem stage {stage' : Consumer IndexWork} (H : Offers K offsets index c)
    (h : ∀ o, Indexes stage'.state o → K o) : Offers K offsets (some stage') c where
  mapping := H.mapping
  placement := H.placement
  knows := H.knows
  stored := H.stored
  indexed := by
    rintro _ o ⟨⟩ ho
    exact h o ho

theorem coordinate {d : Coordinator.Event} (H : Offers K offsets index c)
    (h : c.step d = some c')
    (hr : ∀ place w o, d = .read place (.ok (some o)) →
      c.workers[place]? = some w → o.token = w.token → K o)
    (ha : ∀ o, d = .available o → K o) : Offers K offsets index c' where
  mapping := H.mapping.step h
  placement := (Coordinator.sound_step H.mapping H.placement h).2
  knows := H.knows.step H.mapping H.placement h hr ha
  stored := H.stored
  indexed := H.indexed

/-- What the stage records is what it is at work on. -/
theorem put {stage : Consumer IndexWork} {o : TokenOffset}
    (H : Offers K p.offsets (some stage) c) (ho : Indexes stage.state o)
    (fault : Option StoreError) :
    Offers K ((p.putOffset fault o).toOption.getD p.offsets) (some stage) c := by
  refine H.store fun token o' hs ht => ?_
  cases hp : p.putOffset fault o with
  | error => exact .inl (by simpa [hp, Except.toOption] using hs)
  | ok offsets =>
    cases fault with
    | some => cases hp
    | none =>
      simp only [hp, Except.toOption, Option.getD_some] at hs
      rcases Store.kept?_put TokenOffset.faithful hp hs with ⟨-, rfl⟩ | hs
      · exact .inr (H.indexed _ o' rfl ho)
      · exact .inl hs

/-- A step of the offset stage offers what it offered before, and the marker that it takes. -/
theorem indexStage {fault : Option StoreError} {stage stage' : Consumer IndexWork} {offsets : Store}
    {coordinator : Coordinator} {errors : Log AuditEvent}
    (H : Offers K p.offsets (some stage) p.coordinator)
    (hk : ∀ n e, p.output.envelopes[n]? = some e → e.marker? = some p.wiring.boundary →
      K ⟨e.token, Int.ofNat n⟩)
    (h : p.IndexStepped fault stage offsets coordinator errors stage') :
    Offers K offsets (some stage') coordinator := by
  cases h with
  | take he =>
    obtain ⟨envelope, hx, rfl⟩ := Log.exists_of_read he
    refine H.stage fun o ho => ?_
    simp only [IndexWork.ofEnvelope] at ho
    split at ho
    · next hm =>
      cases ho
      exact hk _ envelope hx hm
    · cases ho
  | drained | next | report | crashed => exact H.stage fun o ho => by cases ho
  | record =>
    refine (H.put .recording fault).stage fun o' ho' => ?_
    cases hp : p.putOffset fault _ with
    | ok =>
      rw [hp] at ho'
      cases ho'
      exact H.indexed _ _ rfl .recording
    | error e => rw [hp] at ho'; cases e <;> cases ho'
  | @announce _ _ o =>
    have ha := H.coordinate (d := .available o) rfl (by simp)
      (by rintro _ ⟨⟩; exact H.indexed _ _ rfl .announcing)
    exact ha.stage fun o ho => by cases ho

/-- Every step but an announcement from outside offers what was offered before. -/
theorem step (H : Offers K p.offsets p.index p.coordinator) (h : Stepped p e q)
    (hk : ∀ n e, p.output.envelopes[n]? = some e → e.marker? = some p.wiring.boundary →
      K ⟨e.token, Int.ofNat n⟩)
    (he : ∀ o, e ≠ .announce o) : Offers K q.offsets q.index q.coordinator := by
  cases h with
  | reading _ hs =>
    cases hs with
    | ask => exact H.coordinate (d := .request _) rfl nofun nofun
    | hear | fail | more | complete | ended => exact H
  | index hi hs => exact (hi ▸ H).indexStage hk hs
  | coordinate hc hs =>
    refine H.coordinate hs ?_ ?_
    · rintro place w o rfl
      exact absurd hc Event.command?_ne_read
    · rintro o rfl
      cases e <;> cases hc
      exact absurd rfl (he o)
  | lookup hw hs =>
    have hc := H.coordinate (d := .read _ _) hs (fun place w o hr hw' ht => ?_) nofun
    · exact hc.store fun token o hs _ => .inl (Store.kept?_get hs)
    obtain ⟨rfl, ha⟩ := Coordinator.Event.read.inj hr
    cases hw.symm.trans hw'
    exact H.stored _ o (Store.kept?_of_get ha) ht
  | fail hs => exact H.coordinate (d := .read _ _) hs nofun nofun
  | wait => exact H.store fun token o hs _ => .inl (Store.kept?_advance hs)
  | register | registration | read | access | setResourceRules | setRecordRules
  | closeRequests | closeOutput | closeErrors => exact H

end Offers

end PolicyGate.Pipeline
