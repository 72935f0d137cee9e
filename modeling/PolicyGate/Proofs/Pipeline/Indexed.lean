import PolicyGate.Proofs.Pipeline.Answers

/-!
The offsets that the offset stage makes known. It takes the output topic from the first entry on,
and only what it has stored goes on to clients, be it read from the store or announced to a worker.
Main statements: the attempts of the stage are the boundary markers that it has processed, in order
(`Processed.step`), and an offset that is stored or answered is that of such a marker of its own
token (`known_offsets_point`).
-/

namespace PolicyGate

/-- An attempt of the offset stage to store the offset of a marker. -/
structure Attempt where
  offset : TokenOffset
  stored : Bool
  deriving DecidableEq

/-- The offset that was stored last for a token; the last attempt comes first. -/
def Attempt.latest? (token : Token) (attempts : List Attempt) : Option TokenOffset :=
  (attempts.find? fun a => a.stored ∧ a.offset.token = token).map Attempt.offset

/-- The offsets of the markers of the chosen kind in a log. -/
def markerOffsets (boundary : Marker) (output : List (Envelope AuthorisedResource)) :
    List TokenOffset :=
  output.zipIdx.filterMap fun (e, n) =>
    if e.marker? = some boundary then some ⟨e.token, Int.ofNat n⟩ else none

/-- The offset that the stage still has to store. -/
def ConsumerState.inHand : ConsumerState IndexWork → List TokenOffset
  | .busy _ (.recording o) => [o]
  | _ => []

section

variable {boundary : Marker} {output : List (Envelope AuthorisedResource)} {o : TokenOffset}
  {token : Token} {attempts : List Attempt} {a : Attempt}

/-- The offsets to store are those that lead to a marker. -/
theorem mem_markerOffsets : o ∈ markerOffsets boundary output ↔ o.Points boundary output := by
  simp only [markerOffsets, List.mem_filterMap, Prod.exists, List.mem_zipIdx_iff_getElem?]
  constructor
  · rintro ⟨e, n, hn, he⟩
    split at he
    · next hm =>
      cases he
      exact ⟨n, e, rfl, hn, rfl, hm⟩
    · cases he
  · obtain ⟨token, offset⟩ := o
    rintro ⟨n, e, rfl, hn, rfl, hm⟩
    exact ⟨e, n, hn, if_pos hm⟩

theorem markerOffsets_take_succ {e : Envelope AuthorisedResource} {n : Nat}
    (h : output[n]? = some e) (t : Token) :
    markerOffsets boundary (output.take (n + 1)) = markerOffsets boundary (output.take n) ++
      ConsumerState.inHand (.busy t (.ofEnvelope boundary (Int.ofNat n) e)) := by
  have hn := (List.getElem?_eq_some_iff.1 h).1
  have hlength : (output.take n).length = n := List.length_take_of_le (Nat.le_of_lt hn)
  rw [List.take_add_one, h, markerOffsets, List.zipIdx_append, List.filterMap_append, hlength,
    IndexWork.ofEnvelope]
  by_cases hm : e.marker? = some boundary <;> simp [markerOffsets, ConsumerState.inHand, hm]

theorem Attempt.latest?_cons_of_stored (ha : a.stored) (ht : a.offset.token = token)
    (attempts : List Attempt) : latest? token (a :: attempts) = some a.offset := by
  rw [latest?, List.find?_cons_of_pos (by simp [ha, ht]), Option.map_some]

theorem Attempt.latest?_cons_of_not (h : ¬ (a.stored ∧ a.offset.token = token))
    (attempts : List Attempt) : latest? token (a :: attempts) = latest? token attempts := by
  rw [latest?, List.find?_cons_of_neg (by simpa using h), ← latest?]

theorem Attempt.of_latest?_eq_some (h : latest? token attempts = some o) :
    o.token = token ∧ ⟨o, true⟩ ∈ attempts := by
  obtain ⟨⟨offset, stored⟩, ha, rfl⟩ := Option.map_eq_some_iff.1 h
  have hp := List.find?_some ha
  obtain ⟨rfl, ht⟩ := of_decide_eq_true hp
  exact ⟨ht, List.mem_of_find?_eq_some ha⟩

end

namespace Pipeline

/-- The attempt to store an offset that a step makes. -/
def attempted? (p : Pipeline) : Event → Option Attempt
  | .index fault =>
    match p.index with
    | some ⟨_, .busy _ (.recording o)⟩ => some ⟨o, (p.putOffset fault o).isOk⟩
    | _ => none
  | _ => none

/-- Runs of a pipeline in which nobody but the offset stage writes or announces offsets, with the
attempts of the stage, last first. Others may publish on the output topic or close it, and the store
may lose offsets at any time. -/
inductive Indexing (p₀ : Pipeline) : List Attempt → Pipeline → Prop
  | start : Indexing p₀ [] p₀
  | step {attempts p e q} : Indexing p₀ attempts p → (∀ o, e ≠ .announce o) → p.step e = some q →
    Indexing p₀ ((p.attempted? e).toList ++ attempts) q
  | publish {attempts p} {output : Log AuthorisedResource} : Indexing p₀ attempts p →
    p.output.envelopes <+: output.envelopes → Indexing p₀ attempts { p with output }
  | lose {attempts p} {offsets : Store} : Indexing p₀ attempts p →
    (∀ key o, offsets.kept? TokenOffset.recordType key = some o →
      p.offsets.kept? TokenOffset.recordType key = some o) →
    Indexing p₀ attempts { p with offsets }

/-- The stage has attempted to store the markers up to its place, and announces only what is
stored. -/
structure Processed (boundary : Marker) (output : List (Envelope AuthorisedResource))
    (stage : Consumer IndexWork) (attempts : List Attempt) : Prop where
  bound : stage.reader.position ≤ output.length
  markers : attempts.reverse.map Attempt.offset ++ stage.state.inHand =
    markerOffsets boundary (output.take stage.reader.position)
  announced : ∀ t o, stage.state = .busy t (.announcing o) → ⟨o, true⟩ ∈ attempts

/-- What is stored under a token is what was stored last for it. -/
def KeepsLatest (attempts : List Attempt) (offsets : Store) : Prop :=
  ∀ token o, offsets.kept? TokenOffset.recordType token.text = some o →
    Attempt.latest? token attempts = some o

/-- What holds throughout such a run. -/
structure Indexed (boundary : Marker) (attempts : List Attempt) (p : Pipeline) : Prop where
  wiring : p.wiring.boundary = boundary
  mapping : p.coordinator.Mapping
  placement : p.coordinator.Placement
  knows : p.coordinator.Knows fun o => ⟨o, true⟩ ∈ attempts
  stores : KeepsLatest attempts p.offsets
  stage : ∃ stage, p.index = some stage ∧ Processed boundary p.output.envelopes stage attempts

variable {p₀ p q : Pipeline} {e : Event} {attempts : List Attempt} {boundary : Marker}
  {output output' : List (Envelope AuthorisedResource)} {stage stage' : Consumer IndexWork}
  {fault : Option StoreError}

namespace Processed

theorem grow (H : Processed boundary output stage attempts) (h : output <+: output') :
    Processed boundary output' stage attempts where
  bound := Nat.le_trans H.bound h.length_le
  markers := by
    obtain ⟨more, rfl⟩ := h
    rw [List.take_append_of_le_length H.bound]
    exact H.markers
  announced := H.announced

theorem points {a : Attempt} (H : Processed boundary output stage attempts) (h : a ∈ attempts) :
    a.offset.Points boundary output := by
  have hmem : a.offset ∈ markerOffsets boundary (output.take stage.reader.position) := by
    rw [← H.markers]
    exact List.mem_append_left _ (List.mem_map_of_mem (List.mem_reverse.2 h))
  exact (mem_markerOffsets.1 hmem).mono (List.take_prefix _ _)

/-- A step of the offset stage attempts the next offset or none. -/
theorem step {offsets : Store} {coordinator : Coordinator} {errors : Log AuditEvent}
    (H : Processed p.wiring.boundary p.output.envelopes stage attempts)
    (hi : p.index = some stage)
    (h : p.IndexStepped fault stage offsets coordinator errors stage') :
    Processed p.wiring.boundary p.output.envelopes stage'
      ((p.attempted? (.index fault)).toList ++ attempts) := by
  cases h with
  | take he =>
    obtain ⟨envelope, hx, rfl⟩ := Log.exists_of_read he
    refine ⟨(List.getElem?_eq_some_iff.1 hx).1, ?_, ?_⟩
    · rw [markerOffsets_take_succ hx envelope.token, ← H.markers]
      simp [attempted?, hi, ConsumerState.inHand]
    · intro t o ho
      simp only [IndexWork.ofEnvelope] at ho
      split at ho <;> cases ho
  | @record _ t o =>
    have ha : p.attempted? (.index fault) = some ⟨o, (p.putOffset fault o).isOk⟩ := by
      simp only [attempted?, hi]
    have hdone : ConsumerState.inHand (.busy t (.ofRecording o (p.putOffset fault o))) = [] := by
      rcases p.putOffset fault o with (_ | _) | _ <;> rfl
    refine ⟨H.bound, ?_, ?_⟩
    · rw [ha, hdone, ← H.markers]
      simp [ConsumerState.inHand]
    · intro t' o' ho'
      rw [ha]
      rcases hp : p.putOffset fault o with (_ | _) | _ <;> rw [hp] at ho' <;> cases ho'
      exact List.mem_cons_self
  | drained | next | report | crashed | announce =>
    refine ⟨H.bound, ?_, ?_⟩
    · simpa [attempted?, hi, ConsumerState.inHand] using H.markers
    · intro t o ho
      cases ho

end Processed

theorem attempted?_of_command? {ce : Coordinator.Event} (h : e.command? p.now = some ce) :
    p.attempted? e = none := by
  cases e with
  | index => cases h
  | _ => rfl

theorem put_of_putOffset {o : TokenOffset} {offsets : Store}
    (h : p.putOffset fault o = .ok offsets) :
    p.offsets.put TokenOffset.recordType p.now o.token.text o (some p.wiring.offsetTtl) =
      .ok offsets := by
  cases fault with
  | none => exact h
  | some => cases h

/-- A step stores an offset, or makes no attempt that succeeds and brings nothing into the store. -/
theorem offsets_of_step (h : p.step e = some q) :
    (∃ fault o, p.attempted? e = some ⟨o, true⟩ ∧ p.putOffset fault o = .ok q.offsets) ∨
      (∀ a, p.attempted? e = some a → a.stored = false) ∧
        ∀ key o, q.offsets.kept? TokenOffset.recordType key = some o →
          p.offsets.kept? TokenOffset.recordType key = some o := by
  cases stepped h with
  | @index fault _ _ _ _ _ hi hs =>
    cases hs with
    | @record _ _ o =>
      cases hp : p.putOffset fault o with
      | ok => exact .inl ⟨fault, o, by simp [attempted?, hi, hp, Except.isOk, Except.toBool], hp⟩
      | error =>
        refine .inr ⟨fun a ha => ?_, fun _ _ h => h⟩
        simp [attempted?, hi, hp, Except.isOk, Except.toBool] at ha
        rw [← ha]
    | take | drained | next | report | crashed | announce =>
      exact .inr ⟨by simp [attempted?, hi], fun _ _ h => h⟩
  | wait => exact .inr ⟨nofun, fun _ _ h => Store.kept?_advance h⟩
  | lookup => exact .inr ⟨nofun, fun _ _ h => Store.kept?_get h⟩
  | coordinate he => exact .inr ⟨by simp [attempted?_of_command? he], fun _ _ h => h⟩
  | register | registration | read | reading | access | fail | setResourceRules
  | setRecordRules | closeRequests | closeOutput | closeErrors => exact .inr ⟨nofun, fun _ _ h => h⟩

namespace KeepsLatest

variable {offsets offsets' : Store}

theorem put {now : Instant} {ttl : Option Duration} {o : TokenOffset}
    (H : KeepsLatest attempts offsets)
    (hp : offsets.put TokenOffset.recordType now o.token.text o ttl = .ok offsets') :
    KeepsLatest (⟨o, true⟩ :: attempts) offsets' := by
  intro token o' hk
  rw [Store.kept?_put_eq hp] at hk
  split at hk
  · next ht =>
    cases Store.eq_of_readBack TokenOffset.faithful hk
    exact Attempt.latest?_cons_of_stored rfl (congrArg Token.mk ht).symm attempts
  · next ht =>
    rw [← H token o' hk]
    apply Attempt.latest?_cons_of_not
    rintro ⟨-, rfl⟩
    exact ht rfl

theorem lose (H : KeepsLatest attempts offsets)
    (h : ∀ key o, offsets'.kept? TokenOffset.recordType key = some o →
      offsets.kept? TokenOffset.recordType key = some o) : KeepsLatest attempts offsets' :=
  fun token o hk => H token o (h _ o hk)

theorem fail {a : Attempt} (H : KeepsLatest attempts offsets) (ha : a.stored = false) :
    KeepsLatest (a :: attempts) offsets := by
  intro token o hk
  rw [← H token o hk]
  apply Attempt.latest?_cons_of_not
  rintro ⟨hstored, -⟩
  cases ha.symm.trans hstored

/-- After every step, the store holds the latest of the offsets whose writes succeeded. -/
theorem step (H : KeepsLatest attempts p.offsets) (h : p.step e = some q) :
    KeepsLatest ((p.attempted? e).toList ++ attempts) q.offsets := by
  rcases offsets_of_step h with ⟨fault, o, ha, hp⟩ | ⟨hfailed, hkept⟩
  · rw [ha]
    exact H.put (put_of_putOffset hp)
  · cases ha : p.attempted? e with
    | none => exact H.lose hkept
    | some a => exact (H.lose hkept).fail (hfailed a ha)

end KeepsLatest

namespace Indexed

theorem stage_step (H : Indexed boundary attempts p) (h : p.step e = some q) :
    ∃ stage, q.index = some stage ∧
      Processed boundary q.output.envelopes stage ((p.attempted? e).toList ++ attempts) := by
  obtain ⟨stage, hi, hp⟩ := H.stage
  have hgrown := hp.grow (stepped h).output.envelopes
  cases stepped h with
  | index hi' hs =>
    cases hi.symm.trans hi'
    exact ⟨_, rfl, H.wiring ▸ (H.wiring ▸ hp).step hi hs⟩
  | coordinate he =>
    rw [attempted?_of_command? he]
    exact ⟨stage, hi, hgrown⟩
  | _ => exact ⟨stage, hi, hgrown⟩

theorem coordinator_step (H : Indexed boundary attempts p) (he : ∀ o, e ≠ .announce o)
    (h : p.step e = some q) : q.coordinator.Mapping ∧ q.coordinator.Placement ∧
      q.coordinator.Knows fun o => ⟨o, true⟩ ∈ attempts := by
  rcases coordinator_of_step h with hc | ⟨ce, hd, hc⟩
  · rw [hc]
    exact ⟨H.mapping, H.placement, H.knows⟩
  · have hsound := Coordinator.sound_step H.mapping H.placement hc
    refine ⟨hsound.1, hsound.2, H.knows.step H.mapping H.placement hc ?_ ?_⟩
    · intro place w o hread hw ht
      cases hd with
      | command hce => exact absurd (hread ▸ hce) Event.command?_ne_read
      | lookup hv =>
        obtain ⟨rfl, ha⟩ := Coordinator.Event.read.inj hread
        cases hw.symm.trans hv
        exact (Attempt.of_latest?_eq_some (H.stores _ o (Store.kept?_of_get ha))).2
      | reading | index | fail => cases hread
    · intro o havailable
      cases hd with
      | command hce =>
        subst havailable
        cases e <;> cases hce
        exact absurd rfl (he o)
      | index hi =>
        obtain ⟨stage, hi', hp⟩ := H.stage
        cases hi.symm.trans hi'
        cases havailable
        exact hp.announced _ _ rfl
      | reading | lookup | fail => cases havailable

/-- Every step keeps the index in agreement with the attempts. -/
theorem step (H : Indexed boundary attempts p) (he : ∀ o, e ≠ .announce o)
    (h : p.step e = some q) : Indexed boundary ((p.attempted? e).toList ++ attempts) q := by
  obtain ⟨hmapping, hplacement, hknows⟩ := H.coordinator_step he h
  have hw : q.wiring = p.wiring := by cases stepped h <;> rfl
  exact {
    wiring := hw ▸ H.wiring
    mapping := hmapping
    placement := hplacement
    knows := hknows.mono fun o ho => List.mem_append_right _ ho
    stores := H.stores.step h
    stage := H.stage_step h }

end Indexed

theorem Indexing.indexed {timeout : Duration} (hindex : p₀.index = some (.new p₀.output 0))
    (hcoordinator : p₀.coordinator = .new timeout)
    (hoffsets : ∀ key, p₀.offsets.kept? TokenOffset.recordType key = none)
    (h : Indexing p₀ attempts p) : Indexed p₀.wiring.boundary attempts p := by
  induction h with
  | start =>
    constructor
    · rfl
    · exact hcoordinator ▸ Coordinator.mapping_new _
    · exact hcoordinator ▸ Coordinator.placement_new _
    · exact hcoordinator ▸ Coordinator.knows_new _
    · intro token o hk
      cases (hoffsets _).symm.trans hk
    · exact ⟨_, hindex, Nat.zero_le _, rfl, nofun⟩
  | step _ he hs ih => exact ih.step he hs
  | publish _ hgrow ih =>
    obtain ⟨stage, hi, hp⟩ := ih.stage
    exact ⟨ih.wiring, ih.mapping, ih.placement, ih.knows, ih.stores, stage, hi, hp.grow hgrow⟩
  | lose _ hlost ih =>
    exact ⟨ih.wiring, ih.mapping, ih.placement, ih.knows, ih.stores.lose hlost, ih.stage⟩

/-- The offset stage attempts to store the offset of every boundary marker that it comes to, in the
order of the log. What the store answers about a token is the offset that was stored last for it,
and what a client is told was stored before for the token that it asked for. So both lead to
boundary markers of the token. -/
theorem known_offsets_point {timeout : Duration} (hindex : p₀.index = some (.new p₀.output 0))
    (hcoordinator : p₀.coordinator = .new timeout)
    (hoffsets : ∀ key, p₀.offsets.kept? TokenOffset.recordType key = none)
    (h : Indexing p₀ attempts p) :
    (∃ stage, p.index = some stage ∧ attempts.reverse.map Attempt.offset ++ stage.state.inHand =
      markerOffsets p₀.wiring.boundary (p.output.envelopes.take stage.reader.position)) ∧
    (∀ token o, p.lookup token = .ok (some o) → Attempt.latest? token attempts = some o ∧
      o.token = token ∧ o.Points p₀.wiring.boundary p.output.envelopes) ∧
    ∀ request o, (request, .ok o) ∈ p.coordinator.answers →
      p.coordinator.requests[request]? = some o.token ∧ ⟨o, true⟩ ∈ attempts ∧
      o.Points p₀.wiring.boundary p.output.envelopes := by
  have H := h.indexed hindex hcoordinator hoffsets
  obtain ⟨stage, hi, hp⟩ := H.stage
  refine ⟨⟨stage, hi, hp.markers⟩, ?_, ?_⟩
  · intro token o hlookup
    have hlatest := H.stores token o (Store.kept?_of_get hlookup)
    obtain ⟨ht, hstored⟩ := Attempt.of_latest?_eq_some hlatest
    exact ⟨hlatest, ht, hp.points hstored⟩
  · intro request o ha
    obtain ⟨hr, hstored⟩ := H.knows.answers request o ha
    exact ⟨hr, hstored, hp.points hstored⟩

/-- Takes steps one after the other and notes the attempts of the offset stage. -/
def indexAll (attempts : List Attempt) (p : Pipeline) (events : List Event) :
    Option (List Attempt × Pipeline) :=
  events.foldlM (fun r e => (r.2.step e).map fun q => ((r.2.attempted? e).toList ++ r.1, q))
    (attempts, p)

theorem Indexing.exists_of_indexAll {α : Type} {l : List Event}
    {f : List Attempt × Pipeline → α} {a : α} (h : Indexing p₀ attempts p)
    (hl : ∀ e ∈ l, ∀ o, e ≠ .announce o) (hr : (p.indexAll attempts l).map f = some a) :
    ∃ attempts' q, Indexing p₀ attempts' q ∧ f (attempts', q) = a := by
  have hrun := ListUpdate.exists_of_foldlM (R := fun r => Indexing p₀ r.1 r.2) h hr ?_
  · obtain ⟨r, h, hf⟩ := hrun
    exact ⟨r.1, r.2, h, hf⟩
  · intro r e he r' h hs
    obtain ⟨q, hq, rfl⟩ := Option.map_eq_some_iff.1 hs
    exact h.step (hl e he) hq

/-- A topic on which the stream of a token begins twice, with that of another one in between. -/
def twiceBegun : Pipeline :=
  { start ⟨.builtins, .start, ⟨1000⟩, "host", default⟩ .silent .empty (.memory .empty)
      (.timed { cache := .new ⟨5000⟩ }) ⟨1000⟩ with
    output := ⟨outputTopic, [⟨0, ⟨"t"⟩, .start⟩, ⟨1, ⟨"s"⟩, .start⟩, ⟨2, ⟨"t"⟩, .finish⟩,
      ⟨3, ⟨"t"⟩, .start⟩], false, 4, 4, rfl⟩
    index := some ⟨⟨0, 4⟩, .idle⟩ }

/-- The client is told of the first stream. The offset of the other token cannot be stored, and the
store has that of the second stream in the end. -/
theorem known_offsets_point_twice : ∃ attempts p, Indexing twiceBegun attempts p ∧
    attempts = [⟨⟨⟨"t"⟩, 3⟩, true⟩, ⟨⟨⟨"s"⟩, 1⟩, false⟩, ⟨⟨⟨"t"⟩, 0⟩, true⟩] ∧
    p.lookup ⟨"t"⟩ = .ok (some ⟨⟨"t"⟩, 3⟩) ∧
    (0, .ok ⟨⟨"t"⟩, 0⟩) ∈ p.coordinator.answers ∧
    TokenOffset.Points .start p.output.envelopes ⟨⟨"t"⟩, 0⟩ ∧
    TokenOffset.Points .start p.output.envelopes ⟨⟨"t"⟩, 3⟩ := by
  have h : Indexing twiceBegun [] twiceBegun := .start
  obtain ⟨attempts, p, hp, hf⟩ := h.exists_of_indexAll
    (l := List.flatten [[.ask ⟨"t"⟩, .workerStart 0, .workerLookup 0 none, .workerResolve 0],
      List.replicate 4 (.index none), [.workerHandle 0, .index none],
      [.index (some (.backend "disk full"))], List.replicate 6 (.index none)])
    (f := fun r => (r.1, (r.2.lookup ⟨"t"⟩).toOption,
      r.2.coordinator.answers.map (Prod.map id Except.toOption)))
    (a := ([⟨⟨⟨"t"⟩, 3⟩, true⟩, ⟨⟨⟨"s"⟩, 1⟩, false⟩, ⟨⟨⟨"t"⟩, 0⟩, true⟩],
      some (some ⟨⟨"t"⟩, 3⟩), [(0, some ⟨⟨"t"⟩, 0⟩)]))
    (by simp) (by decide +kernel)
  simp only [Prod.mk.injEq] at hf
  obtain ⟨hattempts, hlookup, hanswers⟩ := hf
  have hlookup := eq_ok_of_toOption hlookup
  have hanswer : (0, .ok ⟨⟨"t"⟩, 0⟩) ∈ p.coordinator.answers := by
    obtain ⟨⟨request, reply⟩, hmem, hreply⟩ := List.mem_map.1 (hanswers ▸ List.mem_cons_self)
    obtain ⟨rfl, hreply⟩ := Prod.ext_iff.1 hreply
    exact eq_ok_of_toOption hreply ▸ hmem
  have hempty (key : String) : twiceBegun.offsets.kept? TokenOffset.recordType key = none := rfl
  obtain ⟨-, hstored, hanswered⟩ := known_offsets_point rfl rfl hempty hp
  exact ⟨attempts, p, hp, hattempts, hlookup, hanswer,
    (hanswered 0 _ hanswer).2.2, (hstored _ _ hlookup).2.2⟩

end Pipeline

end PolicyGate
