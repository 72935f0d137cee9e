import PolicyGate.Proofs.Topic.Following

/-!
What readers get of a topic that is closed. A publisher adds its entry some time after it has found
the topic open, and a reader checks whether the topic is closed some time after it has found no
entry. An entry that comes in between is published and not read. Main statements: a reader that has
ended has read to the end of the log as it once was, and to its very end when the topic was closed
at a moment at which nobody was in between (`Traffic.drained`).
-/

namespace PolicyGate

open ListUpdate

variable {α : Type}

namespace Traffic

variable {t t' : Traffic α} {e : Event α} {r r' : ReaderTask α} {name : String}

/-- A reader that has found nothing has got all that the log held then. -/
def Exhausted (name : String) (t : Traffic α) (r : ReaderTask α) : Prop :=
  ∃ t₀, Reachable name t₀ ∧ t₀.Later t ∧ { r with phase := .reading } ∈ t₀.readers ∧
    t₀.log.read r.reader.position = none ∧ r.yielded = t₀.log.readFrom r.start

/-- Where a reader stands once it has found nothing. -/
structure Ending (name : String) (t : Traffic α) (r : ReaderTask α) : Prop where
  checking : r.phase = .checking → Exhausted name t r
  ended : r.phase = .ended → Exhausted name t r ∧ t.log.isClosed

namespace Ending

theorem new (t : Traffic α) (start : Int) : Ending name t (.new t.log start) := ⟨nofun, nofun⟩

theorem keep (H : Ending name t r) (h : t.step e = some t') : Ending name t' r := by
  have hlater : Exhausted name t r → Exhausted name t' r := by
    rintro ⟨t₀, ht₀, hl, hrest⟩
    exact ⟨t₀, ht₀, hl.step h, hrest⟩
  exact ⟨fun hp => hlater (H.checking hp),
    fun hp => (H.ended hp).imp hlater (stepped h).grown.closed⟩

theorem step (ht : Reachable name t) (hr : r ∈ t.readers) (H : Ending name t r)
    (h : ReaderTask.Stepped t.log r r') : Ending name t r' := by
  cases h with
  | looked | yielded | parked | woken => exact ⟨nofun, nofun⟩
  | missed hread =>
    exact ⟨fun _ => ⟨t, ht, .refl, hr, hread, (ht.follows _ hr).eq_readFrom hread⟩, nofun⟩
  | ended hc => exact ⟨nofun, fun _ => ⟨H.checking rfl, hc⟩⟩

end Ending

theorem Reachable.ending (h : Reachable name t) : ∀ r ∈ t.readers, Ending name t r :=
  h.readers .new .keep .step

/-- Nobody is between a check and what rests on it. -/
structure Settled (t : Traffic α) : Prop where
  publishers : ∀ envelope, .appending envelope ∉ t.publishers
  readers : ∀ r ∈ t.readers, r.phase ≠ .checking

/-- Runs in which the topic is closed at a settled moment only. -/
inductive Orderly (name : String) : Traffic α → Prop
  | start : Orderly name (new name)
  | step {u u' event} : Orderly name u → u.step event = some u' →
    (u.log.isClosed = false → u'.log.isClosed = true → u.Settled) → Orderly name u'

theorem Orderly.reachable (h : Orderly name t) : Reachable name t := by
  induction h with
  | start => exact .start
  | step _ hs _ ih => exact ih.step hs

/-- Until the topic is closed, and again from then on, its users may do as they like. -/
theorem Orderly.later (h : Orderly name t) (hl : t.Later t')
    (hc : t'.log.isClosed → t.log.isClosed) : Orderly name t' := by
  induction hl with
  | refl => exact h
  | step hl hs ih =>
    refine (ih fun hu => hc ((stepped hs).grown.closed hu)).step hs fun hopen hclosed => ?_
    exact absurd (hl.grown.closed (hc hclosed)) (by simp [hopen])

/-- Nothing will come on a topic any more. -/
structure Final (t : Traffic α) : Prop where
  closed : t.log.isClosed
  publishers : ∀ envelope, .appending envelope ∉ t.publishers

/-- On a topic that is final nothing comes any more. -/
theorem Final.step (H : t.Final) (h : t.step e = some t') :
    t'.Final ∧ t'.log.envelopes = t.log.envelopes := by
  have hclosed := (stepped h).grown.closed H.closed
  cases stepped h with
  | publish =>
    refine ⟨⟨hclosed, fun envelope hm => ?_⟩, rfl⟩
    rcases List.mem_append.1 hm with hm | hm
    · exact H.publishers envelope hm
    · cases List.mem_singleton.1 hm
  | close | attach | reader => exact ⟨⟨hclosed, H.publishers⟩, rfl⟩
  | closer _ hs =>
    cases hs with
    | marked | signalled => exact ⟨⟨hclosed, H.publishers⟩, rfl⟩
  | publisher hp hs =>
    cases hs with
    | checked hopen => exact absurd H.closed (by simp [hopen])
    | appended => exact absurd (List.mem_of_getElem? hp) (H.publishers _)
    | refused | signalled =>
      refine ⟨⟨hclosed, fun envelope hm => ?_⟩, rfl⟩
      rcases List.mem_or_eq_of_mem_set hm with hm | hm
      · exact H.publishers envelope hm
      · cases hm

theorem Final.later (H : t.Final) (h : t.Later t') : t'.log.envelopes = t.log.envelopes := by
  have hfinal : t'.Final ∧ t'.log.envelopes = t.log.envelopes := by
    induction h with
    | refl => exact ⟨H, rfl⟩
    | step _ hs ih =>
      have hstep := ih.1.step hs
      exact ⟨hstep.1, hstep.2.trans ih.2⟩
  exact hfinal.2

/-- When the topic is closed, nothing will come, and who looks for more has found the end. -/
structure Closing (t : Traffic α) : Prop where
  final : t.Final
  readers : ∀ r ∈ t.readers, r.phase = .checking ∨ r.phase = .ended →
    t.log.read r.reader.position = none

/-- A topic that is closing goes on to do so. -/
theorem Closing.step (H : t.Closing) (h : t.step e = some t') : t'.Closing := by
  obtain ⟨hfinal, henvelopes⟩ := H.final.step h
  refine ⟨hfinal, fun r hr hp => ?_⟩
  rw [Log.read_congr henvelopes]
  by_cases hold : r ∈ t.readers
  · exact H.readers r hold hp
  cases stepped h with
  | publish | close | publisher | closer => exact absurd hr hold
  | attach =>
    rcases List.mem_append.1 hr with hr | hr
    · exact absurd hr hold
    · cases List.mem_singleton.1 hr
      simp [ReaderTask.new] at hp
  | reader hr₁ hs =>
    rcases List.mem_or_eq_of_mem_set hr with hr | rfl
    · exact absurd hr hold
    · cases hs with
      | looked | yielded | parked | woken => simp at hp
      | missed hread => exact hread
      | ended =>
        have hread := H.readers _ (List.mem_of_getElem? hr₁) (.inl rfl)
        exact hread

/-- The step that closes a topic. -/
theorem Settled.closing (ht : Reachable name t) (H : t.Settled) (hopen : t.log.isClosed = false)
    (h : t.step e = some t') (hclosed : t'.log.isClosed = true) : t'.Closing := by
  have hsame : t'.log.isClosed ≠ t.log.isClosed := by simp [hopen, hclosed]
  cases stepped h with
  | publish | close | attach | reader => exact absurd rfl hsame
  | publisher _ hs =>
    cases hs with
    | checked | refused | appended | signalled => exact absurd rfl hsame
  | closer _ hs =>
    cases hs with
    | signalled => exact absurd rfl hsame
    | marked =>
      refine ⟨⟨rfl, H.publishers⟩, fun r hr hp => ?_⟩
      rcases hp with hp | hp
      · exact absurd hp (H.readers r hr)
      · exact absurd ((ht.ending r hr).ended hp).2 (by simp [hopen])

theorem Orderly.closing (h : Orderly name t) (hc : t.log.isClosed = true) : t.Closing := by
  induction h with
  | start => cases hc
  | @step u u' _ hu hs hsettled ih =>
    cases hopen : u.log.isClosed with
    | true => exact (ih hopen).step hs
    | false => exact (hsettled hopen hc).closing hu.reachable hopen hs hc

/-- A reader that has ended finds the topic closed, and has got all that was on it when it last
looked for an entry. If the topic was closed at a settled moment, it has got all there is, the log
will stay as it is, and every entry that has been published by then or later, and not before the
start of the reader, is among those that it got. -/
theorem drained (h : Reachable name t) (hr : r ∈ t.readers) (he : r.phase = .ended) :
    t.log.isClosed ∧ Exhausted name t r ∧
    (Orderly name t → r.yielded = t.log.readFrom r.start ∧
      ∀ t' : Traffic α, t.Later t' → t'.log.envelopes = t.log.envelopes ∧
        ∀ (t₀ : Traffic α) (place : Nat) (envelope : Envelope α) (offset : Nat), t₀.Later t' →
          t₀.publishers[place]? = some (.checking envelope) →
          t'.publishers[place]? = some (.published offset) → r.start ≤ offset →
          ⟨offset, envelope⟩ ∈ r.yielded) := by
  obtain ⟨hexhausted, hclosed⟩ := (h.ending r hr).ended he
  refine ⟨hclosed, hexhausted, fun ho => ?_⟩
  have hclosing := ho.closing hclosed
  have hall : r.yielded = t.log.readFrom r.start :=
    (h.follows r hr).eq_readFrom (hclosing.readers r hr (.inr he))
  refine ⟨hall, fun t' hl => ?_⟩
  have henvelopes := hclosing.final.later hl
  refine ⟨henvelopes, fun t₀ place envelope offset hl₀ hp hp' hstart => ?_⟩
  have hkeeps : (PublisherPhase.checking envelope).Keeps envelope t₀.log := rfl
  obtain ⟨p', hp'', hkept⟩ := hl₀.keeps hp hkeeps
  cases hp'.symm.trans hp''
  have hread : t.log.read offset = some ⟨offset, envelope⟩ :=
    (Log.read_congr henvelopes offset).symm.trans hkept
  exact hall ▸ Log.mem_readFrom hread hstart

/-- A reader that has got one entry ends when a topic is closed while another publisher is about to
check it. -/
theorem drained_refused : ∃ t : Traffic Nat, Orderly "numbers" t ∧
    .refused ⟨"numbers"⟩ ∈ t.publishers ∧ ∃ r ∈ t.readers, r.start = -3 ∧ r.phase = .ended ∧
      r.yielded = t.log.readFrom (-3) ∧ ⟨0, ⟨⟨"t"⟩, .message 1⟩⟩ ∈ r.yielded := by
  let envelope : Envelope Nat := ⟨⟨"t"⟩, .message 1⟩
  let late : Envelope Nat := ⟨⟨"t"⟩, .message 2⟩
  let log : Log Nat := ⟨"numbers", [⟨0, envelope⟩], false, 1, 1, rfl⟩
  let t₀ : Traffic Nat := ⟨.new "numbers", [.checking envelope, .checking late], [.closing],
    [.new (.new "numbers") (-3)]⟩
  let u : Traffic Nat := ⟨log, [.published 0, .checking late], [.closing],
    [⟨-3, ⟨1, 1⟩, .looking, [⟨0, envelope⟩]⟩]⟩
  let v : Traffic Nat := ⟨log.markClosed, [.published 0, .checking late], [.signalling], u.readers⟩
  let t : Traffic Nat := ⟨log.close, [.published 0, .refused ⟨"numbers"⟩], [.closed],
    [⟨-3, ⟨1, 2⟩, .ended, [⟨0, envelope⟩]⟩]⟩
  have ht₀ : (new "numbers").Later t₀ :=
    .run (l := [.attach (-3), .publish envelope, .publish late, .close]) rfl
  have hu : t₀.Later u := .run (l := [.publisher 0, .publisher 0, .publisher 0, .reader 0,
    .reader 0]) rfl
  have huv : u.step (.closer 0) = some v := rfl
  have ht : v.Later t := .run (l := [.publisher 1, .closer 0, .reader 0, .reader 0, .reader 0])
    rfl
  have hsettled : u.Settled := ⟨by simp [u], by simp [u]⟩
  have ho : Orderly "numbers" t :=
    (((Orderly.start.later ht₀ id).later hu id).step huv fun _ _ => hsettled).later ht fun _ => rfl
  obtain ⟨-, -, hdrained⟩ := drained ho.reachable List.mem_cons_self rfl
  obtain ⟨hall, hlater⟩ := hdrained ho
  have hpublished := (hlater t .refl).2 t₀ 0 envelope 0 ((hu.step huv).trans ht) rfl rfl (by decide)
  exact ⟨t, ho, by simp [t], _, List.mem_cons_self, rfl, rfl, hall, hpublished⟩

/-- An entry that is published between the last look of a reader and its check is lost to the reader
when the topic is closed before that check, and so is an entry whose publisher has found the topic
open before it is closed: the reader ends without entries, though the publisher is done before the
topic is closed, or is done later. -/
theorem lost_in_between :
    (∃ t t' : Traffic Nat, Reachable "numbers" t ∧ t.Later t' ∧ t.closers = [] ∧
      t.publishers = [.published 0] ∧
      ∃ r ∈ t'.readers, r.start = 0 ∧ r.phase = .ended ∧ r.yielded = []) ∧
    ∃ t t' : Traffic Nat, Reachable "numbers" t ∧ t.Later t' ∧
      (∃ r ∈ t.readers, r.start = 0 ∧ r.phase = .ended ∧ r.yielded = []) ∧
      t'.publishers = [.published 0] := by
  let envelope : Envelope Nat := ⟨⟨"t"⟩, .message 1⟩
  let ended (seen : Nat) : ReaderTask Nat := ⟨0, ⟨0, seen⟩, .ended, []⟩
  constructor
  · let t : Traffic Nat := ⟨⟨"numbers", [⟨0, envelope⟩], false, 1, 1, rfl⟩, [.published 0], [],
      [⟨0, ⟨0, 0⟩, .checking, []⟩]⟩
    let t' : Traffic Nat := ⟨t.log.markClosed, [.published 0], [.signalling], [ended 0]⟩
    have ht : (new "numbers").Later t := .run (l := [.attach 0, .publish envelope, .publisher 0,
      .reader 0, .reader 0, .publisher 0, .publisher 0]) rfl
    have ht' : t.Later t' := .run (l := [.close, .closer 0, .reader 0]) rfl
    exact ⟨t, t', Reachable.start.later ht, ht', rfl, rfl, _, List.mem_cons_self, rfl, rfl, rfl⟩
  · let t : Traffic Nat := ⟨(Log.new "numbers").close, [.appending envelope], [.closed], [ended 1]⟩
    let t' : Traffic Nat :=
      ⟨⟨"numbers", [⟨0, envelope⟩], true, 2, 1, rfl⟩, [.published 0], [.closed], [ended 1]⟩
    have ht : (new "numbers").Later t := .run (l := [.attach 0, .publish envelope, .publisher 0,
      .close, .closer 0, .closer 0, .reader 0, .reader 0, .reader 0]) rfl
    have ht' : t.Later t' := .run (l := [.publisher 0, .publisher 0]) rfl
    exact ⟨t, t', Reachable.start.later ht, ht', ⟨_, List.mem_cons_self, rfl, rfl, rfl⟩, rfl⟩

end Traffic

end PolicyGate
