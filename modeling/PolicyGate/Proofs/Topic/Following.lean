import PolicyGate.Proofs.List.Update
import PolicyGate.Topic.Traffic

/-!
How readers follow a topic that publishers and closers change meanwhile, each in steps of their own.
A reader that waits has marked a version before it read, and what comes after that is signalled by a
later one. Main statements: what happens is signalled, or is about to be
(`Traffic.Stepped.signals`), and readers get the log as it is and wait only for what is still to
come (`Traffic.readers_follow`).
-/

namespace PolicyGate

open ListUpdate

variable {α : Type}

namespace Log

variable {l l' l'' : Log α} {offset : Nat} {entry : Entry α}

/-- What may become of a log. -/
structure Grown (l l' : Log α) : Prop where
  entries : l.entries <+: l'.entries
  closed : l.isClosed → l'.isClosed
  version : l.version ≤ l'.version

theorem getElem?_readFrom (l : Log α) (start : Int) (n : Nat) :
    (l.readFrom start)[n]? = l.read (start.toNat + n) :=
  List.getElem?_drop ..

/-- Reading at an offset finds the entry that was given this offset. -/
theorem read_eq_some_iff : l.read offset = some entry ↔
    l.envelopes[offset]? = some entry.envelope ∧ entry.offset = offset := by
  rw [read_eq_map, Option.map_eq_some_iff]
  constructor
  · rintro ⟨e, he, rfl⟩
    exact ⟨he, rfl⟩
  · rintro ⟨he, rfl⟩
    exact ⟨_, he, rfl⟩

theorem read_congr (h : l'.envelopes = l.envelopes) (offset : Nat) :
    l'.read offset = l.read offset := by
  rw [read_eq_map, read_eq_map, h]

theorem mem_readFrom {start : Int} (h : l.read offset = some entry) (hs : start ≤ offset) :
    entry ∈ l.readFrom start := by
  refine List.mem_of_getElem? (i := offset - start.toNat) ?_
  rw [getElem?_readFrom, Nat.add_sub_cancel' (Int.toNat_le.2 hs), h]

namespace Grown

theorem refl (l : Log α) : l.Grown l := ⟨List.prefix_rfl, id, Nat.le_refl _⟩

theorem trans (H : l.Grown l') (H' : l'.Grown l'') : l.Grown l'' :=
  ⟨H.entries.trans H'.entries, H'.closed ∘ H.closed, Nat.le_trans H.version H'.version⟩

theorem append (l : Log α) (envelope : Envelope α) : l.Grown (l.append envelope) :=
  ⟨List.prefix_append .., id, Nat.le_refl _⟩

theorem signal (l : Log α) (end_ : Nat) : l.Grown (l.signal end_) :=
  ⟨List.prefix_rfl, id, Nat.le_succ _⟩

theorem markClosed (l : Log α) : l.Grown l.markClosed :=
  ⟨List.prefix_rfl, fun _ => rfl, Nat.le_refl _⟩

theorem read (H : l.Grown l') (h : l.read offset = some entry) : l'.read offset = some entry :=
  getElem?_mono H.entries h

theorem readFrom (H : l.Grown l') (start : Int) : l.readFrom start <+: l'.readFrom start := by
  rw [List.prefix_iff_getElem?]
  intro n hn
  have hread := List.getElem?_eq_getElem hn
  rw [getElem?_readFrom] at hread ⊢
  exact H.read hread

end Grown

end Log

namespace PublisherPhase

variable {p p' : PublisherPhase α} {l l' : Log α} {e : Envelope α}

/-- What a step of a publisher does. -/
inductive Stepped (l : Log α) : PublisherPhase α → PublisherPhase α → Log α → Prop
  | checked {envelope} : l.isClosed = false → Stepped l (checking envelope) (appending envelope) l
  | refused {envelope} : l.isClosed = true →
    Stepped l (checking envelope) (.refused l.closedError) l
  | appended {envelope} :
    Stepped l (appending envelope) (signalling l.endOffset) (l.append envelope)
  | signalled {offset} :
    Stepped l (signalling offset) (published offset) (l.signal (offset + 1))

theorem stepped (h : p.step l = some (p', l')) : Stepped l p p' l' := by
  cases p with
  | checking e =>
    cases hc : l.isClosed with
    | true =>
      simp only [step, hc] at h
      cases h
      exact .refused hc
    | false =>
      simp only [step, hc] at h
      cases h
      exact .checked hc
  | appending =>
    cases h
    exact .appended
  | signalling =>
    cases h
    exact .signalled
  | published | refused => cases h

theorem Stepped.grown (H : Stepped l p p' l') : l.Grown l' := by
  cases H with
  | checked | refused => exact .refl _
  | appended => exact .append ..
  | signalled => exact .signal ..

/-- A publisher still has its envelope, or has placed it at its offset, or was refused. -/
def Keeps (e : Envelope α) (l : Log α) : PublisherPhase α → Prop
  | checking e' => e' = e
  | appending e' => e' = e
  | signalling offset => l.read offset = some ⟨offset, e⟩
  | published offset => l.read offset = some ⟨offset, e⟩
  | refused _ => True

theorem Keeps.grow (H : p.Keeps e l) (h : l.Grown l') : p.Keeps e l' := by
  cases p with
  | signalling | published => exact h.read H
  | checking | appending | refused => exact H

theorem Keeps.step (H : p.Keeps e l) (h : Stepped l p p' l') : p'.Keeps e l' := by
  cases h with
  | checked => exact H
  | refused => trivial
  | appended =>
    cases H
    exact l.read_append_end e
  | signalled => exact H

end PublisherPhase

namespace CloserPhase

variable {c c' : CloserPhase} {l l' : Log α}

/-- What a step of a closer does. -/
inductive Stepped (l : Log α) : CloserPhase → CloserPhase → Log α → Prop
  | marked : Stepped l closing signalling l.markClosed
  | signalled : Stepped l signalling closed l.signalAgain

theorem stepped (h : c.step l = some (c', l')) : Stepped l c c' l' := by
  cases c <;> cases h
  · exact .marked
  · exact .signalled

theorem Stepped.grown (H : Stepped l c c' l') : l.Grown l' := by
  cases H with
  | marked => exact .markClosed _
  | signalled => exact .signal ..

end CloserPhase

namespace ReaderTask

variable {r r' : ReaderTask α} {l l' : Log α}

/-- What a step of a reader does. -/
inductive Stepped (l : Log α) : ReaderTask α → ReaderTask α → Prop
  | looked {start reader yielded} : Stepped l ⟨start, reader, .looking, yielded⟩
      ⟨start, reader.look l, .reading, yielded⟩
  | yielded {start reader yielded entry} : l.read reader.position = some entry →
    Stepped l ⟨start, reader, .reading, yielded⟩
      ⟨start, ⟨reader.position + 1, reader.seen⟩, .looking, yielded ++ [entry]⟩
  | missed {start reader yielded} : l.read reader.position = none →
    Stepped l ⟨start, reader, .reading, yielded⟩ ⟨start, reader, .checking, yielded⟩
  | ended {start reader yielded} : l.isClosed = true →
    Stepped l ⟨start, reader, .checking, yielded⟩ ⟨start, reader, .ended, yielded⟩
  | parked {start reader yielded} : l.isClosed = false →
    Stepped l ⟨start, reader, .checking, yielded⟩ ⟨start, reader, .waiting, yielded⟩
  | woken {start reader yielded} : reader.hasNews l →
    Stepped l ⟨start, reader, .waiting, yielded⟩ ⟨start, reader, .looking, yielded⟩

theorem stepped (h : r.step l = some r') : Stepped l r r' := by
  obtain ⟨start, reader, phase, yielded⟩ := r
  cases phase with
  | looking =>
    cases h
    exact .looked
  | reading =>
    simp only [step] at h
    split at h <;> cases h
    · next hread => exact .yielded hread
    · next hread => exact .missed hread
  | checking =>
    cases hc : l.isClosed with
    | true =>
      simp only [step, hc] at h
      cases h
      exact .ended hc
    | false =>
      simp only [step, hc] at h
      cases h
      exact .parked hc
  | waiting =>
    simp only [step] at h
    split at h
    · next hnews =>
      cases h
      exact .woken hnews
    · cases h
  | ended => cases h

/-- A reader has got the first entries from its start on, and stands behind them. -/
structure Follows (l : Log α) (r : ReaderTask α) : Prop where
  position : r.reader.position = r.start.toNat + r.yielded.length
  yielded : r.yielded <+: l.readFrom r.start

namespace Follows

theorem new (l : Log α) (start : Int) : (new l start).Follows l := ⟨rfl, List.nil_prefix⟩

theorem grow (H : r.Follows l) (h : l.Grown l') : r.Follows l' :=
  ⟨H.position, H.yielded.trans (h.readFrom _)⟩

/-- A reader goes on to follow the log, whatever step it takes. -/
theorem step (H : r.Follows l) (h : Stepped l r r') : r'.Follows l := by
  cases h with
  | looked | missed | ended | parked | woken => exact ⟨H.position, H.yielded⟩
  | @yielded start reader yielded entry hread =>
    have hposition : reader.position = start.toNat + yielded.length := H.position
    have hnext : (l.readFrom start)[yielded.length]? = some entry := by
      rw [l.getElem?_readFrom, ← hposition, hread]
    refine ⟨?_, ?_⟩
    · simp only [hposition, List.length_append, List.length_singleton, Nat.add_assoc]
    · have htaken : yielded = (l.readFrom start).take yielded.length :=
        List.prefix_iff_eq_take.1 H.yielded
      have hmore : yielded ++ [entry] = (l.readFrom start).take (yielded.length + 1) := by
        rw [List.take_add_one, ← htaken, hnext, Option.toList_some]
      exact hmore ▸ List.take_prefix ..

/-- A reader that finds nothing at its place has got all there is. -/
theorem eq_readFrom (H : r.Follows l) (h : l.read r.reader.position = none) :
    r.yielded = l.readFrom r.start := by
  refine H.yielded.eq_of_length_le ?_
  rw [H.position, ← l.getElem?_readFrom] at h
  exact List.getElem?_eq_none_iff.1 h

end Follows

end ReaderTask

namespace Traffic

variable {t t' t'' : Traffic α} {e : Event α} {r r' : ReaderTask α} {name : String} {place : Nat}

/-- What it means that something happened on a topic. -/
inductive Stepped (t : Traffic α) : Event α → Traffic α → Prop
  | publish {envelope} :
    Stepped t (.publish envelope) { t with publishers := t.publishers ++ [.checking envelope] }
  | close : Stepped t .close { t with closers := t.closers ++ [.closing] }
  | attach {start} : Stepped t (.attach start) { t with readers := t.readers ++ [.new t.log start] }
  | publisher {n p p' log} : t.publishers[n]? = some p → PublisherPhase.Stepped t.log p p' log →
    Stepped t (.publisher n) { t with log, publishers := t.publishers.set n p' }
  | closer {n c c' log} : t.closers[n]? = some c → CloserPhase.Stepped t.log c c' log →
    Stepped t (.closer n) { t with log, closers := t.closers.set n c' }
  | reader {n task task'} : t.readers[n]? = some task → ReaderTask.Stepped t.log task task' →
    Stepped t (.reader n) { t with readers := t.readers.set n task' }

theorem stepped (h : t.step e = some t') : t.Stepped e t' := by
  cases e with
  | publish =>
    cases h
    exact .publish
  | close =>
    cases h
    exact .close
  | attach =>
    cases h
    exact .attach
  | publisher =>
    obtain ⟨p, hp, h⟩ := Option.bind_eq_some_iff.1 h
    obtain ⟨⟨p', log⟩, hs, h⟩ := Option.bind_eq_some_iff.1 h
    cases h
    exact .publisher hp (PublisherPhase.stepped hs)
  | closer =>
    obtain ⟨c, hc, h⟩ := Option.bind_eq_some_iff.1 h
    obtain ⟨⟨c', log⟩, hs, h⟩ := Option.bind_eq_some_iff.1 h
    cases h
    exact .closer hc (CloserPhase.stepped hs)
  | reader =>
    obtain ⟨r, hr, h⟩ := Option.bind_eq_some_iff.1 h
    obtain ⟨r', hs, h⟩ := Option.bind_eq_some_iff.1 h
    cases h
    exact .reader hr (ReaderTask.stepped hs)

/-- What a topic may become in time. -/
inductive Later (t : Traffic α) : Traffic α → Prop
  | refl : Later t t
  | step {u u' event} : Later t u → u.step event = some u' → Later t u'

theorem Later.run {l : List (Event α)} (h : l.foldlM Traffic.step t = some t') : t.Later t' := by
  have hrun := exists_of_foldlM (R := t.Later) (f := id) .refl (by rw [h]; rfl)
    fun _ _ _ _ hl hs => hl.step hs
  obtain ⟨_, hl, rfl⟩ := hrun
  exact hl

theorem Later.trans (h : t.Later t') (h' : t'.Later t'') : t.Later t'' := by
  induction h' with
  | refl => exact h
  | step _ hs ih => exact ih.step hs

theorem Reachable.later (h : Reachable name t) (hl : t.Later t') : Reachable name t' := by
  induction hl with
  | refl => exact h
  | step _ hs ih => exact ih.step hs

theorem Stepped.grown (H : t.Stepped e t') : t.log.Grown t'.log := by
  cases H with
  | publish | close | attach | reader => exact .refl _
  | publisher _ hs => exact hs.grown
  | closer _ hs => exact hs.grown

theorem Later.grown (h : t.Later t') : t.log.Grown t'.log := by
  induction h with
  | refl => exact .refl _
  | step _ hs ih => exact ih.trans (stepped hs).grown

/-- What holds of all publishers at first, and is kept by growth and by their steps, holds of the
publisher at a place from then on. -/
theorem Later.keeps {p : PublisherPhase α} {envelope : Envelope α} (h : t.Later t')
    (hp : t.publishers[place]? = some p) (hkeeps : p.Keeps envelope t.log) :
    ∃ p', t'.publishers[place]? = some p' ∧ p'.Keeps envelope t'.log := by
  induction h with
  | refl => exact ⟨p, hp, hkeeps⟩
  | step _ hs ih =>
    obtain ⟨p₁, hp₁, hk⟩ := ih
    have hgrown := (stepped hs).grown
    cases stepped hs with
    | publish => exact ⟨p₁, getElem?_mono (List.prefix_append ..) hp₁, hk⟩
    | close | attach | reader | closer => exact ⟨p₁, hp₁, hk.grow hgrown⟩
    | @publisher n p₂ p₃ log hp₂ hps =>
      by_cases hplace : n = place
      · subst hplace
        cases hp₁.symm.trans hp₂
        exact ⟨_, getElem?_set_of_some hp₂ _, hk.step hps⟩
      · exact ⟨p₁, by rw [List.getElem?_set_ne hplace, hp₁], hk.grow hgrown⟩

/-- Something has happened that is still to be signalled. -/
def IsSignalling (t : Traffic α) : Prop :=
  (∃ offset, .signalling offset ∈ t.publishers) ∨ .signalling ∈ t.closers

/-- What happens to the log is signalled, or is about to be. -/
theorem Stepped.signals (H : t.Stepped e t') : t.log.version < t'.log.version ∨ t'.IsSignalling ∨
    (t'.log = t.log ∧ ¬ t.IsSignalling) := by
  by_cases hs : t'.IsSignalling
  · exact .inr (.inl hs)
  cases H with
  | publish =>
    exact .inr (.inr ⟨rfl, fun h => hs (h.imp (.imp fun _ => List.mem_append_left _) id)⟩)
  | close => exact .inr (.inr ⟨rfl, fun h => hs (h.imp id (List.mem_append_left _))⟩)
  | attach | reader => exact .inr (.inr ⟨rfl, hs⟩)
  | publisher hp hps =>
    cases hps with
    | checked | refused =>
      exact .inr (.inr ⟨rfl, fun h => hs (h.imp (.imp fun _ hm => mem_set_of_ne hp hm nofun) id)⟩)
    | appended => exact absurd (.inl ⟨_, List.mem_of_getElem? (getElem?_set_of_some hp _)⟩) hs
    | signalled => exact .inl (Nat.lt_succ_self _)
  | closer hc hcs =>
    cases hcs with
    | marked => exact absurd (.inr (List.mem_of_getElem? (getElem?_set_of_some hc _))) hs
    | signalled => exact .inl (Nat.lt_succ_self _)

/-- There is news for a reader, or there soon will be. -/
def Stirs (t : Traffic α) (r : Reader) : Prop := r.seen < t.log.version ∨ t.IsSignalling

/-- What a reader knows of the log remains true until there is news. -/
theorem Stepped.stirs {r : Reader} {P : Log α → Prop} (H : t.Stepped e t')
    (hseen : r.seen ≤ t.log.version) (h : t.Stirs r ∨ P t.log) : t'.Stirs r ∨ P t'.log := by
  rcases H.signals with hv | hs | ⟨hlog, hn⟩
  · exact .inl (.inl (Nat.lt_of_le_of_lt hseen hv))
  · exact .inl (.inr hs)
  · rw [Stirs, hlog]
    exact h.imp (fun hr => .inl (hr.resolve_right hn)) id

/-- A reader that has found nothing hears of what has come since. -/
structure Hears (t : Traffic α) (r : ReaderTask α) : Prop where
  seen : r.reader.seen ≤ t.log.version
  checking : r.phase = .checking → t.Stirs r.reader ∨ t.log.read r.reader.position = none
  waiting : r.phase = .waiting →
    t.Stirs r.reader ∨ (t.log.read r.reader.position = none ∧ t.log.isClosed = false)

namespace Hears

theorem new (t : Traffic α) (start : Int) : t.Hears (.new t.log start) :=
  ⟨Nat.le_refl _, nofun, nofun⟩

theorem keep (H : t.Hears r) (h : t.Stepped e t') : t'.Hears r where
  seen := Nat.le_trans H.seen h.grown.version
  checking hp := h.stirs (P := fun l => l.read r.reader.position = none) H.seen (H.checking hp)
  waiting hp := h.stirs (P := fun l => l.read r.reader.position = none ∧ l.isClosed = false) H.seen
    (H.waiting hp)

theorem step (H : t.Hears r) (h : ReaderTask.Stepped t.log r r') : t.Hears r' := by
  cases h with
  | looked => exact ⟨Nat.le_refl _, nofun, nofun⟩
  | yielded | ended | woken => exact ⟨H.seen, nofun, nofun⟩
  | missed hread => exact ⟨H.seen, fun _ => .inr hread, nofun⟩
  | parked hc => exact ⟨H.seen, nofun, fun _ => (H.checking rfl).imp id (⟨·, hc⟩)⟩

end Hears

/-- What holds of every reader at first, and is kept by the steps of others and its own, holds of
every reader at any time. -/
theorem Reachable.readers {P : Traffic α → ReaderTask α → Prop} (h : Reachable name t)
    (hnew : ∀ t start, P t (.new t.log start))
    (hkeep : ∀ {t t' e r}, P t r → t.step e = some t' → P t' r)
    (hstep : ∀ {t r r'}, Reachable name t → r ∈ t.readers → P t r →
      ReaderTask.Stepped t.log r r' → P t r') : ∀ r ∈ t.readers, P t r := by
  induction h with
  | start => nofun
  | @step u u' e hu hs ih =>
    intro r hr
    by_cases hold : r ∈ u.readers
    · exact hkeep (ih r hold) hs
    refine hkeep ?_ hs
    cases stepped hs with
    | publish | close | publisher | closer => exact absurd hr hold
    | attach =>
      rcases List.mem_append.1 hr with hr | hr
      · exact absurd hr hold
      · cases List.mem_singleton.1 hr
        exact hnew u _
    | reader hr₁ hrs =>
      rcases List.mem_or_eq_of_mem_set hr with hr | rfl
      · exact absurd hr hold
      · have hmem := List.mem_of_getElem? hr₁
        exact hstep hu hmem (ih _ hmem) hrs

theorem Reachable.follows (h : Reachable name t) : ∀ r ∈ t.readers, r.Follows t.log :=
  h.readers (P := fun t r => r.Follows t.log) (fun t => .new t.log)
    (fun H hs => H.grow (stepped hs).grown) fun _ _ H hs => H.step hs

/-- A reader gets the entries from its start on, in the order of the log, and none twice. One that
waits for a version that it has not seen does so because there is nothing to be had: the log has no
entry at its place and is open, unless that is about to be signalled. And what the log once holds
stays where it is, the entry of a publisher at the offset that it was given. -/
theorem readers_follow (h : Reachable name t) :
    (∀ r ∈ t.readers, r.Follows t.log ∧
      (r.phase = .waiting → r.reader.hasNews t.log = false → ¬ t.IsSignalling →
        t.log.read r.reader.position = none ∧ t.log.isClosed = false)) ∧
    ∀ t' : Traffic α, t.Later t' →
      (∀ offset entry, t.log.read offset = some entry →
        entry.offset = offset ∧ t'.log.read offset = some entry) ∧
      ∀ (place : Nat) (p : PublisherPhase α) envelope, t.publishers[place]? = some p →
        p.Keeps envelope t.log →
        ∃ p' : PublisherPhase α, t'.publishers[place]? = some p' ∧ p'.Keeps envelope t'.log := by
  have hhears : ∀ r ∈ t.readers, t.Hears r :=
    h.readers .new (fun H hs => H.keep (stepped hs)) fun _ _ H hs => H.step hs
  refine ⟨fun r hr => ⟨h.follows r hr, fun hw hnews hs => ?_⟩, fun t' hl => ⟨?_, ?_⟩⟩
  · refine ((hhears r hr).waiting hw).resolve_left ?_
    rintro (hlt | hsignalling)
    · simp [Reader.hasNews, Nat.ne_of_lt hlt] at hnews
    · exact hs hsignalling
  · intro offset entry hread
    exact ⟨Log.offset_of_read hread, hl.grown.read hread⟩
  · intro place p envelope hp hkeeps
    exact hl.keeps hp hkeeps

/-- Two publishers have checked before either adds its entry, and the second overtakes the first. A
reader has looked for more when the other entry comes, and goes to sleep; it is woken, and sleeps
again when it has both. -/
theorem readers_follow_overtaken : ∃ t : Traffic Nat, Reachable "numbers" t ∧
    ∃ r ∈ t.readers, r.start = -7 ∧ r.phase = .waiting ∧ r.yielded <+: t.log.readFrom (-7) ∧
      r.yielded.map Entry.offset = [0, 1] ∧ t.log.read 2 = none ∧ t.log.isClosed = false ∧
      .published 1 ∈ t.publishers ∧ t.log.read 1 = some ⟨1, ⟨⟨"t"⟩, .message 1⟩⟩ := by
  let first : Envelope Nat := ⟨⟨"t"⟩, .message 1⟩
  let second : Envelope Nat := ⟨⟨"t"⟩, .message 2⟩
  let u : Traffic Nat := ⟨.new "numbers", [.checking first, .checking second], [],
    [.new (.new "numbers") (-7)]⟩
  let t : Traffic Nat := ⟨⟨"numbers", [⟨0, second⟩, ⟨1, first⟩], false, 2, 1, rfl⟩,
    [.published 1, .published 0], [], [⟨-7, ⟨2, 2⟩, .waiting, [⟨0, second⟩, ⟨1, first⟩]⟩]⟩
  have hu : Reachable "numbers" u := Reachable.start.later
    (.run (l := [.attach (-7), .publish first, .publish second]) rfl)
  have ht : u.Later t := .run (l := List.flatten [
    [.publisher 0, .publisher 1, .publisher 1], List.replicate 4 (.reader 0),
    [.publisher 0, .reader 0, .publisher 0], List.replicate 6 (.reader 0),
    [.publisher 1], List.replicate 4 (.reader 0)]) (by cbv)
  obtain ⟨hreaders, -⟩ := readers_follow (hu.later ht)
  obtain ⟨hfollows, hasleep⟩ := hreaders _ List.mem_cons_self
  have hs : ¬ t.IsSignalling := by simp [IsSignalling, t]
  obtain ⟨hread, hopen⟩ := hasleep rfl rfl hs
  obtain ⟨-, hlater⟩ := readers_follow hu
  obtain ⟨p', hp', hkept⟩ := (hlater t ht).2 0 (.checking first) first rfl rfl
  cases hp'
  exact ⟨t, hu.later ht, _, List.mem_cons_self, rfl, rfl, hfollows.yielded, rfl, hread, hopen,
    List.mem_cons_self, hkept⟩

end Traffic

end PolicyGate
