import PolicyGate.Proofs.Offset.Placement
import PolicyGate.Proofs.Pipeline.Coordination

/-!
Offsets that arrive while requests come in. A writer puts an offset into the store and announces it
afterwards; a worker looks into the store and waits for an announcement afterwards. Main statement:
once the announcement is made and as long as the store keeps the offset, no request for the token
waits in vain (`no_offset_lost`).
-/

namespace PolicyGate

namespace Worker

/-- A worker that has not been given an answer by the store. -/
def isUnread (w : Worker) : Bool :=
  match w.phase with
  | .spawned => true
  | .reading _ => true
  | _ => false

/-- A worker that goes on only when it is told something: the store had no offset for it. -/
def isWaiting (w : Worker) : Bool :=
  match w.phase with
  | .found _ (.ok none) => true
  | .waiting _ => true
  | _ => false

/-- Why those who wait for a worker can go on waiting: it has a command that decides in its mailbox,
it has not read the store, it has read an offset or a failure there and will act on it, or it has
come to an outcome and will answer what is left in its mailbox. -/
inductive Attended (w : Worker) : Prop
  | pushed {offset} : offset.token = w.token → .push offset ∈ w.mailbox → Attended w
  | cancelled {reason} : .cancel reason ∈ w.mailbox → Attended w
  | unread : w.isUnread → Attended w
  | stored {deadline offset} : w.phase = .found deadline (.ok (some offset)) →
    offset.token = w.token → Attended w
  | failed {deadline e} : w.phase = .found deadline (.error e) → Attended w
  | closing {outcome} : w.phase = .closing → w.outcome = some outcome → Attended w

/-- An answer of a store that has an offset of the token. -/
structure Finds (token : Token) (answer : Except StoreError (Option TokenOffset)) : Prop where
  present : answer ≠ .ok none
  token_eq : ∀ offset, answer = .ok (some offset) → offset.token = token

variable {timeout : Duration} {w w' : Worker} {m : WorkerMove} {answers : Answers}

theorem Tidy.isOpen_of_pending {request : Nat} (h : w.Tidy) (hr : request ∈ w.pending) :
    w.isOpen := by
  cases ho : w.isOpen with
  | true => rfl
  | false =>
    rw [h.pending_eq_nil ho] at hr
    cases hr

theorem isOpen_of_isWaiting (h : w.isWaiting) : w.isOpen := by
  unfold isWaiting at h
  unfold isOpen
  split at h <;> simp_all

/-- A worker that waits and is attended has been told something. -/
theorem Attended.told_of_isWaiting (h : w.Attended) (hw : w.isWaiting) :
    (∃ offset, offset.token = w.token ∧ .push offset ∈ w.mailbox) ∨
      ∃ reason, .cancel reason ∈ w.mailbox := by
  cases h with
  | pushed ht hm => exact .inl ⟨_, ht, hm⟩
  | cancelled hm => exact .inr ⟨_, hm⟩
  | unread hu => unfold isUnread at hu; unfold isWaiting at hw; split at hw <;> simp_all
  | stored hp | failed hp | closing hp => simp [isWaiting, hp] at hw

/-- What a worker is told later does not undo that it is attended. -/
theorem Attended.receive (h : w.Attended) (command : WorkerCommand) :
    (w.receive command).Attended := by
  cases h with
  | pushed ht hm => exact .pushed ht (List.mem_append_left _ hm)
  | cancelled hm => exact .cancelled (List.mem_append_left _ hm)
  | unread hu => exact .unread hu
  | stored hp ht => exact .stored hp ht
  | failed hp => exact .failed hp
  | closing hp ho => exact .closing hp ho

/-- As long as the store has an offset of its token, a worker stays attended until it is over. -/
theorem Attended.moved (h : w.Attended) (hm : Moved timeout w m w' answers) (ho : w'.isOpen)
    (hf : ∀ answer, m = .read answer → Finds w.token answer) : w'.Attended := by
  cases hm with
  | begin => exact .unread rfl
  | look hp =>
    rename_i answer
    have hf := hf answer rfl
    match answer with
    | .ok none => exact absurd rfl hf.present
    | .ok (some offset) => exact .stored rfl (hf.token_eq offset rfl)
    | .error e => exact .failed rfl
  | find hp =>
    cases h with
    | pushed ht hm => exact .pushed ht (List.mem_append_left _ hm)
    | cancelled hm => exact .cancelled (List.mem_append_left _ hm)
    | unread hu => simp [isUnread, hp] at hu
    | stored hp' ht =>
      cases hp.symm.trans hp'
      exact .pushed ht (List.mem_append_right _ (List.mem_singleton_self _))
    | failed hp' | closing hp' => cases hp.symm.trans hp'
  | miss hp =>
    rcases h.told_of_isWaiting (by simp [isWaiting, hp]) with ⟨_, ht, hm⟩ | ⟨_, hm⟩
    · exact .pushed ht hm
    · exact .cancelled hm
  | decide => exact .closing rfl rfl
  | join hp hb =>
    have hw := h.told_of_isWaiting (by simp [isWaiting, hp])
    simp only [hb, List.mem_cons, reduceCtorEq, false_or] at hw
    rcases hw with ⟨_, ht, hm⟩ | ⟨_, hm⟩
    · exact .pushed ht hm
    · exact .cancelled hm
  | ignore hp hb hne =>
    have hw := h.told_of_isWaiting (by simp [isWaiting, hp])
    simp only [hb, List.mem_cons, WorkerCommand.push.injEq, reduceCtorEq, false_or] at hw
    rcases hw with ⟨_, ht, rfl | hm⟩ | ⟨_, hm⟩
    · exact absurd ht hne
    · exact .pushed ht hm
    · exact .cancelled hm
  | close | closeUnknown | finish | die => cases ho

end Worker

namespace Coordinator

/-- Every worker of a token that takes commands is attended. -/
def Attends (token : Token) (c : Coordinator) : Prop :=
  ∀ w ∈ c.workers, w.isOpen → w.token = token → w.Attended

variable {c c' : Coordinator} {e : Event} {token : Token}

theorem Attends.moved {place : Nat} {m : WorkerMove} {w w' : Worker} {answers : Answers}
    (H : Attends token c) (hw : c.workers[place]? = some w)
    (hm : Worker.Moved c.timeout w m w' answers)
    (hf : w.token = token → ∀ answer, m = .read answer → Worker.Finds token answer) :
    Attends token (c.moved place m w' answers) := by
  intro v hv ho ht
  rcases List.mem_or_eq_of_mem_set hv with hv | rfl
  · exact H v hv ho ht
  · rw [hm.token_eq] at ht
    exact (H w (List.mem_of_getElem? hw) (hm.isOpen_of_isOpen ho) ht).moved hm ho (ht ▸ hf ht)

theorem Attends.told {place : Nat} {w : Worker} (H : Attends token c)
    (hw : c.workers[place]? = some w) (command : WorkerCommand) :
    Attends token (c.told place w command) := by
  intro v hv ho ht
  rcases List.mem_or_eq_of_mem_set hv with hv | rfl
  · exact H v hv ho ht
  · exact (H w (List.mem_of_getElem? hw) ho ht).receive command

theorem Attends.routed (H : Attends token c) (h : Routed e c c') : Attends token c' := by
  cases h with
  | join _ _ hw => exact Attends.told (c := c.enter _) H hw _
  | spawn =>
    intro v hv ho ht
    rcases List.mem_append.1 hv with hv | hv
    · exact H v hv ho ht
    · cases List.mem_singleton.1 hv
      exact .unread rfl
  | tell _ hw => exact H.told hw _
  | reap => exact H

/-- As long as the store has an offset of the token, every step keeps its workers attended. -/
theorem Attends.step (H : Attends token c) (h : c.step e = some c')
    (hf : ∀ place answer w, e = .read place answer →
      c.workers[place]? = some w → w.token = token → Worker.Finds token answer) :
    Attends token c' := by
  refine keep_of_step h (fun he hw hm H => H.moved hw hm ?_) (fun h H => H.routed h) H
  rintro ht answer rfl
  refine hf _ answer _ ?_ hw ht
  cases e with
  | read => cases he; rfl
  | _ => cases he

/-- A request that was not answered is with a worker of its token. -/
theorem Placement.with_worker (H : Placement c) {request : Nat}
    (hr : c.requests[request]? = some token) (hn : c.answersTo request = []) :
    ∃ w ∈ c.workers, w.token = token ∧ request ∈ w.pending := by
  rcases H.answered_or_pending (List.getElem?_eq_some_iff.1 hr).1 with ha | ⟨g, w, hw, hp⟩
  · obtain ⟨⟨_, reply⟩, hmem, rfl⟩ := List.mem_map.1 ha
    have he := H.answersTo_eq hmem
    rw [hn] at he
    cases he
  · exact ⟨w, List.mem_of_getElem? hw, Option.some.inj ((H.asked hw hp).symm.trans hr), hp⟩

/-- The announcement of an offset finds the worker of its token, if there is one that takes
commands. -/
theorem attends_available (hm : Mapping c) (offset : TokenOffset) :
    Attends offset.token (c.available offset).1 := by
  unfold available tell
  split
  · next h =>
    obtain ⟨handle, hk, hs⟩ := Option.bind_eq_some_iff.1 h
    obtain ⟨w, hw, -, rfl⟩ := send_eq_some hs
    obtain ⟨u, hu, htok, -⟩ := hm.entry hk
    cases hw.symm.trans hu
    intro v hv ho ht
    obtain ⟨g, hv⟩ := List.mem_iff_getElem?.1 hv
    rcases ListUpdate.getElem?_set_cases hv with ⟨-, rfl⟩ | ⟨hne, hv⟩
    · exact .pushed htok.symm (List.mem_append_right _ (List.mem_singleton_self _))
    · -- a token has one worker that takes commands
      have := hm.live hv ho
      rw [ht, hk] at this
      cases this
      exact absurd rfl hne
  · next h =>
    intro v hv ho ht
    obtain ⟨g, hv⟩ := List.mem_iff_getElem?.1 hv
    have hk := hm.live hv ho
    rw [ht] at hk
    have := send_eq_none (Option.bind_eq_none_iff.1 h _ hk) hv
    rw [ho] at this
    cases this

end Coordinator

namespace Pipeline

/-- The store has an offset of a token: it neither is without one nor has one of another token. -/
def Keeps (token : Token) (p : Pipeline) : Prop := Worker.Finds token (p.lookup token)

theorem Keeps.of_lookup {p : Pipeline} {offset : TokenOffset}
    (h : p.lookup offset.token = .ok (some offset)) : Keeps offset.token p := by
  unfold Keeps
  rw [h]
  exact ⟨nofun, by rintro _ ⟨⟩; rfl⟩

/-- What happens to a pipeline whose store of offsets has other users. -/
inductive SharedStep (p : Pipeline) : Pipeline → Prop
  | own {e q} : p.step e = some q → SharedStep p q
  | store (offsets : Store) : SharedStep p { p with offsets }

/-- How far a writer is that stores an offset and announces it. -/
inductive WriterPhase where
  | preparing
  | stored
  | announced
  deriving DecidableEq

/-- A run in which a writer, be it the offset stage or another one, puts an offset into the store
and announces it afterwards. From the first on, the store has an offset of the token. -/
inductive Writing (offset : TokenOffset) : WriterPhase → Pipeline → Prop
  | begin {p timeout} : p.coordinator = .new timeout → Writing offset .preparing p
  | step {phase p q} : Writing offset phase p → SharedStep p q →
    (phase ≠ .preparing → Keeps offset.token q) → Writing offset phase q
  | store {p q offsets} (ttl : Option Duration) : Writing offset .preparing p →
    p.offsets.put TokenOffset.recordType p.now offset.token.text offset ttl = .ok offsets →
    SharedStep p q → q.offsets = offsets → Keeps offset.token q → Writing offset .stored q
  | announce {p q} : Writing offset .stored p → SharedStep p q →
    q.coordinator = (p.coordinator.available offset).1 → Keeps offset.token q →
    Writing offset .announced q

variable {p q : Pipeline}

theorem coordinator_of_sharedStep (h : SharedStep p q) : q.coordinator = p.coordinator ∨
    ∃ e ce, Drives p e ce ∧ p.coordinator.step ce = some q.coordinator := by
  cases h with
  | own h => exact (coordinator_of_step h).imp_right fun ⟨ce, hd, hc⟩ => ⟨_, ce, hd, hc⟩
  | store => exact .inl rfl

theorem sound_sharedStep (h : SharedStep p q)
    (H : Coordinator.Mapping p.coordinator ∧ Coordinator.Placement p.coordinator) :
    Coordinator.Mapping q.coordinator ∧ Coordinator.Placement q.coordinator := by
  rcases coordinator_of_sharedStep h with hc | ⟨_, _, _, hc⟩
  · exact hc ▸ H
  · exact Coordinator.sound_step H.1 H.2 hc

theorem attends_sharedStep {token : Token} (h : SharedStep p q) (hk : Keeps token p)
    (H : p.coordinator.Attends token) : q.coordinator.Attends token := by
  rcases coordinator_of_sharedStep h with hc | ⟨_, _, hd, hc⟩
  · exact hc ▸ H
  · refine H.step hc ?_
    rintro place answer w rfl hw ht
    cases hd with
    | command he => exact absurd he Event.command?_ne_read
    | lookup hv =>
      cases hw.symm.trans hv
      exact ht ▸ hk
    | fail => exact ⟨nofun, nofun⟩

/-- From the write on the store keeps the offset, and from the announcement on all workers are
attended. -/
theorem sound_writing {offset : TokenOffset} {phase : WriterPhase} (h : Writing offset phase p) :
    (Coordinator.Mapping p.coordinator ∧ Coordinator.Placement p.coordinator) ∧
    (phase ≠ .preparing → Keeps offset.token p) ∧
    (phase = .announced → p.coordinator.Attends offset.token) := by
  induction h with
  | begin hc =>
    rw [hc]
    exact ⟨⟨Coordinator.mapping_new _, Coordinator.placement_new _⟩, nofun, nofun⟩
  | step _ hs hk ih =>
    refine ⟨sound_sharedStep hs ih.1, hk, ?_⟩
    rintro rfl
    exact attends_sharedStep hs (ih.2.1 nofun) (ih.2.2 rfl)
  | store _ _ _ hs _ hk ih => exact ⟨sound_sharedStep hs ih.1, fun _ => hk, nofun⟩
  | announce _ hs hc hk ih =>
    refine ⟨sound_sharedStep hs ih.1, fun _ => hk, fun _ => ?_⟩
    rw [hc]
    exact Coordinator.attends_available ih.1.1 offset

/-- Once an offset that the store keeps was announced, every unanswered request for its token is
with a worker that is attended. So no worker of the token waits with an empty mailbox, and when all
workers have acted on what they read and handled what they were told, all requests for the token
have been answered. -/
theorem no_offset_lost {offset : TokenOffset} (h : Writing offset .announced p) :
    (∀ request, p.coordinator.requests[request]? = some offset.token →
      p.coordinator.answersTo request = [] →
      ∃ w ∈ p.coordinator.workers, w.token = offset.token ∧ request ∈ w.pending ∧ w.Attended) ∧
    (∀ w ∈ p.coordinator.workers, w.token = offset.token → w.isWaiting → w.mailbox ≠ []) ∧
    ((∀ w ∈ p.coordinator.workers, w.mailbox = [] ∧ (w.isWaiting ∨ w.hasTerminated)) →
      ∀ request, p.coordinator.requests[request]? = some offset.token →
        p.coordinator.answersTo request ≠ []) := by
  obtain ⟨⟨-, H⟩, -, ha⟩ := sound_writing h
  have hwaits : ∀ w ∈ p.coordinator.workers, w.token = offset.token → w.isWaiting →
      w.mailbox ≠ [] := by
    intro w hw ht hwait hnil
    have := (ha rfl w hw (Worker.isOpen_of_isWaiting hwait) ht).told_of_isWaiting hwait
    simp [hnil] at this
  refine ⟨fun request hr hn => ?_, hwaits, fun hq request hr hn => ?_⟩ <;>
    obtain ⟨w, hw, ht, hp⟩ := H.with_worker hr hn
  · exact ⟨w, hw, ht, hp, ha rfl w hw ((H.tidy w hw).isOpen_of_pending hp) ht⟩
  · obtain ⟨hnil, hwait | hend⟩ := hq w hw
    · exact hwaits w hw ht hwait hnil
    · simp [Worker.pending, (H.tidy w hw).subscribers hend, hnil] at hp

/-- The worker has found nothing when the offset stage stores the offset, and is told of it. -/
theorem no_offset_lost_stored_late : ∃ p, Writing ⟨⟨"t"⟩, 3⟩ .announced p ∧
    p.coordinator.requests[0]? = some ⟨"t"⟩ ∧ p.coordinator.answersTo 0 = [] ∧
    ∃ w ∈ p.coordinator.workers, w.isWaiting ∧ 0 ∈ w.pending ∧ w.Attended := by
  have h : Writing ⟨⟨"t"⟩, 3⟩ .preparing
      { new ⟨.builtins, .start, ⟨1000⟩, "host", default⟩ .silent .empty (.memory .empty)
          (.memory .empty) ⟨1000⟩ with
        index := some ⟨⟨1, 0⟩, .busy ⟨"t"⟩ (.recording ⟨⟨"t"⟩, 3⟩)⟩ } :=
    .begin (rfl : _ = Coordinator.new ⟨1000⟩)
  have h₁ := h.step (.own (e := .ask ⟨"t"⟩) rfl) nofun
  have h₂ := h₁.step (.own (e := .workerStart 0) rfl) nofun
  have h₃ := h₂.step (.own (e := .workerLookup 0 none) rfl) nofun
  have h₄ := Writing.store none h₃ rfl (.own (e := .index none) rfl) rfl (.of_lookup rfl)
  have h₅ := h₄.announce (.own (e := .index none) rfl) rfl (.of_lookup rfl)
  have h₆ := h₅.step (.own (e := .workerResolve 0) rfl) fun _ => .of_lookup rfl
  obtain ⟨w, hw, -, hp, ha⟩ := (no_offset_lost h₆).1 0 rfl rfl
  refine ⟨_, h₆, rfl, rfl, w, hw, ?_, hp, ha⟩
  cases List.mem_singleton.1 hw
  rfl

end Pipeline

end PolicyGate
