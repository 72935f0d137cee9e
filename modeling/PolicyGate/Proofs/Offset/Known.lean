import PolicyGate.Proofs.Offset.Placement

/-!
What is known of the offsets that clients are given. If something is true of every offset that the
store answers and of every offset that is announced, it is true of all that workers hold for their
own token, and of all that clients were told. Main statement: every step keeps this up
(`Knows.step`), and the offset in an answer is one of the token that was asked for.
-/

namespace PolicyGate

variable {K K' : TokenOffset → Prop}

/-- What a worker holds for its own token is known, be it found, pushed or its outcome. -/
structure Worker.Knows (K : TokenOffset → Prop) (w : Worker) : Prop where
  found : ∀ deadline o, w.phase = .found deadline (.ok (some o)) → o.token = w.token → K o
  pushed : ∀ o, .push o ∈ w.mailbox → o.token = w.token → K o
  outcome : ∀ o, w.outcome = some (.ok o) → o.token = w.token ∧ K o

namespace Worker

variable {timeout : Duration} {w w' : Worker} {m : WorkerMove} {answers : Answers}

theorem knows_new (token : Token) (generation request : Nat) :
    (new token generation request).Knows K := ⟨nofun, nofun, nofun⟩

theorem Decides.subset {rest : List WorkerCommand} {outcome : OffsetReply}
    (h : w.Decides timeout m rest outcome) : rest ⊆ w.mailbox := by
  cases h with
  | failed | late | cutOff => exact fun _ h => h
  | pushed _ hm | cancelled _ hm => exact hm ▸ List.subset_cons_self _ _

/-- An offset that is answered is the outcome of the worker. -/
theorem Moved.outcome_of_ok {r : Nat} {o : TokenOffset} (h : Moved timeout w m w' answers)
    (ha : (r, .ok o) ∈ answers) : r ∈ w.pending ∧ w'.outcome = some (.ok o) := by
  refine ⟨h.pending.subset (List.mem_append_left _ (List.mem_map.2 ⟨_, ha, rfl⟩)), ?_⟩
  cases h with
  | begin | look | find | miss | join | ignore | closeUnknown => cases ha
  | decide =>
    obtain ⟨_, _, he⟩ := List.mem_map.1 ha
    cases he
    rfl
  | close _ ho =>
    obtain ⟨_, _, he⟩ := List.mem_map.1 ha
    cases he
    exact ho
  | finish | die =>
    obtain ⟨_, _, he⟩ := List.mem_map.1 ha
    cases he

namespace Knows

theorem mono (H : w.Knows K) (h : ∀ o, K o → K' o) : w.Knows K' where
  found deadline o hp ht := h o (H.found deadline o hp ht)
  pushed o hm ht := h o (H.pushed o hm ht)
  outcome o ho := (H.outcome o ho).imp_right (h o)

theorem receive {command : WorkerCommand} (H : w.Knows K)
    (h : ∀ o, command = .push o → o.token = w.token → K o) : (w.receive command).Knows K where
  found := H.found
  pushed o hm ht := by
    rcases List.mem_append.1 hm with hm | hm
    · exact H.pushed o hm ht
    · exact h o (List.mem_singleton.1 hm).symm ht
  outcome := H.outcome

/-- A worker learns nothing from a step but what its store finds. -/
theorem moved (H : w.Knows K) (h : Moved timeout w m w' answers)
    (hr : ∀ o, m = .read (.ok (some o)) → o.token = w.token → K o) : w'.Knows K := by
  cases h with
  | begin | miss | closeUnknown => exact ⟨by simp, H.pushed, H.outcome⟩
  | look =>
    refine ⟨?_, H.pushed, H.outcome⟩
    rintro _ o ⟨⟩ ht
    exact hr o rfl ht
  | find hp =>
    refine ⟨by simp, fun o hm ht => ?_, H.outcome⟩
    rcases List.mem_append.1 hm with hm | hm
    · exact H.pushed o hm ht
    · cases List.mem_singleton.1 hm
      exact H.found _ _ hp ht
  | decide hd =>
    -- an offset that decides was in the mailbox and is one of the token of the worker
    refine ⟨by simp, fun o hm => H.pushed o (hd.subset hm), ?_⟩
    rintro o ⟨⟩
    cases hd with
    | pushed _ hm ht => exact ⟨ht, H.pushed o (hm ▸ List.mem_cons_self) ht⟩
  | join _ hm | ignore _ hm =>
    exact ⟨H.found, fun o ho => H.pushed o (hm ▸ List.mem_cons_of_mem _ ho), H.outcome⟩
  | close => exact ⟨by simp, by simp, H.outcome⟩
  | finish | die => exact ⟨nofun, nofun, H.outcome⟩

end Knows

end Worker

namespace Coordinator

/-- What the workers hold is known, and so is every offset that was answered: it is one of the token
that was asked for. -/
structure Knows (K : TokenOffset → Prop) (c : Coordinator) : Prop where
  workers : ∀ w ∈ c.workers, w.Knows K
  answers : ∀ r o, (r, .ok o) ∈ c.answers → c.requests[r]? = some o.token ∧ K o

variable {c c' : Coordinator} {e : Event}

/-- Requests keep their numbers. -/
theorem requests_mono (h : c.step e = some c') : c.requests <+: c'.requests := by
  refine keep_of_step (P := fun d => c.requests <+: d.requests) h
    (fun _ _ _ h => h) (fun hd h => h.trans ?_) List.prefix_rfl
  cases hd with
  | join | spawn => exact List.prefix_append _ _
  | tell | reap => exact List.prefix_rfl

theorem knows_new (timeout : Duration) : (new timeout).Knows K := ⟨nofun, nofun⟩

namespace Knows

theorem mono (H : c.Knows K) (h : ∀ o, K o → K' o) : c.Knows K' where
  workers w hw := (H.workers w hw).mono h
  answers r o ha := (H.answers r o ha).imp_right (h o)

/-- A step of a worker adds nothing to what is known but what its store finds. -/
theorem moved {place : Nat} {m : WorkerMove} {w w' : Worker} {answers : Answers}
    (H : c.Knows K) (P : Placement c) (hw : c.workers[place]? = some w)
    (hm : Worker.Moved c.timeout w m w' answers)
    (hr : ∀ o, m = .read (.ok (some o)) → o.token = w.token → K o) :
    (c.moved place m w' answers).Knows K := by
  have hk : w'.Knows K := (H.workers w (List.mem_of_getElem? hw)).moved hm hr
  constructor
  · intro v hv
    rcases List.mem_or_eq_of_mem_set hv with hv | rfl
    · exact H.workers v hv
    · exact hk
  · intro r o ha
    rcases List.mem_append.1 ha with ha | ha
    · exact H.answers r o ha
    · obtain ⟨hp, ho⟩ := hm.outcome_of_ok ha
      obtain ⟨ht, hko⟩ := hk.outcome o ho
      exact ⟨by rw [ht, hm.token_eq]; exact P.asked hw hp, hko⟩

theorem enter (H : c.Knows K) (token : Token) : (c.enter token).Knows K where
  workers := H.workers
  answers r o ha := by
    obtain ⟨hr, ho⟩ := H.answers r o ha
    exact ⟨List.getElem?_append_left (List.getElem?_eq_some_iff.1 hr).1 ▸ hr, ho⟩

theorem told {place : Nat} {w : Worker} {command : WorkerCommand} (H : c.Knows K)
    (hw : c.workers[place]? = some w)
    (h : ∀ o, command = .push o → o.token = w.token → K o) :
    (c.told place w command).Knows K where
  workers v hv := by
    rcases List.mem_or_eq_of_mem_set hv with hv | rfl
    · exact H.workers v hv
    · exact (H.workers w (List.mem_of_getElem? hw)).receive h
  answers := H.answers

theorem routed (H : c.Knows K) (h : Routed e c c') (ha : ∀ o, e = .available o → K o) :
    c'.Knows K := by
  cases h with
  | join _ _ hw => exact (H.enter _).told hw nofun
  | spawn =>
    refine ⟨fun v hv => ?_, (H.enter _).answers⟩
    rcases List.mem_append.1 hv with hv | hv
    · exact H.workers v hv
    · cases List.mem_singleton.1 hv
      exact Worker.knows_new ..
  | tell he hw =>
    refine H.told hw fun o hc _ => ?_
    cases he with
    | available => cases hc; exact ha o rfl
    | cancel | shutdown => cases hc
  | reap => exact ⟨H.workers, H.answers⟩

/-- A step brings in only what the store answers a worker about its token, or what is announced. -/
theorem step (H : c.Knows K) (M : Mapping c) (P : Placement c) (h : c.step e = some c')
    (hr : ∀ place w o, e = .read place (.ok (some o)) →
      c.workers[place]? = some w → o.token = w.token → K o)
    (ha : ∀ o, e = .available o → K o) : c'.Knows K := by
  have key : (Mapping c' ∧ Placement c') ∧ c'.Knows K := by
    refine keep_of_step (P := fun c => (Mapping c ∧ Placement c) ∧ c.Knows K) h
      (fun he hw hm ⟨⟨M, P⟩, H⟩ => ⟨⟨M.moved hw hm, P.moved hw hm⟩, H.moved P hw hm ?_⟩)
      (fun hd ⟨⟨M, P⟩, H⟩ => ⟨⟨M.routed hd, P.routed M hd⟩, H.routed hd ha⟩) ⟨⟨M, P⟩, H⟩
    rintro o rfl ht
    refine hr _ _ o ?_ hw ht
    cases e with
    | read => cases he; rfl
    | _ => cases he
  exact key.2

/-- The offset that a client is told is known, and is one of the token that it asked for. -/
theorem of_answerTo? {request : Nat} {o : TokenOffset} (H : c.Knows K)
    (h : c.answerTo? request = some (.ok o)) : c.requests[request]? = some o.token ∧ K o :=
  H.answers request o (mem_of_answerTo? h)

end Knows

end Coordinator

end PolicyGate
