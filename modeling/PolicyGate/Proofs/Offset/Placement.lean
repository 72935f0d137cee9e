import PolicyGate.Proofs.Offset.Mapping

/-!
Where the requests of a coordinator are. A request is handed from the coordinator to a mailbox, from
there to the subscribers of a worker, and from either to the answers. Main statements: at every
moment each request is at one of these places, once (`Placement.step`), and whoever joins a worker
is given its outcome (`request_in_one_place`).
-/

namespace PolicyGate.Coordinator

open ListUpdate

/-- The requests that were answered, once for every answer. -/
def answered (c : Coordinator) : List Nat := c.answers.map Prod.fst

/-- The requests among the subscribers of workers that have not terminated. -/
def held (c : Coordinator) : List Nat :=
  (c.workers.filter fun w => !w.hasTerminated).flatMap Worker.subscribers

/-- The requests in the mailboxes of workers that have not closed them. -/
def queued (c : Coordinator) : List Nat :=
  (c.workers.filter Worker.isOpen).flatMap fun w => WorkerCommand.requests w.mailbox

/-- The worker that a request for a token comes to: the one under the token if it takes commands,
and otherwise the next one. -/
def host (c : Coordinator) (token : Token) : Nat :=
  (((c.mapped.get? token.text).map WorkerHandle.mailbox).filter fun place =>
    (c.workers[place]?).any Worker.isOpen).getD c.workers.length

/-- Each request is answered or with a worker of its token, and all that once. -/
structure Placement (c : Coordinator) : Prop where
  placed : (c.answered ++ c.workers.flatMap Worker.pending).Perm (List.range c.requests.length)
  tidy : ∀ w ∈ c.workers, w.Tidy
  asked : ∀ {place : Nat} {w : Worker} {request : Nat},
    c.workers[place]? = some w → request ∈ w.pending →
    c.requests[request]? = some w.token

/-- The steps of a coordinator in which no worker dies. -/
inductive Run (c : Coordinator) : Coordinator → Prop
  | refl : Run c c
  | step {d d' e} : Run c d → e.isFatal d.timeout = false → d.step e = some d' → Run c d'

variable {c c' d : Coordinator} {e : Event}

theorem placement_new (timeout : Duration) : Placement (.new timeout) where
  placed := .refl _
  tidy _ h := nomatch h
  asked h := by simp [new] at h

namespace Placement

/-- A step of a worker answers requests that were with it, and leaves the others where they are. -/
theorem moved {place : Nat} {m : WorkerMove} {w w' : Worker} {answers : Answers}
    (H : Placement c) (hw : c.workers[place]? = some w)
    (hm : Worker.Moved c.timeout w m w' answers) :
    Placement (c.moved place m w' answers) where
  placed := by
    have hp := flatMap_set_append_perm (f := Worker.pending) hw hm.pending
    simp only [Coordinator.moved, answered, List.map_append, List.append_assoc]
    exact (hp.append_left _).trans H.placed
  tidy v hv := by
    rcases List.mem_or_eq_of_mem_set hv with hv | rfl
    · exact H.tidy v hv
    · exact hm.tidy (H.tidy w (List.mem_of_getElem? hw))
  asked {g v request} hv hr := by
    rcases getElem?_set_cases hv with ⟨-, rfl⟩ | ⟨-, hv⟩
    · rw [hm.token_eq]
      exact H.asked hw (hm.pending.subset (List.mem_append_right _ hr))
    · exact H.asked hv hr

/-- A command that is no request changes the place of none. -/
theorem told {place : Nat} {w : Worker} {command : WorkerCommand} (H : Placement c)
    (hw : c.workers[place]? = some w) (ho : w.isOpen)
    (hc : WorkerCommand.requests [command] = []) : Placement (c.told place w command) where
  placed := by
    have hp : ([] ++ (w.receive command).pending).Perm w.pending := by simp [hc]
    exact ((flatMap_set_append_perm hw hp).append_left _).trans H.placed
  tidy v hv := by
    rcases List.mem_or_eq_of_mem_set hv with hv | rfl
    · exact H.tidy v hv
    · exact (H.tidy w (List.mem_of_getElem? hw)).receive ho command
  asked {g v request} hv hr := by
    rcases getElem?_set_cases hv with ⟨-, rfl⟩ | ⟨-, hv⟩
    · rw [Worker.token_receive]
      exact H.asked hw (by simpa [hc] using hr)
    · exact H.asked hv hr

/-- The number of a new request is put with one worker, or a new one. -/
theorem placed_enter {pending : List Nat} (H : Placement c)
    (h : pending.Perm ([c.requests.length] ++ c.workers.flatMap Worker.pending)) (token : Token) :
    (c.answered ++ pending).Perm (List.range (c.requests ++ [token]).length) := by
  rw [List.length_append, List.length_singleton, List.range_succ]
  calc (c.answered ++ pending).Perm
          (c.answered ++ ([c.requests.length] ++ c.workers.flatMap Worker.pending)) :=
        h.append_left _
    List.Perm _ (c.answered ++ (c.workers.flatMap Worker.pending ++ [c.requests.length])) :=
        List.perm_append_comm.append_left _
    _ = (c.answered ++ c.workers.flatMap Worker.pending) ++ [c.requests.length] :=
        (List.append_assoc ..).symm
    List.Perm _ (List.range c.requests.length ++ [c.requests.length]) := H.placed.append_right _

theorem asked_enter {place : Nat} {w : Worker} {request : Nat} (H : Placement c)
    (hw : c.workers[place]? = some w) (hr : request ∈ w.pending) (token : Token) :
    (c.requests ++ [token])[request]? = some w.token := by
  have h := H.asked hw hr
  rwa [List.getElem?_append_left (List.getElem?_eq_some_iff.1 h).1]

/-- A new request goes to the end of the mailbox of a worker of its token. -/
theorem join {token : Token} {place : Nat} {w : Worker} (H : Placement c)
    (hw : c.workers[place]? = some w) (ho : w.isOpen) (ht : w.token = token) :
    Placement ((c.enter token).told place w (.subscribe c.requests.length)) where
  placed := by
    refine H.placed_enter (flatMap_set_perm_append hw ?_) token
    rw [Worker.pending_receive]
    exact List.perm_append_comm
  tidy v hv := by
    rcases List.mem_or_eq_of_mem_set hv with hv | rfl
    · exact H.tidy v hv
    · exact (H.tidy w (List.mem_of_getElem? hw)).receive ho _
  asked {g v request} hv hr := by
    rcases getElem?_set_cases hv with ⟨-, rfl⟩ | ⟨-, hv⟩
    · rw [Worker.pending_receive, List.mem_append] at hr
      rcases hr with hr | hr
      · exact H.asked_enter hw hr token
      · cases List.mem_singleton.1 hr
        simp [Coordinator.told, Coordinator.enter, ht]
    · exact H.asked_enter hv hr token

/-- A new request gets a worker of its own. -/
theorem spawn (H : Placement c) (token : Token) :
    Placement ((c.enter token).spawn token c.requests.length) where
  placed := by
    refine H.placed_enter ?_ token
    rw [Coordinator.spawn, List.flatMap_append]
    exact List.perm_append_comm
  tidy v hv := by
    rcases List.mem_append.1 hv with hv | hv
    · exact H.tidy v hv
    · cases List.mem_singleton.1 hv
      exact Worker.tidy_new ..
  asked {g v request} hv hr := by
    rcases getElem?_concat_cases hv with hv | ⟨-, rfl⟩
    · exact H.asked_enter hv hr token
    · cases List.mem_singleton.1 hr
      simp [Coordinator.spawn, Coordinator.enter, Worker.new]

/-- A request that is handed on comes to one place. -/
theorem routed (H : Placement c) (hm : Mapping c) (h : Routed e c c') : Placement c' := by
  cases h with
  | join _ hg hw ho =>
    obtain ⟨v, hv, ht, -⟩ := hm.entry hg
    cases hw.symm.trans hv
    exact H.join hw ho ht
  | spawn => exact H.spawn _
  | tell he hw ho => exact H.told hw ho (by cases he <;> rfl)
  | reap => exact ⟨H.placed, H.tidy, H.asked⟩

end Placement

theorem sound_step (hm : Mapping c) (H : Placement c) (h : c.step e = some c') :
    Mapping c' ∧ Placement c' :=
  keep_of_step (P := fun c => Mapping c ∧ Placement c) h
    (fun _ hw h ⟨hm, H⟩ => ⟨hm.moved hw h, H.moved hw h⟩)
    (fun h ⟨hm, H⟩ => ⟨hm.routed h, H.routed hm h⟩) ⟨hm, H⟩

/-! ## What the places hold -/

theorem mem_of_answerTo? {request : Nat} {reply : OffsetReply}
    (h : c.answerTo? request = some reply) :
    (request, reply) ∈ c.answers := by
  have hmem : reply ∈ c.answersTo request := List.mem_of_mem_head? h
  obtain ⟨⟨r, _⟩, ha, rfl⟩ := List.mem_map.1 hmem
  obtain ⟨ha, hr⟩ := List.mem_filter.1 ha
  rwa [← of_decide_eq_true hr]

theorem flatMap_filter {α β : Type} {p : α → Bool} {f : α → List β} {l : List α}
    (h : ∀ a ∈ l, p a = false → f a = []) : (l.filter p).flatMap f = l.flatMap f := by
  induction l with
  | nil => rfl
  | cons a rest ih =>
    have ih := ih fun b hb => h b (List.mem_cons_of_mem _ hb)
    cases hp : p a with
    | true => rw [List.filter_cons_of_pos hp, List.flatMap_cons, List.flatMap_cons, ih]
    | false =>
      rw [List.filter_cons_of_neg (by simp [hp]), List.flatMap_cons, ih,
        h a List.mem_cons_self hp, List.nil_append]

namespace Placement

theorem nodup_answered (H : Placement c) : c.answered.Nodup :=
  (List.nodup_append.1 (H.placed.nodup_iff.2 List.nodup_range)).1

theorem held_eq (H : Placement c) : c.held = c.workers.flatMap Worker.subscribers :=
  flatMap_filter fun w hw ht => (H.tidy w hw).subscribers (by simpa using ht)

theorem queued_eq (H : Placement c) :
    c.queued = c.workers.flatMap fun w => WorkerCommand.requests w.mailbox :=
  flatMap_filter fun w hw ho => by rw [(H.tidy w hw).mailbox ho]; rfl

/-- Answered, held by a worker that has not terminated, or in a mailbox that is not closed. -/
theorem perm_range (H : Placement c) :
    (c.answered ++ c.held ++ c.queued).Perm (List.range c.requests.length) := by
  rw [H.held_eq, H.queued_eq, List.append_assoc]
  exact ((List.flatMap_append_perm c.workers _ _).append_left _).trans H.placed

/-- A request that is with no worker has been answered. -/
theorem answered_or_pending (H : Placement c) {request : Nat} (h : request < c.requests.length) :
    request ∈ c.answered ∨ ∃ (place : Nat) (w : Worker),
      c.workers[place]? = some w ∧ request ∈ w.pending := by
  have hr := H.placed.mem_iff.2 (List.mem_range.2 h)
  rcases List.mem_append.1 hr with hr | hr
  · exact .inl hr
  · obtain ⟨w, hw, hr⟩ := List.mem_flatMap.1 hr
    obtain ⟨place, hw⟩ := List.mem_iff_getElem?.1 hw
    exact .inr ⟨place, w, hw, hr⟩

/-- No request has a second answer. -/
theorem answersTo_eq (H : Placement c) {request : Nat} {reply : OffsetReply}
    (h : (request, reply) ∈ c.answers) : c.answersTo request = [reply] := by
  have hn := H.nodup_answered
  unfold answersTo answered at *
  generalize c.answers = answers at h hn
  induction answers with
  | nil => cases h
  | cons answer rest ih =>
    rw [List.map_cons, List.nodup_cons] at hn
    rcases List.mem_cons.1 h with rfl | h
    · have : rest.filter (fun answer => answer.1 = request) = [] := by
        simp only [List.filter_eq_nil_iff, decide_eq_true_eq]
        exact fun answer ha he => hn.1 (List.mem_map.2 ⟨answer, ha, he⟩)
      simp [this]
    · have hne : answer.1 ≠ request := fun he => hn.1 (he ▸ List.mem_map_of_mem h)
      simpa [hne] using ih h hn.2

end Placement

/-! ## Runs in which no worker dies -/

/-- No request has been lost. -/
structure Unlost (c : Coordinator) : Prop where
  answers : ∀ answer ∈ c.answers, ∀ token, answer.2 ≠ .error (.workerLost token)
  outcomes : ∀ w ∈ c.workers, ∀ token, w.outcome ≠ some (.error (.workerLost token))

/-- A request is with a worker or has been given its outcome. -/
def Serves (place request : Nat) (c : Coordinator) : Prop :=
  ∃ w, c.workers[place]? = some w ∧
    (request ∈ w.pending ∨ ∃ outcome, w.outcome = some outcome ∧ (request, outcome) ∈ c.answers)

/-- A step that nobody dies of loses no request. -/
theorem Unlost.moved {place : Nat} {m : WorkerMove} {w w' : Worker} {answers : Answers}
    (H : Unlost c) (hp : Placement c) (hw : c.workers[place]? = some w)
    (hm : Worker.Moved c.timeout w m w' answers) (hf : m.isFatal c.timeout = false) :
    Unlost (c.moved place m w' answers) := by
  have ht : w.Tidy := hp.tidy w (List.mem_of_getElem? hw)
  have hout : ∀ token, w'.outcome ≠ some (.error (.workerLost token)) := by
    intro token ho
    rcases hm.outcome_cases ho with ho | ⟨_, hd⟩
    · exact H.outcomes w (List.mem_of_getElem? hw) token ho
    · exact hd.ne_workerLost ht token rfl
  constructor
  · intro answer ha token he
    rcases List.mem_append.1 ha with ha | ha
    · exact H.answers answer ha token he
    · exact hout token (he ▸ hm.outcome ht hf answer ha)
  · intro v hv
    rcases List.mem_or_eq_of_mem_set hv with hv | rfl
    · exact H.outcomes v hv
    · exact hout

theorem Unlost.told {place : Nat} {w : Worker} (H : Unlost c)
    (hw : c.workers[place]? = some w) (command : WorkerCommand) :
    Unlost (c.told place w command) where
  answers := H.answers
  outcomes v hv := by
    rcases List.mem_or_eq_of_mem_set hv with hv | rfl
    · exact H.outcomes v hv
    · exact H.outcomes w (List.mem_of_getElem? hw)

theorem Unlost.routed (H : Unlost c) (h : Routed e c c') : Unlost c' := by
  cases h with
  | join _ _ hw => exact Unlost.told (c := c.enter _) ⟨H.answers, H.outcomes⟩ hw _
  | spawn =>
    refine ⟨H.answers, fun v hv => ?_⟩
    rcases List.mem_append.1 hv with hv | hv
    · exact H.outcomes v hv
    · cases List.mem_singleton.1 hv
      exact fun _ => nofun
  | tell _ hw => exact H.told hw _
  | reap => exact ⟨H.answers, H.outcomes⟩

/-- Who serves a request goes on to do so, and answers it with its outcome. -/
theorem Serves.replace {place g request : Nat} {w w' : Worker} {answers : Answers}
    (H : Serves place request c) (hw : c.workers[g]? = some w)
    (workers : c'.workers = c.workers.set g w') (answers_eq : c'.answers = c.answers ++ answers)
    (pending : ∀ r ∈ w.pending, r ∈ w'.pending ∨ r ∈ answers.map Prod.fst)
    (outcome : ∀ answer ∈ answers, w'.outcome = some answer.2)
    (kept : ∀ o, w.outcome = some o → w'.outcome = some o) :
    Serves place request c' := by
  obtain ⟨v, hv, h⟩ := H
  by_cases hg : g = place
  · subst hg
    cases hw.symm.trans hv
    refine ⟨w', by rw [workers, getElem?_set_of_some hw], ?_⟩
    rw [answers_eq]
    rcases h with h | ⟨o, ho, ha⟩
    · rcases pending _ h with h | h
      · exact .inl h
      · obtain ⟨⟨_, o⟩, ha, rfl⟩ := List.mem_map.1 h
        exact .inr ⟨o, outcome _ ha, List.mem_append_right _ ha⟩
    · exact .inr ⟨o, kept o ho, List.mem_append_left _ ha⟩
  · refine ⟨v, by rw [workers, List.getElem?_set_ne hg, hv], ?_⟩
    rw [answers_eq]
    exact h.imp_right fun ⟨o, ho, ha⟩ => ⟨o, ho, List.mem_append_left _ ha⟩

theorem Serves.moved {place g request : Nat} {m : WorkerMove} {w w' : Worker}
    {answers : Answers} (H : Serves place request c) (hp : Placement c)
    (hw : c.workers[g]? = some w) (hm : Worker.Moved c.timeout w m w' answers)
    (hf : m.isFatal c.timeout = false) : Serves place request (c.moved g m w' answers) := by
  have ht : w.Tidy := hp.tidy w (List.mem_of_getElem? hw)
  refine H.replace hw rfl rfl (fun r hr => ?_) (hm.outcome ht hf) fun o ho => hm.outcome_eq ht ho
  exact (List.mem_append.1 (hm.pending.symm.subset hr)).symm

theorem Serves.told {place g request : Nat} {w : Worker} (H : Serves place request c)
    (hw : c.workers[g]? = some w) (command : WorkerCommand) :
    Serves place request (c.told g w command) := by
  refine H.replace hw rfl (List.append_nil _).symm (fun r hr => .inl ?_) nofun fun _ ho => ho
  rw [Worker.pending_receive]
  exact List.mem_append_left _ hr

theorem Serves.routed {place request : Nat} (H : Serves place request c)
    (h : Routed e c c') : Serves place request c' := by
  cases h with
  | join _ _ hw => exact Serves.told (c := c.enter _) H hw _
  | spawn =>
    obtain ⟨w, hw, h⟩ := H
    exact ⟨w, List.getElem?_append_left (List.getElem?_eq_some_iff.1 hw).1 ▸ hw, h⟩
  | tell _ hw => exact H.told hw _
  | reap => exact H

theorem request_of_isOpen {token : Token} {handle : WorkerHandle} {w : Worker}
    (hk : c.mapped.get? token.text = some handle) (hw : c.workers[handle.mailbox]? = some w)
    (ho : w.isOpen) : c.host token = handle.mailbox ∧
      c.request token =
        (c.enter token).told handle.mailbox w (.subscribe c.requests.length) := by
  have hs := send_of_isOpen (c := c.enter token) hw ho (.subscribe c.requests.length)
  rw [request_eq, hk, Option.bind_some, hs]
  exact ⟨by simp [host, hk, Option.filter_some, hw, ho], rfl⟩

/-- Without a worker that takes commands, a request gets a new one. -/
theorem request_of_not_isOpen {token : Token}
    (h : ∀ handle w, c.mapped.get? token.text = some handle →
      c.workers[handle.mailbox]? = some w → w.isOpen = false) : c.host token = c.workers.length ∧
      c.request token = (c.enter token).spawn token c.requests.length := by
  rw [request_eq]
  cases hk : c.mapped.get? token.text with
  | none => exact ⟨by simp [host, hk], rfl⟩
  | some handle =>
    cases hw : c.workers[handle.mailbox]? with
    | none => exact ⟨by simp [host, hk, Option.filter_some, hw], by simp [send, enter, hw]⟩
    | some w =>
      have ho := h handle w hk hw
      exact ⟨by simp [host, hk, Option.filter_some, hw, ho],
        by simp [send, enter, hw, Worker.send, ho]⟩

/-- A request is served by the worker that it comes to. -/
theorem serves_request (c : Coordinator) (token : Token) :
    Serves (c.host token) c.requests.length (c.request token) := by
  by_cases h : ∃ handle w, c.mapped.get? token.text = some handle ∧
      c.workers[handle.mailbox]? = some w ∧ w.isOpen
  · obtain ⟨handle, w, hk, hw, ho⟩ := h
    obtain ⟨hh, hr⟩ := request_of_isOpen hk hw ho
    rw [hh, hr]
    exact ⟨_, getElem?_set_of_some hw _, .inl (by simp)⟩
  · obtain ⟨hh, hr⟩ := request_of_not_isOpen fun handle w hk hw =>
      Bool.eq_false_iff.2 fun ho => h ⟨handle, w, hk, hw, ho⟩
    rw [hh, hr]
    refine ⟨.new token (c.generation + 1) c.requests.length, ?_, .inl List.mem_cons_self⟩
    simp [spawn, enter]

namespace Run

/-- What every change keeps is kept by every run in which no worker dies. -/
theorem keep {P : Coordinator → Prop} (h : Run c c')
    (move : ∀ {d : Coordinator} {place m w w' answers}, d.workers[place]? = some w →
      Worker.Moved d.timeout w m w' answers → m.isFatal d.timeout = false → P d →
      P (d.moved place m w' answers))
    (route : ∀ {e d d'}, Routed e d d' → P d → P d') (hc : P c) : P c' := by
  induction h with
  | refl => exact hc
  | step _ hf hs ih =>
    exact keep_of_step hs (fun he hw hm => move hw hm (Event.isFatal_eq he ▸ hf)) route ih

theorem sound (h : Run c c') (hm : Mapping c) (H : Placement c) : Mapping c' ∧ Placement c' :=
  h.keep (P := fun c => Mapping c ∧ Placement c)
    (fun hw h _ ⟨hm, H⟩ => ⟨hm.moved hw h, H.moved hw h⟩)
    (fun h ⟨hm, H⟩ => ⟨hm.routed h, H.routed hm h⟩) ⟨hm, H⟩

/-- The same, where the places of the requests may be made use of. -/
theorem keep_placed {P : Coordinator → Prop} (h : Run c c') (hm : Mapping c) (hp : Placement c)
    (move : ∀ {d : Coordinator} {place m w w' answers}, Placement d → d.workers[place]? = some w →
      Worker.Moved d.timeout w m w' answers → m.isFatal d.timeout = false → P d →
      P (d.moved place m w' answers))
    (route : ∀ {e d d'}, Routed e d d' → P d → P d') (hc : P c) : P c' := by
  have hkept : (Mapping c' ∧ Placement c') ∧ P c' :=
    h.keep (P := fun c => (Mapping c ∧ Placement c) ∧ P c)
      (fun hw h hf ⟨⟨hm, hp⟩, hc⟩ => ⟨⟨hm.moved hw h, hp.moved hw h⟩, move hp hw h hf hc⟩)
      (fun h ⟨⟨hm, hp⟩, hc⟩ => ⟨⟨hm.routed h, hp.routed hm h⟩, route h hc⟩) ⟨⟨hm, hp⟩, hc⟩
  exact hkept.2

theorem unlost (h : Run c c') (hm : Mapping c) (hp : Placement c) (H : Unlost c) : Unlost c' :=
  h.keep_placed hm hp (fun hp hw hm hf H => H.moved hp hw hm hf) (fun h H => H.routed h) H

theorem serves {place request : Nat} (h : Run c c') (hm : Mapping c) (hp : Placement c)
    (H : Serves place request c) : Serves place request c' :=
  h.keep_placed hm hp (fun hp hw hm hf H => H.moved hp hw hm hf) (fun h H => H.routed h) H

theorem trans (h : Run c d) (h' : Run d c') : Run c c' := by
  induction h' with
  | refl => exact h
  | step _ hf hs ih => exact ih.step hf hs

end Run

/-- The answer to a request that a worker served whose mailbox is closed is the outcome of the
worker. -/
theorem Serves.answersTo_eq {place request : Nat} {w : Worker} (h : Serves place request c)
    (H : Placement c) (hw : c.workers[place]? = some w) (ho : w.isOpen = false) :
    ∃ outcome, w.outcome = some outcome ∧ c.answersTo request = [outcome] := by
  obtain ⟨v, hv, h⟩ := h
  cases hw.symm.trans hv
  rcases h with h | ⟨outcome, houtcome, ha⟩
  · -- such a worker has nobody left to answer
    rw [(H.tidy w (List.mem_of_getElem? hw)).pending_eq_nil ho] at h
    cases h
  · exact ⟨outcome, houtcome, H.answersTo_eq ha⟩

/-- As long as no worker dies, every request is at one of three places and there once: answered,
held by a worker that has not terminated, or in a mailbox that has not been drained. Nobody is told
that a worker is lost, and once the worker that a request came to has closed its mailbox, its
outcome is the one answer to the request. -/
theorem request_in_one_place {timeout : Duration} (h : Run (.new timeout) c) :
    (c.answered ++ c.held ++ c.queued).Perm (List.range c.requests.length) ∧
    (∀ answer ∈ c.answers, ∀ token, answer.2 ≠ .error (.workerLost token)) ∧
    ∀ token c', Run (c.request token) c' → ∀ w, c'.workers[c.host token]? = some w →
      w.isOpen = false →
      ∃ outcome, w.outcome = some outcome ∧ c'.answersTo c.requests.length = [outcome] := by
  have hnew := mapping_new timeout
  have hplaced := placement_new timeout
  obtain ⟨hm, H⟩ := h.sound hnew hplaced
  have hunlost := h.unlost hnew hplaced ⟨nofun, nofun⟩
  refine ⟨H.perm_range, hunlost.answers, fun token c' h' w hw ho => ?_⟩
  have hr : Run c (c.request token) := .step (e := .request token) .refl rfl rfl
  obtain ⟨hm₁, H₁⟩ := hr.sound hm H
  exact (h'.serves hm₁ H₁ (serves_request c token)).answersTo_eq (h'.sound hm₁ H₁).2 hw ho

/-- The second of two requests for a token is in the mailbox when the look-up fails. -/
theorem request_in_one_place_failed_lookup : ∃ c c' w,
    Run (new ⟨1000⟩) c ∧ Run (c.request ⟨"t"⟩) c' ∧ c'.workers[c.host ⟨"t"⟩]? = some w ∧
      w.phase = .drained ∧ w.outcome = some (.error (.lookup (.backend "down"))) ∧
      c'.answersTo 1 = [.error (.lookup (.backend "down"))] ∧
      (c'.answered ++ c'.held ++ c'.queued).Perm (List.range 2) := by
  have h := Run.step (e := .request ⟨"t"⟩) (.refl (c := new ⟨1000⟩)) rfl rfl
  have h₁ := h.step (e := .request ⟨"t"⟩) rfl rfl
  have h₂ := Run.step (e := .start 0 ⟨5⟩) .refl rfl
    (rfl : (((new ⟨1000⟩).request ⟨"t"⟩).request ⟨"t"⟩).step _ = some _)
  have h₃ := h₂.step (e := .read 0 (.error (.backend "down"))) rfl rfl
  have h₄ := h₃.step (e := .resolve 0) rfl rfl
  have h' := h₄.step (e := .drain 0) rfl rfl
  obtain ⟨outcome, ho, hanswers⟩ := (request_in_one_place h).2.2 ⟨"t"⟩ _ h' _ rfl rfl
  cases ho
  exact ⟨_, _, _, h, h', rfl, rfl, rfl, hanswers, (request_in_one_place (h₁.trans h')).1⟩

end PolicyGate.Coordinator
