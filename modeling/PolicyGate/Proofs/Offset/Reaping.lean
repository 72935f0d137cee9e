import PolicyGate.Proofs.Offset.Mapping
import PolicyGate.Proofs.Sorted.Map

/-!
Who is mapped and who is reaped. A worker whose run is over may be replaced while the message about
it is still on its way, so that workers of several generations and messages about them go side by
side. Main statements: every step keeps the newest worker of a token mapped and the message of an
ended one on its way (`Reaping.step`), so that a token has at most one worker that takes commands,
and the map shows just these workers once all messages have been acted on (`one_live_worker`).
-/

namespace PolicyGate.Coordinator

open ListUpdate

/-- The states of a coordinator: whatever steps lead to, in any order. -/
inductive Reachable (timeout : Duration) : Coordinator → Prop
  | new : Reachable timeout (.new timeout)
  | step {c c' e} : Reachable timeout c → c.step e = some c' → Reachable timeout c'

/-- The mapped worker of a token is the newest of the token, and has sent its message if its run has
ended; no worker has sent two messages. -/
structure Reaping (c : Coordinator) : Prop where
  newest : ∀ {key handle g w}, c.mapped.get? key = some handle →
    c.workers[g]? = some w → w.token = ⟨key⟩ → g ≤ handle.mailbox
  told : ∀ {key handle w}, c.mapped.get? key = some handle →
    c.workers[handle.mailbox]? = some w → w.phase = .ended → w.exit ∈ c.exits
  once : (c.exits.map WorkerExit.generation).Nodup

variable {c c' : Coordinator} {e : Event}

theorem reaping_new (timeout : Duration) : Reaping (.new timeout) := ⟨nofun, nofun, .nil⟩

/-- The message of a worker is sent when its run ends. -/
theorem mem_farewell {timeout : Duration} {m : WorkerMove} {w w' : Worker} {answers : Answers}
    (hm : Worker.Moved timeout w m w' answers) (hp : w'.phase = .ended) :
    w'.exit ∈ farewell w' m := by
  cases hm with
  | begin | look | find | miss | decide | close | closeUnknown | die => cases hp
  | join hw | ignore hw => cases hw.symm.trans hp
  | finish => exact List.mem_singleton_self _

namespace Reaping

/-- A worker is replaced by one of its token, which has sent its message if its run has ended. -/
theorem replace {place : Nat} {w w' : Worker} {more : List WorkerExit} (H : Reaping c)
    (workers : c'.workers = c.workers.set place w') (mapped : c'.mapped = c.mapped)
    (exits : c'.exits = c.exits ++ more) (hw : c.workers[place]? = some w)
    (ht : w'.token = w.token)
    (ended : w'.phase = .ended → w.phase = .ended ∧ w'.exit = w.exit ∨ w'.exit ∈ more)
    (once : (c'.exits.map WorkerExit.generation).Nodup) : Reaping c' where
  newest {key handle g v} hk hv hkey := by
    rw [mapped] at hk
    rw [workers] at hv
    rcases getElem?_set_cases hv with ⟨rfl, rfl⟩ | ⟨-, hv⟩
    · exact H.newest hk hw (ht.symm.trans hkey)
    · exact H.newest hk hv hkey
  told {key handle v} hk hv hp := by
    rw [mapped] at hk
    rw [workers] at hv
    rw [exits]
    rcases getElem?_set_cases hv with ⟨hplace, rfl⟩ | ⟨-, hv⟩
    · rcases ended hp with ⟨hp, hx⟩ | hx
      · exact List.mem_append_left _ (hx ▸ H.told hk (hplace ▸ hw) hp)
      · exact List.mem_append_right _ hx
    · exact List.mem_append_left _ (H.told hk hv hp)
  once := once

/-- The message of a worker is on its way from its end until it is acted on. -/
theorem moved {place : Nat} {m : WorkerMove} {w w' : Worker} {answers : Answers}
    (H : Reaping c) (hmap : Mapping c) (hw : c.workers[place]? = some w)
    (hm : Worker.Moved c.timeout w m w' answers) : Reaping (c.moved place m w' answers) := by
  refine H.replace rfl rfl rfl hw hm.token_eq (fun hp => .inr (mem_farewell hm hp)) ?_
  cases m with
  | leave =>
    rw [Coordinator.moved, farewell, List.map_append]
    refine List.nodup_append.2 ⟨H.once, List.pairwise_singleton _ _, fun g hg g' hg' heq => ?_⟩
    obtain ⟨exit, hx, rfl⟩ := List.mem_map.1 hg
    cases List.mem_singleton.1 hg'
    -- a worker that takes a step is not over, so it has not sent a message before
    obtain ⟨p, v, hv, hvg, -, hover⟩ := hmap.exits exit hx
    cases hmap.place_eq hv hw (hvg.trans (heq.trans hm.generation_eq))
    cases hv.symm.trans hw
    simp [hm.isOver_eq] at hover
  | _ => simpa [Coordinator.moved, farewell] using H.once

theorem told_of_isOpen {place : Nat} {w : Worker} (H : Reaping c)
    (hw : c.workers[place]? = some w) (command : WorkerCommand) :
    Reaping (c.told place w command) :=
  H.replace rfl rfl (List.append_nil _).symm hw rfl (fun hp => .inl ⟨hp, rfl⟩) H.once

theorem enter (H : Reaping c) (token : Token) : Reaping (c.enter token) where
  newest := H.newest
  told := H.told
  once := H.once

theorem spawn (H : Reaping c) (token : Token) (request : Nat) :
    Reaping (c.spawn token request) where
  newest {key handle g v} hk hv hkey := by
    rw [Coordinator.spawn, SortedMap.get?_insert] at hk
    rcases getElem?_concat_cases hv with hv | ⟨rfl, rfl⟩
    · split at hk
      · cases hk
        exact Nat.le_of_lt (List.getElem?_eq_some_iff.1 hv).1
      · exact H.newest hk hv hkey
    · -- the new worker stands under its token
      cases hkey
      rw [if_pos rfl] at hk
      cases hk
      exact Nat.le_refl _
  told {key handle v} hk hv hp := by
    rw [Coordinator.spawn, SortedMap.get?_insert] at hk
    rcases getElem?_concat_cases hv with hv | ⟨-, rfl⟩
    · split at hk
      · cases hk
        exact absurd (List.getElem?_eq_some_iff.1 hv).1 (Nat.lt_irrefl _)
      · exact H.told hk hv hp
    · cases hp
  once := H.once

/-- The message of a worker that was replaced leaves the newer one on the map. -/
theorem reap (H : Reaping c) (hmap : Mapping c) {exit : WorkerExit} {rest : List WorkerExit}
    (hx : c.exits = exit :: rest) : Reaping (c.forget exit rest) where
  newest {key handle g v} hk hv hkey := by
    rw [hmap.get?_forget (hx ▸ List.mem_cons_self)] at hk
    exact H.newest (Option.filter_eq_some_iff.1 hk).1 hv hkey
  told {key handle v} hk hv hp := by
    rw [hmap.get?_forget (hx ▸ List.mem_cons_self)] at hk
    obtain ⟨hkept, hne⟩ := Option.filter_eq_some_iff.1 hk
    obtain ⟨w, hw, -, hg⟩ := hmap.entry hkept
    cases hv.symm.trans hw
    have hmem := H.told hkept hv hp
    rw [hx] at hmem
    refine (List.mem_cons.1 hmem).resolve_left fun he => ?_
    exact of_decide_eq_true hne (hg.symm.trans (congrArg WorkerExit.generation he))
  once := by
    have h := H.once
    rw [hx, List.map_cons, List.nodup_cons] at h
    exact h.2

theorem routed (H : Reaping c) (hmap : Mapping c) (h : Routed e c c') : Reaping c' := by
  cases h with
  | join _ _ hw => exact (H.enter _).told_of_isOpen hw _
  | spawn _ _ => exact (H.enter _).spawn _ _
  | tell _ hw => exact H.told_of_isOpen hw _
  | reap _ hx => exact H.reap hmap hx

theorem step (H : Reaping c) (hmap : Mapping c) (h : c.step e = some c') :
    Mapping c' ∧ Reaping c' :=
  keep_of_step (P := fun c => Mapping c ∧ Reaping c) h
    (fun _ hw hm ⟨hmap, H⟩ => ⟨hmap.moved hw hm, H.moved hmap hw hm⟩)
    (fun h ⟨hmap, H⟩ => ⟨hmap.routed h, H.routed hmap h⟩) ⟨hmap, H⟩

end Reaping

theorem Reachable.kept {timeout : Duration} (h : Reachable timeout c) : Mapping c ∧ Reaping c := by
  induction h with
  | new => exact ⟨mapping_new timeout, reaping_new timeout⟩
  | step _ hs ih => exact ih.2.step ih.1 hs

namespace Mapping

/-- No token has two workers that take commands. -/
theorem unique {g g' : Nat} {w w' : Worker} (H : Mapping c) (hw : c.workers[g]? = some w)
    (hw' : c.workers[g']? = some w') (ho : w.isOpen) (ho' : w'.isOpen)
    (ht : w.token = w'.token) : g = g' := by
  have h := H.live hw ho
  rw [ht, H.live hw' ho'] at h
  exact (congrArg WorkerHandle.mailbox (Option.some.inj h)).symm

/-- No two workers have the same number. -/
theorem nodup_generations (H : Mapping c) : (c.workers.map Worker.generation).Nodup := by
  rw [List.Nodup, List.pairwise_map, List.pairwise_iff_getElem]
  intro i j hi hj hlt heq
  exact Nat.ne_of_lt hlt
    (H.place_eq (List.getElem?_eq_getElem hi) (List.getElem?_eq_getElem hj) heq)

/-- If all that is mapped takes commands, a token is mapped just if it has a worker that does. -/
theorem contains_iff (H : Mapping c) (hopen : ∀ key handle w,
    c.mapped.get? key = some handle → c.workers[handle.mailbox]? = some w → w.isOpen)
    (key : String) : c.mapped.contains key ↔ ∃ w ∈ c.workers, w.isOpen ∧ w.token = ⟨key⟩ := by
  rw [SortedMap.contains, Option.isSome_iff_exists]
  constructor
  · rintro ⟨handle, hk⟩
    obtain ⟨w, hw, ht, -⟩ := H.entry hk
    exact ⟨w, List.mem_of_getElem? hw, hopen _ _ _ hk hw, ht⟩
  · rintro ⟨w, hw, ho, ht⟩
    obtain ⟨place, hw⟩ := List.mem_iff_getElem?.1 hw
    exact ⟨_, by simpa [ht] using H.live hw ho⟩

/-- If all mapped workers take commands, there is one entry for each worker that does. -/
theorem size_eq (H : Mapping c) (hopen : ∀ key handle w,
    c.mapped.get? key = some handle → c.workers[handle.mailbox]? = some w → w.isOpen) :
    c.mapped.size = c.workers.countP Worker.isOpen := by
  have hnodup : ((c.workers.filter Worker.isOpen).map fun w => w.token.text).Nodup := by
    rw [List.Nodup, List.pairwise_map, List.pairwise_filter, List.pairwise_iff_getElem]
    intro i j hi hj hlt ho ho' ht
    exact Nat.ne_of_lt hlt (H.unique (List.getElem?_eq_getElem hi) (List.getElem?_eq_getElem hj)
      ho ho' (congrArg Token.mk ht))
  have hperm : c.mapped.keys.Perm ((c.workers.filter Worker.isOpen).map fun w => w.token.text) := by
    refine (List.perm_ext_iff_of_nodup c.mapped.nodup_keys hnodup).2 fun key => ?_
    rw [SortedMap.mem_keys_iff, H.contains_iff hopen, List.mem_map]
    simp only [List.mem_filter]
    constructor
    · rintro ⟨w, hw, ho, ht⟩
      exact ⟨w, ⟨hw, ho⟩, by rw [ht]⟩
    · rintro ⟨w, ⟨hw, ho⟩, rfl⟩
      exact ⟨w, hw, ho, rfl⟩
  simpa [SortedMap.keys, SortedMap.size, List.countP_eq_length_filter] using hperm.length_eq

end Mapping

/-- When no message is on its way or still to be sent, whoever is mapped takes commands, unless
workers die. -/
theorem Reaping.isOpen_of_exits (H : Reaping c) (hx : c.exits = [])
    (hsent : ∀ w ∈ c.workers, w.phase ≠ .drained ∧ w.phase ≠ .crashed) {key : String}
    {handle : WorkerHandle} {w : Worker} (hk : c.mapped.get? key = some handle)
    (hw : c.workers[handle.mailbox]? = some w) : w.isOpen := by
  obtain ⟨hdrained, hcrashed⟩ := hsent w (List.mem_of_getElem? hw)
  cases hp : w.phase with
  | ended =>
    have hmem := H.told hk hw hp
    rw [hx] at hmem
    cases hmem
  | drained => exact absurd hp hdrained
  | crashed => exact absurd hp hcrashed
  | _ => simp [Worker.isOpen, hp]

/-- After a request its token has a worker: one that took commands before, or one in a place that no
worker had before. -/
theorem mapped_request (c : Coordinator) (token : Token) : ∃ handle,
    (c.request token).mapped.get? token.text = some handle ∧
      ∀ w, c.workers[handle.mailbox]? = some w → w.isOpen := by
  have h := routed_request c token
  generalize c.request token = c' at h
  cases h with
  | join he hg hw ho =>
    cases he
    refine ⟨_, hg, fun v hv => ?_⟩
    cases hw.symm.trans hv
    exact ho
  | spawn he =>
    cases he
    refine ⟨⟨c.workers.length, c.generation + 1⟩, ?_, fun v hv => ?_⟩
    · rw [spawn, SortedMap.get?_insert, if_pos rfl]
      rfl
    · simp at hv
  | tell he => cases he
  | reap he => cases he

/-- Whatever happens in whatever order, no two workers have the same number, and a token has at most
one worker that takes commands; it stands under its token, with its mailbox and its number. What
stands under a token is the newest worker of it, the one with the largest number. If its run has
ended, its own message is on its way, and no worker sends two messages. Acting on a message takes
away the worker that sent it and no other, and once all messages have been sent and acted on, the
map shows just the workers that take commands. A worker that dies sends no message and stays where
it is until a request replaces it. -/
theorem one_live_worker {timeout : Duration} (h : Reachable timeout c) :
    (c.workers.map Worker.generation).Nodup ∧
    (∀ (g g' : Nat) (w w' : Worker), c.workers[g]? = some w → c.workers[g']? = some w' →
      w.isOpen → w'.isOpen → w.token = w'.token → g = g') ∧
    (∀ (g : Nat) (w : Worker), c.workers[g]? = some w → w.isOpen →
      c.mapped.get? w.token.text = some ⟨g, w.generation⟩) ∧
    (∀ key handle, c.mapped.get? key = some handle → ∃ w, c.workers[handle.mailbox]? = some w ∧
      w.token = ⟨key⟩ ∧ w.generation = handle.generation ∧
      (∀ w' ∈ c.workers, w'.token = ⟨key⟩ → w'.generation ≤ handle.generation) ∧
      (w.phase = .ended → w.exit ∈ c.exits)) ∧
    (∀ token, ∃ handle, (c.request token).mapped.get? token.text = some handle ∧
      ∀ w, c.workers[handle.mailbox]? = some w → w.isOpen) ∧
    (c.exits.map WorkerExit.generation).Nodup ∧
    (∀ exit rest, c.exits = exit :: rest → ∃ c', c.step .reap = some c' ∧ c'.exits = rest ∧
      ∀ key, c'.mapped.get? key =
        (c.mapped.get? key).filter fun handle => handle.generation ≠ exit.generation) ∧
    (c.exits = [] → (∀ w ∈ c.workers, w.phase ≠ .drained ∧ w.phase ≠ .crashed) →
      (∀ token, c.hasWorker token ↔ ∃ w ∈ c.workers, w.isOpen ∧ w.token = token) ∧
        c.activeWorkers = c.workers.countP Worker.isOpen) := by
  obtain ⟨hmap, H⟩ := h.kept
  refine ⟨hmap.nodup_generations, fun _ _ _ _ hw hw' ho ho' ht => hmap.unique hw hw' ho ho' ht,
    fun _ _ => hmap.live, fun key handle hk => ?_, c.mapped_request, H.once,
    fun exit rest hx => ?_, fun hx hsent => ?_⟩
  · obtain ⟨w, hw, ht, hg⟩ := hmap.entry hk
    refine ⟨w, hw, ht, hg, fun w' hw' ht' => ?_, H.told hk hw⟩
    obtain ⟨g, hw'⟩ := List.mem_iff_getElem?.1 hw'
    rw [← hg, hmap.numbered hw', hmap.numbered hw]
    exact Nat.succ_le_succ (H.newest hk hw' ht')
  · exact ⟨c.forget exit rest, by simp only [step, reap, hx], rfl,
      hmap.get?_forget (hx ▸ List.mem_cons_self) rest⟩
  · have hopen : ∀ key handle w, c.mapped.get? key = some handle →
        c.workers[handle.mailbox]? = some w → w.isOpen := fun _ _ _ => H.isOpen_of_exits hx hsent
    exact ⟨fun token => hmap.contains_iff hopen token.text, hmap.size_eq hopen⟩

/-- A worker is cancelled, and replaced before its message has been sent. -/
theorem one_live_worker_stale_message : ∃ c c', Reachable ⟨1000⟩ c ∧
    c.exits = [⟨⟨"t"⟩, 1, false⟩] ∧ c.mapped.get? "t" = some ⟨1, 2⟩ ∧ c.step .reap = some c' ∧
    c'.mapped.get? "t" = some ⟨1, 2⟩ ∧ c'.hasWorker ⟨"t"⟩ ∧ c'.activeWorkers = 1 := by
  have h₁ := (Reachable.new : Reachable ⟨1000⟩ _).step (e := .request ⟨"t"⟩) rfl
  have h₂ := (h₁.step (e := .start 0 ⟨5⟩) rfl).step (e := .read 0 (.ok none)) rfl
  have h₃ := (h₂.step (e := .resolve 0) rfl).step (e := .cancel ⟨"t"⟩ "stop") rfl
  have h₄ := (h₃.step (e := .handle 0) rfl).step (e := .drain 0) rfl
  have h₅ := (h₄.step (e := .request ⟨"t"⟩) rfl).step (e := .leave 0) rfl
  obtain ⟨c', hs, hx, hmap⟩ := (one_live_worker h₅).2.2.2.2.2.2.1 _ _ rfl
  cases hs
  have h₆ := h₅.step (e := .reap) rfl
  obtain ⟨hhas, hcount⟩ := (one_live_worker h₆).2.2.2.2.2.2.2 rfl
    (List.forall_mem_cons.2 ⟨⟨nofun, nofun⟩, List.forall_mem_singleton.2 ⟨nofun, nofun⟩⟩)
  refine ⟨_, _, h₅, rfl, rfl, rfl, hmap "t", (hhas ⟨"t"⟩).2 ⟨.new ⟨"t"⟩ 2 1, ?_, rfl, rfl⟩, hcount⟩
  exact List.mem_cons_of_mem _ List.mem_cons_self

end PolicyGate.Coordinator
