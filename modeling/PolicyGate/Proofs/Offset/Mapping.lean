import PolicyGate.Proofs.List.Update
import PolicyGate.Proofs.Offset.Step

/-!
The map of a coordinator from tokens to workers. Main statement: every step keeps a worker that
takes commands under its token, with its own number, so that no token has two of them
(`Mapping.step`).
-/

namespace PolicyGate.Coordinator

open ListUpdate

/-- Workers are numbered in the order in which they were spawned. A worker that takes commands
stands under its token, what stands under a token is a worker of it, and only workers whose run is
over have sent a message about it. -/
structure Mapping (c : Coordinator) : Prop where
  count : c.generation = c.workers.length
  numbered : ∀ {place w}, c.workers[place]? = some w → w.generation = place + 1
  live : ∀ {place w}, c.workers[place]? = some w → w.isOpen →
    c.mapped.get? w.token.text = some ⟨place, w.generation⟩
  entry : ∀ {key handle}, c.mapped.get? key = some handle →
    ∃ w, c.workers[handle.mailbox]? = some w ∧ w.token = ⟨key⟩ ∧ w.generation = handle.generation
  exits : ∀ exit ∈ c.exits, ∃ (place : Nat) (w : Worker), c.workers[place]? = some w ∧
    w.generation = exit.generation ∧ w.token = exit.token ∧ w.isOver

variable {c c' : Coordinator} {e : Event}

theorem mapping_new (timeout : Duration) : Mapping (.new timeout) where
  count := rfl
  numbered h := by simp [new] at h
  live h := by simp [new] at h
  entry h := nomatch h
  exits _ h := nomatch h

namespace Mapping

/-- A number belongs to one worker. -/
theorem place_eq {place place' : Nat} {w w' : Worker} (H : Mapping c)
    (hw : c.workers[place]? = some w) (hw' : c.workers[place']? = some w')
    (h : w.generation = w'.generation) : place = place' := by
  rw [H.numbered hw, H.numbered hw'] at h
  exact Nat.succ.inj h

/-- A worker is replaced by one of its token and number that takes commands only if it did so before
and has not taken up its run again; a message that is sent is that of a worker whose run is over. -/
theorem replace {place : Nat} {w w' : Worker} (H : Mapping c)
    (count : c'.generation = c.generation) (workers : c'.workers = c.workers.set place w')
    (mapped : c'.mapped = c.mapped) (hw : c.workers[place]? = some w) (ht : w'.token = w.token)
    (hg : w'.generation = w.generation) (hopen : w'.isOpen → w.isOpen)
    (hover : w.isOver → w'.isOver)
    (exits : ∀ exit ∈ c'.exits, exit ∈ c.exits ∨
      w'.generation = exit.generation ∧ w'.token = exit.token ∧ w'.isOver) : Mapping c' where
  count := by rw [count, workers, List.length_set, H.count]
  numbered {g v} hv := by
    rw [workers] at hv
    rcases getElem?_set_cases hv with ⟨rfl, rfl⟩ | ⟨-, hv⟩
    · exact hg.trans (H.numbered hw)
    · exact H.numbered hv
  live {g v} hv hvo := by
    rw [workers] at hv
    rw [mapped]
    rcases getElem?_set_cases hv with ⟨rfl, rfl⟩ | ⟨-, hv⟩
    · rw [ht, hg]
      exact H.live hw (hopen hvo)
    · exact H.live hv hvo
  entry {key handle} hk := by
    rw [mapped] at hk
    obtain ⟨v, hv, hkey, hvg⟩ := H.entry hk
    by_cases hplace : place = handle.mailbox
    · subst hplace
      cases hw.symm.trans hv
      exact ⟨w', by rw [workers, getElem?_set_of_some hw], ht.trans hkey, hg.trans hvg⟩
    · exact ⟨v, by rw [workers, List.getElem?_set_ne hplace, hv], hkey, hvg⟩
  exits exit hx := by
    rw [workers]
    rcases exits exit hx with hx | hx
    · obtain ⟨g, v, hv, hvg, hvt, hvo⟩ := H.exits exit hx
      by_cases hplace : place = g
      · subst hplace
        cases hw.symm.trans hv
        exact ⟨place, w', getElem?_set_of_some hw w', hg.trans hvg, ht.trans hvt, hover hvo⟩
      · exact ⟨g, v, by rw [List.getElem?_set_ne hplace, hv], hvg, hvt, hvo⟩
    · exact ⟨place, w', getElem?_set_of_some hw w', hx⟩

/-- A step of a worker leaves the map in order. -/
theorem moved {place : Nat} {m : WorkerMove} {w w' : Worker} {answers : Answers}
    (H : Mapping c) (hw : c.workers[place]? = some w)
    (hm : Worker.Moved c.timeout w m w' answers) :
    Mapping (c.moved place m w' answers) := by
  refine H.replace rfl rfl rfl hw hm.token_eq hm.generation_eq hm.isOpen_of_isOpen
    (fun hover => by simp [hm.isOver_eq] at hover) fun exit hx => ?_
  rcases List.mem_append.1 hx with hx | hx
  · exact .inl hx
  · cases m with
    | leave =>
      cases List.mem_singleton.1 hx
      exact .inr ⟨rfl, rfl, hm.isOver_of_leave⟩
    | _ => cases hx

theorem told {place : Nat} {w : Worker} (H : Mapping c)
    (hw : c.workers[place]? = some w) (command : WorkerCommand) :
    Mapping (c.told place w command) :=
  H.replace rfl rfl rfl hw rfl rfl id id fun _ hx => .inl hx

theorem enter (H : Mapping c) (token : Token) : Mapping (c.enter token) where
  count := H.count
  numbered := H.numbered
  live := H.live
  entry := H.entry
  exits := H.exits

/-- A new worker may take a place on the map if the one there takes no commands any more. -/
theorem spawn {token : Token} {request : Nat} (H : Mapping c)
    (hno : ∀ handle w, c.mapped.get? token.text = some handle →
      c.workers[handle.mailbox]? = some w → w.isOpen = false) :
    Mapping (c.spawn token request) where
  count := by simp [Coordinator.spawn, H.count]
  numbered {g v} hv := by
    rcases getElem?_concat_cases hv with hv | ⟨rfl, rfl⟩
    · exact H.numbered hv
    · exact congrArg (· + 1) H.count
  live {g v} hv ho := by
    rw [Coordinator.spawn, SortedMap.get?_insert]
    rcases getElem?_concat_cases hv with hv | ⟨rfl, rfl⟩
    · have hlive := H.live hv ho
      split
      · next ht =>
        rw [ht] at hlive
        exact absurd ho (by simp [hno _ v hlive hv])
      · exact hlive
    · exact if_pos rfl
  entry {key handle} hk := by
    rw [Coordinator.spawn, SortedMap.get?_insert] at hk
    split at hk
    · next ht =>
      cases hk
      exact ⟨.new token (c.generation + 1) request, by simp [Coordinator.spawn], ht ▸ rfl, rfl⟩
    · obtain ⟨v, hv, hk⟩ := H.entry hk
      exact ⟨v, List.getElem?_append_left (List.getElem?_eq_some_iff.1 hv).1 ▸ hv, hk⟩
  exits exit hx := by
    obtain ⟨g, v, hv, hx⟩ := H.exits exit hx
    exact ⟨g, v, List.getElem?_append_left (List.getElem?_eq_some_iff.1 hv).1 ▸ hv, hx⟩

/-- Acting on a message takes away just the handle of the worker that sent it. -/
theorem get?_forget {exit : WorkerExit} (H : Mapping c) (hx : exit ∈ c.exits)
    (rest : List WorkerExit) (key : String) :
    (c.forget exit rest).mapped.get? key =
      (c.mapped.get? key).filter fun handle => handle.generation ≠ exit.generation := by
  obtain ⟨place, w, hw, hg, ht, -⟩ := H.exits exit hx
  -- a handle with the number of the message stands under its token
  have hunder {handle} (hk : c.mapped.get? key = some handle)
      (hh : handle.generation = exit.generation) : key = exit.token.text := by
    obtain ⟨v, hv, hvt, hvg⟩ := H.entry hk
    cases H.place_eq hv hw (hvg.trans (hh.trans hg.symm))
    cases hv.symm.trans hw
    rw [← ht, hvt]
  by_cases hkey : key = exit.token.text
  · subst hkey
    cases hk : c.mapped.get? exit.token.text with
    | none =>
      rw [mapped_forget_of_ne rest (by simp [hk]), hk]
      rfl
    | some handle =>
      by_cases hh : handle.generation = exit.generation
      · simp [forget, hk, hh, SortedMap.get?_erase, Option.filter_some]
      · rw [mapped_forget_of_ne rest (by simpa [hk] using hh), hk, Option.filter_some,
          if_pos (by simpa using hh)]
  · have hsame : (c.forget exit rest).mapped.get? key = c.mapped.get? key := by
      unfold forget
      split
      · rw [SortedMap.get?_erase, if_neg hkey]
      · rfl
    rw [hsame]
    cases hk : c.mapped.get? key with
    | none => rfl
    | some handle =>
      rw [Option.filter_some, if_pos (by simpa using fun hh => hkey (hunder hk hh))]

/-- A message takes no worker off the map that takes commands. -/
theorem reap {exit : WorkerExit} {rest : List WorkerExit} (H : Mapping c)
    (hx : c.exits = exit :: rest) : Mapping (c.forget exit rest) where
  count := H.count
  numbered := H.numbered
  live {g v} hv ho := by
    rw [H.get?_forget (hx ▸ List.mem_cons_self), H.live hv ho, Option.filter_some, if_pos]
    -- the worker that the message is about is over, so it is not the one under the token
    obtain ⟨place, w, hw, hg, -, hover⟩ := H.exits exit (hx ▸ List.mem_cons_self)
    refine decide_eq_true fun he => ?_
    cases H.place_eq hv hw (he.trans hg.symm)
    cases hv.symm.trans hw
    simp [Worker.isOver_eq_false_of_isOpen ho] at hover
  entry {key handle} hk := by
    rw [H.get?_forget (hx ▸ List.mem_cons_self)] at hk
    exact H.entry (Option.filter_eq_some_iff.1 hk).1
  exits x h := H.exits x (hx ▸ List.mem_cons_of_mem _ h)

theorem routed (H : Mapping c) (h : Routed e c c') : Mapping c' := by
  cases h with
  | join _ _ hw => exact (H.enter _).told hw _
  | spawn _ hno => exact (H.enter _).spawn hno
  | tell _ hw => exact H.told hw _
  | reap _ hx => exact H.reap hx

theorem step (H : Mapping c) (h : c.step e = some c') : Mapping c' :=
  keep_of_step h (fun _ hw hm H => H.moved hw hm) (fun h H => H.routed h) H

end Mapping

end PolicyGate.Coordinator
