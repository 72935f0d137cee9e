import PolicyGate.Proofs.Offset.Placement
import PolicyGate.Proofs.Sorted.Map

/-!
The shutdown of a coordinator, which cancels its workers. A cancellation stays in the mailbox until
the worker handles it or comes to another outcome before. Main statements: every worker that takes
commands is cancelled (`cancelled_shutdown`), and a request that is with such a worker is answered
by the time at which no mailbox holds anything (`Concluding.answersTo_eq`).
-/

namespace PolicyGate

namespace Worker

/-- A worker that will not go on waiting: a cancellation is in its mailbox, or it has terminated. -/
def IsDoomed (w : Worker) : Prop := (∃ reason, .cancel reason ∈ w.mailbox) ∨ w.hasTerminated

variable {timeout : Duration} {w w' : Worker} {m : WorkerMove} {answers : Answers}

theorem IsDoomed.receive (h : w.IsDoomed) (command : WorkerCommand) :
    (w.receive command).IsDoomed :=
  h.imp_left fun ⟨reason, hm⟩ => ⟨reason, List.mem_append_left _ hm⟩

/-- Whatever step a doomed worker takes, it stays doomed. -/
theorem IsDoomed.moved (h : w.IsDoomed) (hm : Moved timeout w m w' answers) : w'.IsDoomed := by
  cases hm with
  | decide | close | closeUnknown | finish | die => exact .inr rfl
  | begin hp | look hp | miss hp =>
    refine .inl (h.resolve_right ?_)
    simp [hasTerminated, hp]
  | find hp =>
    obtain ⟨reason, hm⟩ := h.resolve_right (by simp [hasTerminated, hp])
    exact .inl ⟨reason, List.mem_append_left _ hm⟩
  | join hp hb | ignore hp hb =>
    obtain ⟨reason, hm⟩ := h.resolve_right (by simp [hasTerminated, hp])
    rw [hb, List.mem_cons] at hm
    exact .inl ⟨reason, hm.resolve_left (by rintro ⟨⟩)⟩

/-- A doomed worker that has handled its mailbox has nobody to answer any more. -/
theorem IsDoomed.pending_eq_nil (h : w.IsDoomed) (ht : w.Tidy) (hm : w.mailbox = []) :
    w.pending = [] := by
  rcases h with ⟨reason, hc⟩ | h
  · rw [hm] at hc
    cases hc
  · rw [pending, ht.subscribers h, hm]
    rfl

end Worker

namespace Coordinator

open ListUpdate

/-- A request that has been answered, or is with a worker that is doomed. -/
def Concluding (request : Nat) (c : Coordinator) : Prop :=
  request ∈ c.answered ∨ ∃ (place : Nat) (w : Worker), c.workers[place]? = some w ∧
    request ∈ w.pending ∧ w.IsDoomed

variable {c c' : Coordinator} {e : Event} {request place : Nat} {w w' : Worker}

namespace Concluding

/-- One worker is replaced by another that has the requests left that are not answered. -/
theorem replace {answers : Answers} (H : Concluding request c)
    (hw : c.workers[place]? = some w)
    (workers : c'.workers = c.workers.set place w')
    (answers_eq : c'.answers = c.answers ++ answers)
    (pending : ∀ r ∈ w.pending, r ∈ answers.map Prod.fst ∨ r ∈ w'.pending)
    (doomed : w.IsDoomed → w'.IsDoomed) : Concluding request c' := by
  have hanswered : c'.answered = c.answered ++ answers.map Prod.fst := by
    rw [answered, answers_eq, List.map_append]
    rfl
  rw [Concluding, hanswered, List.mem_append, workers]
  rcases H with h | ⟨g, v, hv, hp, hd⟩
  · exact .inl (.inl h)
  · by_cases hg : place = g
    · subst hg
      cases hw.symm.trans hv
      rcases pending _ hp with h | h
      · exact .inl (.inr h)
      · exact .inr ⟨place, w', getElem?_set_of_some hw w', h, doomed hd⟩
    · exact .inr ⟨g, v, by rw [List.getElem?_set_ne hg, hv], hp, hd⟩

theorem moved {m : WorkerMove} {answers : Answers} (H : Concluding request c)
    (hw : c.workers[place]? = some w) (hm : Worker.Moved c.timeout w m w' answers) :
    Concluding request (c.moved place m w' answers) :=
  H.replace hw rfl rfl (fun _ hr => List.mem_append.1 (hm.pending.symm.subset hr))
    fun hd => hd.moved hm

theorem told (H : Concluding request c) (hw : c.workers[place]? = some w)
    (command : WorkerCommand) : Concluding request (c.told place w command) := by
  refine H.replace hw rfl (List.append_nil _).symm (fun r hr => .inr ?_)
    fun hd => hd.receive command
  rw [Worker.pending_receive]
  exact List.mem_append_left _ hr

/-- A request that is answered or with a doomed worker stays so, whatever is handed on. -/
theorem routed (H : Concluding request c) (h : Routed e c c') : Concluding request c' := by
  cases h with
  | join _ _ hw => exact told (c := c.enter _) H hw _
  | tell _ hw => exact H.told hw _
  | reap => exact H
  | spawn =>
    refine H.imp_right fun ⟨g, v, hv, h⟩ => ⟨g, v, ?_, h⟩
    exact List.getElem?_append_left (List.getElem?_eq_some_iff.1 hv).1 ▸ hv

theorem step (H : Concluding request c) (h : c.step e = some c') : Concluding request c' :=
  keep_of_step h (fun _ hw hm H => H.moved hw hm) (fun h H => H.routed h) H

/-- Once no mailbox holds anything, the request has its one answer. -/
theorem answersTo_eq (H : Concluding request c) (hp : Placement c)
    (hm : ∀ w ∈ c.workers, w.mailbox = []) : ∃ reply, c.answersTo request = [reply] := by
  rcases H with h | ⟨g, w, hw, hr, hd⟩
  · obtain ⟨⟨_, reply⟩, ha, rfl⟩ := List.mem_map.1 h
    exact ⟨reply, hp.answersTo_eq ha⟩
  · have hmem := List.mem_of_getElem? hw
    rw [hd.pending_eq_nil (hp.tidy w hmem) (hm w hmem)] at hr
    cases hr

end Concluding

/-! ## The shutdown -/

/-- The worker of a place has been told of the shutdown, if it takes commands. -/
def IsCancelled (place : Nat) (c : Coordinator) : Prop :=
  ∀ w, c.workers[place]? = some w → w.isOpen → .cancel shutdownReason ∈ w.mailbox

theorem IsCancelled.told {g : Nat} {command : WorkerCommand} (H : IsCancelled g c)
    (hw : c.workers[place]? = some w) : IsCancelled g (c.told place w command) := by
  intro v hv ho
  rcases getElem?_set_cases hv with ⟨rfl, rfl⟩ | ⟨-, hv⟩
  · exact List.mem_append_left _ (H w hw ho)
  · exact H v hv ho

/-- Every worker that is mapped gets the cancellation of a shutdown. -/
theorem isCancelled_shutdown (h : place ∈ c.mapped.toList.map fun entry => entry.2.mailbox) :
    IsCancelled place c.shutdown.1 := by
  unfold shutdown
  generalize c.mapped.toList = entries at h
  suffices ∀ count, IsCancelled place c ∨ place ∈ entries.map (fun entry => entry.2.mailbox) →
      IsCancelled place (entries.foldl _ (c, count)).1 from this 0 (.inr h)
  clear h
  induction entries generalizing c with
  | nil => exact fun _ h => h.resolve_right nofun
  | cons entry rest ih =>
    intro count h
    rw [List.foldl_cons]
    rw [List.map_cons, List.mem_cons] at h
    cases hs : c.send entry.2.mailbox (.cancel shutdownReason) with
    | none =>
      simp only [hs]
      refine ih count ?_
      rcases h with h | rfl | h
      · exact .inl h
      · -- the worker takes no commands
        refine .inl fun w hw ho => ?_
        rw [send_eq_none hs hw] at ho
        cases ho
      · exact .inr h
    | some d =>
      simp only [hs]
      obtain ⟨w, hw, -, rfl⟩ := send_eq_some hs
      refine ih (count + 1) ?_
      rcases h with h | rfl | h
      · exact .inl (h.told hw)
      · refine .inl fun v hv _ => ?_
        rw [Coordinator.told, getElem?_set_of_some hw] at hv
        cases hv
        exact List.mem_append_right _ (List.mem_singleton_self _)
      · exact .inr h

/-- A shutdown maps no other workers than before. -/
theorem mapped_shutdown (c : Coordinator) : c.shutdown.1.mapped = c.mapped := by
  have h := routes_shutdown c
  generalize c.shutdown.1 = d at h
  induction h with
  | refl => rfl
  | tail _ hr ih =>
    cases hr with
    | join he | spawn he | reap he => cases he
    | tell => exact ih

/-- A shutdown cancels every worker that takes commands. -/
theorem cancelled_shutdown (H : Mapping c) (hw : w ∈ c.shutdown.1.workers) (ho : w.isOpen) :
    .cancel shutdownReason ∈ w.mailbox := by
  obtain ⟨place, hw⟩ := List.getElem?_of_mem hw
  have hmapped := (H.step (e := .shutdown) rfl).live hw ho
  rw [mapped_shutdown, ← SortedMap.mem_entries_iff] at hmapped
  exact isCancelled_shutdown (List.mem_map_of_mem hmapped) w hw ho

/-- Once every worker that takes commands is cancelled, every request comes to its end. -/
theorem Placement.concluding {reason : String} (H : Placement c)
    (hc : ∀ w ∈ c.workers, w.isOpen → .cancel reason ∈ w.mailbox)
    (hr : request < c.requests.length) : Concluding request c := by
  refine (H.answered_or_pending hr).imp_right fun ⟨g, w, hw, hp⟩ => ⟨g, w, hw, hp, ?_⟩
  cases ht : w.hasTerminated with
  | true => exact .inr ht
  | false =>
    exact .inl ⟨reason, hc w (List.mem_of_getElem? hw) (Worker.isOpen_of_not_hasTerminated ht)⟩

end Coordinator

end PolicyGate
