import Mathlib.Logic.Relation
import PolicyGate.Proofs.Offset.Move

/-!
The steps of a coordinator seen alike. Some let a worker take a step of its own (`Event.move?`), and
the others hand something to the workers or forget one of them (`Routed`). Main statement: every
step is of one of these two kinds (`step_cases`), so that whatever both keep is kept by every step.
-/

namespace PolicyGate

namespace Coordinator

/-- The place and the step of the worker that an event is about. -/
def Event.move? : Event → Option (Nat × WorkerMove)
  | .start place now => some (place, .start now)
  | .read place answer => some (place, .read answer)
  | .resolve place => some (place, .resolve)
  | .expire place now => some (place, .expire now)
  | .handle place => some (place, .handle)
  | .hangUp place => some (place, .hangUp)
  | .drain place => some (place, .drain)
  | .leave place => some (place, .leave)
  | .crash place => some (place, .crash)
  | _ => none

/-- Whether a worker dies of an event. -/
def Event.isFatal (timeout : Duration) (e : Event) : Bool :=
  e.move?.any fun (_, m) => m.isFatal timeout

theorem Event.isFatal_eq {timeout : Duration} {e : Event} {place : Nat} {m : WorkerMove}
    (h : e.move? = some (place, m)) : e.isFatal timeout = m.isFatal timeout := by
  simp [isFatal, h]

/-- The messages that a step sends to the coordinator: a worker whose run is over tells so. -/
def farewell (w : Worker) : WorkerMove → List WorkerExit
  | .leave => [w.exit]
  | _ => []

/-- What a step adds to the counts: its answers, and a worker whose run is over is no longer active.
What those learn whom a worker drops is not counted. -/
def count (metrics : OffsetMetrics) (answers : Answers) : WorkerMove → OffsetMetrics
  | .start _ => metrics
  | .crash => metrics
  | .leave => { metrics with active := metrics.active - 1 }
  | _ => metrics.countReplies answers

/-- The coordinator after a worker took a step. -/
def moved (c : Coordinator) (place : Nat) (m : WorkerMove) (w : Worker) (answers : Answers) :
    Coordinator :=
  { c with
    workers := c.workers.set place w
    answers := c.answers ++ answers
    exits := c.exits ++ farewell w m
    metrics := count c.metrics answers m }

/-- The coordinator with one more request, which is not yet with any worker. -/
def enter (c : Coordinator) (token : Token) : Coordinator :=
  { c with
    requests := c.requests ++ [token]
    metrics := { c.metrics with requests := c.metrics.requests + 1 } }

/-- The commands that an event hands to workers. -/
inductive Event.Tells : Event → WorkerCommand → Prop
  | available {offset} : Tells (.available offset) (.push offset)
  | cancel {token reason} : Tells (.cancel token reason) (.cancel reason)
  | shutdown : Tells .shutdown (.cancel shutdownReason)

/-- A worker that takes commands is given one. -/
def told (c : Coordinator) (place : Nat) (w : Worker) (command : WorkerCommand) :
    Coordinator :=
  { c with workers := c.workers.set place (w.receive command) }

/-- What an event does to the coordinator that is no step of a worker: a request joins a worker or
gets a new one, a command is handed on, an ended worker is forgotten. -/
inductive Routed (e : Event) (c : Coordinator) : Coordinator → Prop
  | join {token handle w} : e = .request token → c.mapped.get? token.text = some handle →
    c.workers[handle.mailbox]? = some w → w.isOpen →
    Routed e c ((c.enter token).told handle.mailbox w (.subscribe c.requests.length))
  | spawn {token} : e = .request token →
    (∀ handle w, c.mapped.get? token.text = some handle →
      c.workers[handle.mailbox]? = some w → w.isOpen = false) →
    Routed e c ((c.enter token).spawn token c.requests.length)
  | tell {place w command} : e.Tells command →
    c.workers[place]? = some w → w.isOpen → Routed e c (c.told place w command)
  | reap {exit rest} : e = .reap → c.exits = exit :: rest → Routed e c (c.forget exit rest)

/-- Any number of such changes. -/
abbrev Routes (e : Event) : Coordinator → Coordinator → Prop := Relation.ReflTransGen (Routed e)

variable {c c' : Coordinator} {e : Event}

theorem send_eq_some {place : Nat} {command : WorkerCommand}
    (h : c.send place command = some c') :
    ∃ w, c.workers[place]? = some w ∧ w.isOpen ∧ c' = c.told place w command := by
  obtain ⟨w, hw, h⟩ := Option.bind_eq_some_iff.1 h
  obtain ⟨w', hs, rfl⟩ := Option.map_eq_some_iff.1 h
  unfold Worker.send at hs
  split at hs
  · next ho => cases hs; exact ⟨w, hw, ho, rfl⟩
  · cases hs

theorem send_of_isOpen {place : Nat} {w : Worker} (hw : c.workers[place]? = some w)
    (ho : w.isOpen) (command : WorkerCommand) :
    c.send place command = some (c.told place w command) := by
  simp [send, hw, Worker.send, ho, told, Worker.receive]

theorem send_eq_none {place : Nat} {command : WorkerCommand} {w : Worker}
    (h : c.send place command = none) (hw : c.workers[place]? = some w) :
    w.isOpen = false := by
  unfold send Worker.send at h
  rw [hw, Option.bind_some, Option.map_eq_none_iff] at h
  split at h
  · cases h
  · next ho => simpa using ho

theorem turn_eq_some {place : Nat} {f : Worker → Option (Worker × Answers)}
    (h : c.turn place f = some c') :
    ∃ w w' answers, c.workers[place]? = some w ∧ f w = some (w', answers) ∧
      c' = { c with
        workers := c.workers.set place w'
        answers := c.answers ++ answers
        metrics := c.metrics.countReplies answers } := by
  obtain ⟨w, hw, h⟩ := Option.bind_eq_some_iff.1 h
  obtain ⟨⟨w', answers⟩, hf, rfl⟩ := Option.map_eq_some_iff.1 h
  exact ⟨w, w', answers, hw, hf, rfl⟩

/-- An event that is a step of a worker lets it take this step. -/
theorem step_turn {place : Nat} {m : WorkerMove} (h : c.step e = some c')
    (he : e.move? = some (place, m)) :
    ∃ w w' answers, c.workers[place]? = some w ∧ w.move c.timeout m = some (w', answers) ∧
      c' = c.moved place m w' answers := by
  cases e with
  | request | available | cancel | shutdown | reap => cases he
  | start | crash =>
    cases he
    obtain ⟨_, ht, rfl⟩ := Option.map_eq_some_iff.1 h
    obtain ⟨w, w', answers, hw, hf, rfl⟩ := turn_eq_some ht
    exact ⟨w, w', answers, hw, hf, by simp [moved, farewell, count]⟩
  | read | resolve | expire | handle | drain =>
    cases he
    obtain ⟨w, w', answers, hw, hf, rfl⟩ := turn_eq_some h
    exact ⟨w, w', answers, hw, hf, by simp [moved, farewell, count]⟩
  | hangUp =>
    cases he
    simp only [step, hangUp] at h
    split at h
    · cases h
    · obtain ⟨w, w', answers, hw, hf, rfl⟩ := turn_eq_some h
      exact ⟨w, w', answers, hw, hf, by simp [moved, farewell, count]⟩
  | leave =>
    cases he
    obtain ⟨w, hw, hb⟩ := Option.bind_eq_some_iff.1 h
    obtain ⟨_, ht, rfl⟩ := Option.map_eq_some_iff.1 hb
    obtain ⟨v, w', answers, hv, hf, rfl⟩ := turn_eq_some ht
    cases hw.symm.trans hv
    have hm : Worker.Moved c.timeout w .leave w' answers := Worker.moved_of_move hf
    cases hm.of_leave.2
    exact ⟨w, _, _, hw, hf, rfl⟩

theorem step_move {place : Nat} {m : WorkerMove} (h : c.step e = some c')
    (he : e.move? = some (place, m)) :
    ∃ w w' answers, c.workers[place]? = some w ∧ Worker.Moved c.timeout w m w' answers ∧
      c' = c.moved place m w' answers := by
  obtain ⟨w, w', answers, hw, hm, hc⟩ := step_turn h he
  exact ⟨w, w', answers, hw, Worker.moved_of_move hm, hc⟩

/-! ## The other steps -/

theorem request_eq (c : Coordinator) (token : Token) :
    c.request token =
      ((c.mapped.get? token.text).bind fun handle =>
        (c.enter token).send handle.mailbox (.subscribe c.requests.length)).getD
        ((c.enter token).spawn token c.requests.length) := rfl

theorem routed_request (c : Coordinator) (token : Token) :
    Routed (.request token) c (c.request token) := by
  rw [request_eq]
  generalize hj : Option.bind _ _ = joined
  cases joined with
  | some joined =>
    obtain ⟨handle, hk, hs⟩ := Option.bind_eq_some_iff.1 hj
    obtain ⟨w, hw, ho, rfl⟩ := send_eq_some hs
    exact .join rfl hk hw ho
  | none =>
    refine .spawn rfl fun handle w hk hw => ?_
    exact send_eq_none (Option.bind_eq_none_iff.1 hj handle hk) hw

theorem routes_tell (token : Token) {command : WorkerCommand} (he : e.Tells command) :
    Routes e c (c.tell token command).1 := by
  unfold tell
  split
  · next h =>
    obtain ⟨handle, _, hs⟩ := Option.bind_eq_some_iff.1 h
    obtain ⟨w, hw, ho, rfl⟩ := send_eq_some hs
    exact .single (.tell he hw ho)
  · exact .refl

theorem routes_shutdown (c : Coordinator) : Routes .shutdown c c.shutdown.1 := by
  unfold shutdown
  generalize c.mapped.toList = entries
  suffices ∀ count, Routes .shutdown c (entries.foldl _ (c, count)).1 from this 0
  induction entries generalizing c with
  | nil => exact fun _ => .refl
  | cons entry rest ih =>
    intro count
    rw [List.foldl_cons]
    cases hs : c.send entry.2.mailbox (.cancel shutdownReason) with
    | none =>
      simp only [hs]
      exact ih c count
    | some d =>
      simp only [hs]
      obtain ⟨w, hw, ho, rfl⟩ := send_eq_some hs
      exact .head (.tell .shutdown hw ho) (ih _ (count + 1))

/-- A step that is none of a worker hands something on or forgets a worker. -/
theorem step_routed (h : c.step e = some c') (he : e.move? = none) : Routes e c c' := by
  cases e with
  | start | read | resolve | expire | handle | hangUp | drain | leave | crash => cases he
  | request token =>
    cases h
    exact .single (routed_request c token)
  | available offset =>
    cases h
    exact routes_tell _ .available
  | cancel token reason =>
    cases h
    exact routes_tell _ .cancel
  | shutdown =>
    cases h
    exact routes_shutdown c
  | reap =>
    simp only [step, reap] at h
    split at h
    · cases h
    · next hx =>
      cases h
      exact .single (.reap rfl hx)

/-- Every step lets one worker take a step of its own, or none. -/
theorem step_cases (h : c.step e = some c') :
    (∃ place m w w' answers, e.move? = some (place, m) ∧
      c.workers[place]? = some w ∧ Worker.Moved c.timeout w m w' answers ∧
      c' = c.moved place m w' answers) ∨
    (e.move? = none ∧ Routes e c c') := by
  cases he : e.move? with
  | none => exact .inr ⟨rfl, step_routed h he⟩
  | some gm =>
    obtain ⟨place, m⟩ := gm
    obtain ⟨w, w', answers, hw, hm, hc⟩ := step_move h he
    exact .inl ⟨place, m, w, w', answers, rfl, hw, hm, hc⟩

/-- What every change keeps is kept by every step. -/
theorem keep_of_step {P : Coordinator → Prop} (h : c.step e = some c')
    (move : ∀ {place m w w' answers}, e.move? = some (place, m) →
      c.workers[place]? = some w → Worker.Moved c.timeout w m w' answers → P c →
      P (c.moved place m w' answers))
    (route : ∀ {d d'}, Routed e d d' → P d → P d') (hc : P c) : P c' := by
  rcases step_cases h with ⟨place, m, w, w', answers, he, hw, hm, rfl⟩ | ⟨-, hr⟩
  · exact move he hw hm hc
  · clear h
    induction hr with
    | refl => exact hc
    | tail _ hd ih => exact route hd ih

theorem timeout_step (h : c.step e = some c') : c'.timeout = c.timeout :=
  keep_of_step (P := fun d => d.timeout = c.timeout) h (fun _ _ _ h => h)
    (fun hr h => by cases hr <;> exact h) rfl

/-- Answers stay, and new ones come after them. -/
theorem answers_step (h : c.step e = some c') :
    c'.answers = c.answers ++ c'.answers.drop c.answers.length := by
  suffices c.answers <+: c'.answers by
    obtain ⟨more, hmore⟩ := this
    rw [← hmore, List.drop_left]
  refine keep_of_step (P := fun d => c.answers <+: d.answers) h ?_ ?_ List.prefix_rfl
  · exact fun _ _ _ h => h.trans (List.prefix_append _ _)
  · intro d d' hr h
    cases hr <;> exact h

/-! ## Steps that are due -/

/-- The event that lets a worker take a step. -/
def Event.ofMove (place : Nat) : WorkerMove → Event
  | .start now => .start place now
  | .read answer => .read place answer
  | .resolve => .resolve place
  | .expire now => .expire place now
  | .handle => .handle place
  | .hangUp => .hangUp place
  | .drain => .drain place
  | .leave => .leave place
  | .crash => .crash place

theorem Event.move?_ofMove (place : Nat) (m : WorkerMove) :
    (Event.ofMove place m).move? = some (place, m) := by
  cases m <;> rfl

theorem turn_of_move {place : Nat} {w w' : Worker} {answers : Answers}
    {f : Worker → Option (Worker × Answers)} (hw : c.workers[place]? = some w)
    (h : f w = some (w', answers)) : ∃ d, c.turn place f = some d := by
  simp [turn, hw, h]

/-- A coordinator lets a worker take any step that is due. -/
theorem step_ofMove {place : Nat} {m : WorkerMove} {w w' : Worker}
    {answers : Answers} (hw : c.workers[place]? = some w) (ht : w.Tidy)
    (h : w.move c.timeout m = some (w', answers)) :
    ∃ d, c.step (.ofMove place m) = some d := by
  obtain ⟨d, hd⟩ := turn_of_move (f := fun w => w.move c.timeout m) hw h
  cases m with
  | start | crash => exact ⟨_, Option.map_eq_some_iff.2 ⟨d, hd, rfl⟩⟩
  | read | resolve | expire | handle | drain => exact ⟨d, hd⟩
  | hangUp => cases ht.hangUp_eq_none.symm.trans h
  | leave =>
    exact ⟨_, Option.bind_eq_some_iff.2 ⟨w, hw, Option.map_eq_some_iff.2 ⟨d, hd, rfl⟩⟩⟩

end Coordinator

end PolicyGate
