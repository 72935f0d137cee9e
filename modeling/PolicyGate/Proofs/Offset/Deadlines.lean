import PolicyGate.Pipeline.Schedule
import PolicyGate.Proofs.Offset.Decided
import PolicyGate.Proofs.Offset.Placement

/-!
A coordinator on a clock, with notes of when its workers started, when the requests came and when
they were answered. Time goes on by whole milliseconds, and only while every worker rests. One
deadline holds for a worker from its start to its outcome (`OnTime`), whoever joins it later. Main
statements: what the scheduler leaves alone is at rest (`rests_of_workerEvent`), a run never has to
wait to come to rest (`Run.exists_settled`), and deadlines are met and never early
(`deadlines_kept`).
-/

namespace PolicyGate

open ListUpdate

theorem Schedule.le_roundUp (t : Instant) : t ≤ roundUp t := by
  show t.nanos ≤ (t.nanos + 999999) / 1000000 * 1000000
  omega

theorem Schedule.roundUp_of_dvd {t : Instant} (h : 1000000 ∣ t.nanos) : roundUp t = t := by
  obtain ⟨n⟩ := t
  simp only [roundUp, Instant.mk.injEq]
  have h : 1000000 ∣ n := h
  omega

theorem Duration.dvd_ofMillis (n : Nat) : 1000000 ∣ (ofMillis n).nanos :=
  Nat.dvd_mul_left 1000000 n

theorem Instant.le_plus (t : Instant) (d : Duration) : t ≤ t.plus d :=
  Nat.le_add_right t.nanos d.nanos

theorem Instant.dvd_plus {t : Instant} {d : Duration} (ht : 1000000 ∣ t.nanos)
    (hd : 1000000 ∣ d.nanos) : 1000000 ∣ (t.plus d).nanos := Nat.dvd_add ht hd

/-- A step that depends on the time is taken at a time. -/
def WorkerMove.IsAt (now : Instant) : WorkerMove → Prop
  | .start t => t = now
  | .expire t => t = now
  | _ => True

/-- When a worker started that takes a step. -/
def WorkerMove.begun (now : Instant) (started : Option Instant) : WorkerMove → Option Instant
  | .start _ => some now
  | _ => started

namespace Worker

variable {timeout : Duration} {now now' b deadline : Instant} {issued : List Instant}
  {started : Option Instant} {w w' : Worker} {m : WorkerMove} {answers : Answers} {request : Nat}

/-- The deadline of a worker that has started and has no outcome. -/
def armed? (w : Worker) : Option Instant :=
  match w.phase with
  | .reading deadline => some deadline
  | .found deadline _ => some deadline
  | .waiting deadline => some deadline
  | _ => none

theorem armed?_of_deadline? (h : w.deadline? = some deadline) : w.armed? = some deadline := by
  rcases phase_of_deadline? h with hp | hp <;> simp [armed?, hp]

/-! ## Workers at rest -/

/-- A worker has nothing to do until the store answers, a command comes or its timer ends. -/
structure Rests (timeout : Duration) (now : Instant) (w : Worker) : Prop where
  still : ∀ m ∈ [.start now, .resolve, .handle, .drain, .leave], w.move timeout m = none
  early : ∀ deadline, w.deadline? = some deadline → now < Schedule.roundUp deadline

/-- A worker that does not rest has a step to take. -/
theorem exists_own (h : ¬ w.Rests timeout now) :
    ∃ m ∈ ownSteps now, (w.move timeout m).isSome := by
  by_contra hn
  refine h ⟨fun m hm => ?_, fun deadline hd => ?_⟩
  · by_contra hs
    refine hn ⟨m, ?_, Option.isSome_iff_ne_none.2 hs⟩
    simp only [List.mem_cons, List.not_mem_nil, or_false] at hm
    rcases hm with rfl | rfl | rfl | rfl | rfl <;> simp [ownSteps]
  · by_contra hlt
    have hle : deadline ≤ now := Nat.le_trans (Schedule.le_roundUp deadline) (Nat.not_lt.1 hlt)
    exact hn ⟨.expire now, by simp [ownSteps], by simp [move, expire, hd, hle]⟩

/-- Who is not over and rests has a deadline to come. -/
theorem Rests.exists_deadline (H : w.Rests timeout now) (ho : w.isOver = false) :
    ∃ deadline, w.deadline? = some deadline ∧ now < Schedule.roundUp deadline := by
  cases hd : w.deadline? with
  | some deadline => exact ⟨deadline, rfl, H.early deadline hd⟩
  | none =>
    obtain ⟨m, hm, hs⟩ : ∃ m ∈ ownSteps now, (w.move timeout m).isSome :=
      exists_due ho (by simp [hd])
    suffices w.move timeout m = none by simp [this] at hs
    simp only [ownSteps, List.mem_cons, List.not_mem_nil, or_false] at hm
    rcases hm with rfl | rfl | rfl | hm
    · exact H.still _ (by simp)
    · exact H.still _ (by simp)
    · simp [move, expire, hd]
    · exact H.still _ (by simp [hm])

theorem Rests.phase_ne_spawned (H : w.Rests timeout now) : w.phase ≠ .spawned := by
  intro hp
  obtain ⟨deadline, hd, -⟩ := H.exists_deadline (by simp [isOver, hp])
  simp [deadline?, hp] at hd

theorem rests_of_reading (hp : w.phase = .reading deadline)
    (hlt : now < Schedule.roundUp deadline) : w.Rests timeout now where
  still := by simp [move, start, resolve, handle, drain, leave, hp]
  early := by simpa [deadline?, hp] using hlt

theorem rests_of_waiting (hp : w.phase = .waiting deadline) (hm : w.mailbox = [])
    (hlt : now < Schedule.roundUp deadline) : w.Rests timeout now where
  still := by simp [move, start, resolve, handle, drain, leave, hp, hm]
  early := by simpa [deadline?, hp] using hlt

theorem rests_of_isOver (h : w.isOver) : w.Rests timeout now := by
  by_contra hn
  obtain ⟨m, -, hm⟩ := exists_own hn
  obtain ⟨⟨w', answers⟩, hm⟩ := Option.isSome_iff_exists.1 hm
  simp [(moved_of_move hm).isOver_eq] at h

/-- The scheduler of a pipeline leaves a worker alone only if it rests. -/
theorem rests_of_workerEvent {s : Schedule} {place : Nat}
    (hw : s.pipeline.coordinator.workers[place]? = some w)
    (h : s.workerEvent place = none) : w.Rests timeout s.now := by
  simp only [Schedule.workerEvent, hw, Option.bind_some] at h
  have early {deadline : Instant} (hn : ¬ deadline ≤ s.now) : s.now < Schedule.roundUp deadline :=
    Nat.lt_of_lt_of_le (Nat.not_le.1 hn) (Schedule.le_roundUp deadline)
  cases hp : w.phase with
  | spawned | found | closing | drained => simp [hp] at h
  | reading deadline =>
    simp only [hp, deadline?, Option.any_some] at h
    split at h
    · cases h
    · split at h
      · cases h
      · next hn => exact rests_of_reading hp (early (by simpa using hn))
  | waiting deadline =>
    simp only [hp, deadline?, Option.any_some] at h
    split at h
    · cases h
    · next hm =>
      split at h
      · cases h
      · next hn => exact rests_of_waiting hp (by simpa using hm) (early (by simpa using hn))
  | ended | crashed => exact rests_of_isOver (by simp [isOver, hp])

/-! ## One deadline for all -/

theorem spawned_of_start {t : Instant} (h : w.move timeout (.start t) = some (w', answers)) :
    w.phase = .spawned := by
  simp only [move, start] at h
  split at h
  · assumption
  · cases h

theorem Moved.phase_ne_spawned (h : Moved timeout w m w' answers) : w'.phase ≠ .spawned := by
  cases h with
  | join hp | ignore hp => simp [hp]
  | _ => simp [drop]

/-- Only a start sets a deadline. -/
theorem Moved.armed?_cases (h : Moved timeout w m w' answers) (ha : w'.armed? = some deadline) :
    w.armed? = some deadline ∨ ∃ t, m = .start t ∧ w.phase = .spawned ∧
      t.after? timeout = some deadline := by
  cases h with
  | begin hp hd =>
    simp only [armed?, Option.some.injEq] at ha
    exact .inr ⟨_, rfl, hp, ha ▸ hd⟩
  | look hp | find hp | miss hp => exact .inl (by simpa [armed?, hp] using ha)
  | join | ignore => exact .inl ha
  | decide | close | closeUnknown | finish | die => simp [armed?, drop] at ha

theorem Decides.expire_of_timedOut {rest : List WorkerCommand} {token : Token} {after : Duration}
    (h : w.Decides timeout m rest (.error (.timedOut token after))) :
    ∃ t deadline, m = .expire t ∧ w.deadline? = some deadline ∧ deadline ≤ t := by
  cases h with
  | late hd hle => exact ⟨_, _, rfl, hd, hle⟩

/-- Only a worker whose outcome is that it timed out says so. -/
theorem Moved.outcome_of_timedOut {token : Token} {after : Duration} {answer : Nat × OffsetReply}
    (h : Moved timeout w m w' answers) (ha : answer ∈ answers)
    (ho : answer.2 = .error (.timedOut token after)) :
    w'.outcome = some (.error (.timedOut token after)) := by
  cases h with
  | begin | look | find | miss | join | ignore | closeUnknown => cases ha
  | decide =>
    obtain ⟨_, -, rfl⟩ := List.mem_map.1 ha
    exact congrArg some ho
  | close _ hknown =>
    obtain ⟨_, -, rfl⟩ := List.mem_map.1 ha
    exact hknown.trans (congrArg some ho)
  | finish | die =>
    obtain ⟨_, -, rfl⟩ := List.mem_map.1 ha
    cases ho

/-- A worker has one deadline from its start on: the timeout after it started, and not later than
the timeout after any of those came who wait for it. If it timed out, its deadline is over. -/
structure OnTime (timeout : Duration) (now : Instant) (issued : List Instant)
    (started : Option Instant) (w : Worker) : Prop where
  armed : ∀ deadline, w.armed? = some deadline →
    ∃ b, started = some b ∧ b ≤ now ∧ deadline = b.plus timeout
  late : ∀ token after, w.outcome = some (.error (.timedOut token after)) →
    ∃ b, started = some b ∧ b.plus timeout ≤ now
  fresh : w.phase = .spawned → ∀ request ∈ w.pending, issued[request]? = some now
  joined : ∀ deadline, w.armed? = some deadline → ∀ request ∈ w.pending,
    ∃ i, issued[request]? = some i ∧ deadline ≤ i.plus timeout

theorem onTime_new {token : Token} {generation : Nat} (h : issued[request]? = some now) :
    (new token generation request).OnTime timeout now issued started where
  armed := nofun
  late := nofun
  fresh _ r hr := by
    cases List.mem_singleton.1 hr
    exact h
  joined := nofun

namespace OnTime

/-- A step at the time it is keeps a worker on time. -/
theorem moved (H : w.OnTime timeout now issued started) (ht : w.Tidy)
    (hm : w.move timeout m = some (w', answers)) (hat : m.IsAt now) :
    w'.OnTime timeout now issued (m.begun now started) := by
  have h := moved_of_move hm
  have hpending : ∀ request ∈ w'.pending, request ∈ w.pending :=
    fun request hr => h.pending.subset (List.mem_append_right _ hr)
  -- a worker that starts has neither a deadline nor an outcome before
  have hstart : ∀ t, m = .start t → w.armed? = none ∧ w.outcome = none := by
    rintro t rfl
    have hp := spawned_of_start hm
    exact ⟨by simp [armed?, hp], ht.undecided (by simp [hasTerminated, hp])⟩
  have hbegun : (∀ t, m ≠ .start t) → m.begun now started = started := by
    intro hne
    cases m with
    | start t => exact absurd rfl (hne t)
    | _ => rfl
  constructor
  · intro deadline ha
    rcases h.armed?_cases ha with ha | ⟨t, rfl, -, hd⟩
    · rw [hbegun fun t ht => by simp [hstart t ht] at ha]
      exact H.armed deadline ha
    · cases hat
      exact ⟨now, rfl, Nat.le_refl _, (Instant.after?_eq_some_iff.1 hd).1⟩
  · intro token after ho
    rcases h.outcome_cases ho with ho | ⟨rest, hd⟩
    · rw [hbegun fun t ht => by simp [hstart t ht] at ho]
      exact H.late token after ho
    · obtain ⟨t, deadline, rfl, hdeadline, hle⟩ := hd.expire_of_timedOut
      cases hat
      obtain ⟨b, hb, -, rfl⟩ := H.armed deadline (armed?_of_deadline? hdeadline)
      exact ⟨b, hb, hle⟩
  · exact fun hp => absurd hp h.phase_ne_spawned
  · intro deadline ha request hr
    rcases h.armed?_cases ha with ha | ⟨t, rfl, hp, hd⟩
    · exact H.joined deadline ha request (hpending request hr)
    · cases hat
      refine ⟨now, H.fresh hp request (hpending request hr), ?_⟩
      rw [(Instant.after?_eq_some_iff.1 hd).1]
      exact Nat.le_refl _

/-- Later requests are no matter. -/
theorem issue (H : w.OnTime timeout now issued started) (i : Instant) :
    w.OnTime timeout now (issued ++ [i]) started where
  armed := H.armed
  late := H.late
  fresh hp request hr := by
    have h := H.fresh hp request hr
    rwa [List.getElem?_append_left (List.getElem?_eq_some_iff.1 h).1]
  joined deadline ha request hr := by
    obtain ⟨j, h, hle⟩ := H.joined deadline ha request hr
    exact ⟨j, by rwa [List.getElem?_append_left (List.getElem?_eq_some_iff.1 h).1], hle⟩

/-- Who joins a worker now is answered in time, as the worker has started by now. -/
theorem receive (H : w.OnTime timeout now issued started) {command : WorkerCommand}
    (hc : ∀ request ∈ WorkerCommand.requests [command], issued[request]? = some now) :
    (w.receive command).OnTime timeout now issued started where
  armed := H.armed
  late := H.late
  fresh hp request hr := by
    rw [pending_receive, List.mem_append] at hr
    exact hr.elim (H.fresh hp request) (hc request)
  joined deadline ha request hr := by
    rw [pending_receive, List.mem_append] at hr
    rcases hr with hr | hr
    · exact H.joined deadline ha request hr
    · obtain ⟨b, -, hb, rfl⟩ := H.armed deadline ha
      exact ⟨now, hc request hr, Nat.add_le_add_right hb _⟩

/-- Time may pass for a worker that rests. -/
theorem wait (H : w.OnTime timeout now issued started) (hr : w.Rests timeout now)
    (hle : now ≤ now') : w.OnTime timeout now' issued started where
  armed deadline ha := by
    obtain ⟨b, hb, hbn, hd⟩ := H.armed deadline ha
    exact ⟨b, hb, Nat.le_trans hbn hle, hd⟩
  late token after ho := by
    obtain ⟨b, hb, hbn⟩ := H.late token after ho
    exact ⟨b, hb, Nat.le_trans hbn hle⟩
  fresh hp := absurd hp hr.phase_ne_spawned
  joined := H.joined

end OnTime

end Worker

/-! ## A coordinator on a clock -/

namespace Coordinator

/-- An event that depends on the time happens at a time. -/
def Event.IsAt (now : Instant) (e : Event) : Prop :=
  ∀ place m, e.move? = some (place, m) → m.IsAt now

end Coordinator

/-- Who gave an answer, and when. -/
structure Given where
  answer : Nat × OffsetReply
  place : Nat
  moment : Instant

/-- A coordinator on a clock, with what happened when: the starts of its workers by place, and
the requests and the answers in their order. -/
structure Clocked where
  coordinator : Coordinator
  now : Instant
  started : Nat → Option Instant
  issued : List Instant
  given : List Given

namespace Clocked

/-- At the start of the clock. -/
def new (timeout : Duration) : Clocked := ⟨.new timeout, .start, fun _ => none, [], []⟩

/-- Notes what came of an event. -/
def after (c : Clocked) (e : Coordinator.Event) (d : Coordinator) : Clocked :=
  { c with
    coordinator := d
    started := match e.move? with
      | some (place, m) =>
        Function.update c.started place (m.begun c.now (c.started place))
      | none => c.started
    issued := match e with
      | .request _ => c.issued ++ [c.now]
      | _ => c.issued
    given := match e.move? with
      | some (place, _) => c.given ++
        (d.answers.drop c.coordinator.answers.length).map (⟨·, place, c.now⟩)
      | none => c.given }

/-- A length of time later. -/
def wait (c : Clocked) (elapsed : Duration) : Clocked := { c with now := c.now.plus elapsed }

/-- All workers rest. -/
def Settled (c : Clocked) : Prop :=
  ∀ w ∈ c.coordinator.workers, w.Rests c.coordinator.timeout c.now

/-- What happens on a clock: events at the time it is, with any answers of the store, and waiting
when there is nothing to do. -/
inductive Run (timeout : Duration) : Clocked → Prop
  | new : Run timeout (.new timeout)
  | act {c : Clocked} {e d} : Run timeout c → e.IsAt c.now → c.coordinator.step e = some d →
    Run timeout (c.after e d)
  | wait {c : Clocked} (n : Nat) : Run timeout c → c.Settled → Run timeout (c.wait (.ofMillis n))

/-- A worker does what it can do without the store. -/
def Works (c d : Clocked) : Prop :=
  ∃ place, ∃ m ∈ Worker.ownSteps c.now, ∃ d',
    c.coordinator.step (.ofMove place m) = some d' ∧
      d = c.after (.ofMove place m) d'

variable {timeout : Duration} {c c' d : Clocked}

theorem isAt_ofMove {now : Instant} {place : Nat} {m : WorkerMove}
    (hm : m ∈ Worker.ownSteps now) : (Coordinator.Event.ofMove place m).IsAt now := by
  intro g m' he
  rw [Coordinator.Event.move?_ofMove] at he
  cases he
  simp only [Worker.ownSteps, List.mem_cons, List.not_mem_nil, or_false] at hm
  rcases hm with rfl | rfl | rfl | rfl | rfl | rfl <;> trivial

theorem Run.works (hr : Run timeout c) (h : Relation.ReflTransGen Works c d) :
    Run timeout d := by
  induction h with
  | refl => exact hr
  | tail _ hd ih =>
    obtain ⟨place, m, hm, d', hs, rfl⟩ := hd
    exact ih.act (isAt_ofMove hm) hs

theorem Works.now_eq (h : Works c d) : d.now = c.now := by
  obtain ⟨place, m, -, d', -, rfl⟩ := h
  rfl

theorem Works.left_lt (h : Works c d) :
    (d.coordinator.workers.map Worker.left).sum < (c.coordinator.workers.map Worker.left).sum := by
  obtain ⟨place, m, -, d', hs, rfl⟩ := h
  obtain ⟨w, w', answers, hw, hm, rfl⟩ :=
    Coordinator.step_move hs (Coordinator.Event.move?_ofMove place m)
  exact sum_map_set_lt hw hm.left_lt

/-! ## What the notes say -/

/-- The notes are complete, and all workers and answers agree with them. -/
structure Punctual (c : Clocked) : Prop where
  mapping : c.coordinator.Mapping
  placement : c.coordinator.Placement
  whole : 1000000 ∣ c.now.nanos
  issued : c.issued.length = c.coordinator.requests.length
  started : ∀ place b, c.started place = some b → 1000000 ∣ b.nanos ∧
    ∃ w, c.coordinator.workers[place]? = some w ∧ w.phase ≠ .spawned
  workers : ∀ (place : Nat) w, c.coordinator.workers[place]? = some w →
    w.OnTime c.coordinator.timeout c.now c.issued (c.started place)
  given : c.given.map Given.answer = c.coordinator.answers
  late : ∀ x ∈ c.given, ∀ token after, x.answer.2 = .error (.timedOut token after) →
    ∃ b, c.started x.place = some b ∧ b.plus c.coordinator.timeout ≤ x.moment

theorem punctual_new (timeout : Duration) : (new timeout).Punctual where
  mapping := Coordinator.mapping_new timeout
  placement := Coordinator.placement_new timeout
  whole := ⟨0, rfl⟩
  issued := rfl
  started := nofun
  workers := nofun
  given := rfl
  late := nofun

namespace Punctual

variable {e : Coordinator.Event} {place : Nat} {m : WorkerMove} {w w' : Worker}
  {answers : Answers} {command : WorkerCommand}

theorem after_moved (he : e.move? = some (place, m)) :
    c.after e (c.coordinator.moved place m w' answers) =
      { coordinator := c.coordinator.moved place m w' answers
        now := c.now
        started := Function.update c.started place (m.begun c.now (c.started place))
        issued := c.issued
        given := c.given ++ answers.map (⟨·, place, c.now⟩) } := by
  cases e <;> cases he <;> simp [after, Coordinator.Event.move?, Coordinator.moved]

/-- When a worker started is noted once. -/
theorem started_mono (H : c.Punctual) (hw : c.coordinator.workers[place]? = some w)
    (hm : w.move c.coordinator.timeout m = some (w', answers)) {g : Nat} {b : Instant}
    (hb : c.started g = some b) :
    Function.update c.started place (m.begun c.now (c.started place)) g = some b := by
  by_cases hg : g = place
  · subst hg
    rw [Function.update_self]
    cases m with
    | start t =>
      obtain ⟨-, v, hv, hp⟩ := H.started _ _ hb
      cases hw.symm.trans hv
      exact absurd (Worker.spawned_of_start hm) hp
    | _ => exact hb
  · rw [Function.update_of_ne hg, hb]

/-- A step of a worker keeps the notes complete. -/
theorem moved {d : Coordinator} (H : c.Punctual) (hs : c.coordinator.step e = some d)
    (he : e.move? = some (place, m)) (hat : m.IsAt c.now) : (c.after e d).Punctual := by
  obtain ⟨w, w', answers, hw, hm, rfl⟩ := Coordinator.step_turn hs he
  have h := Worker.moved_of_move hm
  have hontime := (H.workers _ _ hw).moved (H.placement.tidy w (List.mem_of_getElem? hw)) hm hat
  rw [after_moved he]
  constructor
  case mapping => exact H.mapping.moved hw h
  case placement => exact H.placement.moved hw h
  case whole => exact H.whole
  case issued => exact H.issued
  case started =>
    intro g b hb
    by_cases hg : g = place
    · subst hg
      refine ⟨?_, w', getElem?_set_of_some hw w', h.phase_ne_spawned⟩
      simp only [Function.update_self] at hb
      cases m with
      | start t =>
        cases hb
        exact H.whole
      | _ => exact (H.started _ _ hb).1
    · simp only [Function.update_of_ne hg] at hb
      obtain ⟨hb, v, hv, hp⟩ := H.started _ _ hb
      exact ⟨hb, v, by rw [← hv]; exact List.getElem?_set_ne (Ne.symm hg), hp⟩
  case workers =>
    intro g v hv
    rcases getElem?_set_cases hv with ⟨rfl, rfl⟩ | ⟨hg, hv⟩
    · simp only [Function.update_self]
      exact hontime
    · simp only [Function.update_of_ne hg]
      exact H.workers g v hv
  case given =>
    simp [H.given, Coordinator.moved, Function.comp_def]
  case late =>
    intro x hx token after ho
    rcases List.mem_append.1 hx with hx | hx
    · obtain ⟨b, hb, hle⟩ := H.late x hx token after ho
      exact ⟨b, H.started_mono hw hm hb, hle⟩
    · obtain ⟨answer, ha, rfl⟩ := List.mem_map.1 hx
      simp only [Function.update_self]
      exact hontime.late token after (h.outcome_of_timedOut ha ho)

theorem started_told (H : c.Punctual) (hw : c.coordinator.workers[place]? = some w)
    (command : WorkerCommand) (g : Nat) (b : Instant) (hb : c.started g = some b) :
    1000000 ∣ b.nanos ∧ ∃ v, (c.coordinator.workers.set place (w.receive command))[g]? = some v ∧
      v.phase ≠ .spawned := by
  obtain ⟨hwhole, v, hv, hp⟩ := H.started g b hb
  refine ⟨hwhole, ?_⟩
  by_cases hg : place = g
  · subst hg
    cases hw.symm.trans hv
    exact ⟨_, getElem?_set_of_some hw _, hp⟩
  · exact ⟨v, by rw [List.getElem?_set_ne hg, hv], hp⟩

/-- What is no request changes no note. -/
theorem routed {d : Coordinator} (H : c.Punctual) (h : Coordinator.Routed e c.coordinator d)
    (hne : ∀ token, e ≠ .request token) : Punctual { c with coordinator := d } := by
  have hmapping := H.mapping.routed h
  have hplacement := H.placement.routed H.mapping h
  cases h with
  | join he => exact absurd he (hne _)
  | spawn he => exact absurd he (hne _)
  | tell he hw =>
    refine ⟨hmapping, hplacement, H.whole, H.issued, H.started_told hw _, ?_, H.given, H.late⟩
    intro g v hv
    rcases getElem?_set_cases hv with ⟨rfl, rfl⟩ | ⟨-, hv⟩
    · exact (H.workers _ _ hw).receive (by cases he <;> nofun)
    · exact H.workers g v hv
  | reap => exact ⟨hmapping, hplacement, H.whole, H.issued, H.started, H.workers, H.given, H.late⟩

/-- A new request is noted, and comes to a worker that answers it in time. -/
theorem request (H : c.Punctual) (token : Token) :
    (c.after (.request token) (c.coordinator.request token)).Punctual := by
  have h := Coordinator.routed_request c.coordinator token
  have hmapping := H.mapping.routed h
  have hplacement := H.placement.routed H.mapping h
  have hissued : (c.issued ++ [c.now])[c.coordinator.requests.length]? = some c.now := by
    rw [← H.issued, List.getElem?_concat_length]
  have hworkers := fun g v hv => (H.workers g v hv).issue c.now
  generalize c.coordinator.request token = d at *
  cases h with
  | @join _ place w he _ hw =>
    cases he
    constructor
    case mapping => exact hmapping
    case placement => exact hplacement
    case whole => exact H.whole
    case issued => simp [after, Coordinator.told, Coordinator.enter, H.issued]
    case started => exact H.started_told hw _
    case workers =>
      intro g v hv
      rcases getElem?_set_cases hv with ⟨rfl, rfl⟩ | ⟨-, hv⟩
      · refine (hworkers _ _ hw).receive fun request hr => ?_
        cases List.mem_singleton.1 hr
        exact hissued
      · exact hworkers g v hv
    case given => exact H.given
    case late => exact H.late
  | spawn he =>
    cases he
    constructor
    case mapping => exact hmapping
    case placement => exact hplacement
    case whole => exact H.whole
    case issued => simp [after, Coordinator.spawn, Coordinator.enter, H.issued]
    case started =>
      intro g b hb
      obtain ⟨hwhole, v, hv, hp⟩ := H.started g b hb
      refine ⟨hwhole, v, ?_, hp⟩
      rw [← hv]
      exact List.getElem?_append_left (List.getElem?_eq_some_iff.1 hv).1
    case workers =>
      intro g v hv
      rcases getElem?_concat_cases hv with hv | ⟨-, rfl⟩
      · exact hworkers g v hv
      · exact Worker.onTime_new hissued
    case given => exact H.given
    case late => exact H.late
  | tell he => cases he
  | reap he => cases he

theorem act {d : Coordinator} (H : c.Punctual) (hat : e.IsAt c.now)
    (hs : c.coordinator.step e = some d) : (c.after e d).Punctual := by
  cases he : e.move? with
  | some gm =>
    obtain ⟨place, m⟩ := gm
    exact H.moved hs he (hat place m he)
  | none =>
    by_cases hne : ∃ token, e = .request token
    · obtain ⟨token, rfl⟩ := hne
      cases hs
      exact H.request token
    · have hne : ∀ token, e ≠ .request token := fun token he => hne ⟨token, he⟩
      have hafter : ∀ d, c.after e d = { c with coordinator := d } := by
        intro d
        cases e with
        | request token => exact absurd rfl (hne token)
        | available | cancel | shutdown | reap => rfl
        | _ => cases he
      rw [hafter]
      have hr := Coordinator.step_routed hs he
      clear hs
      induction hr with
      | refl => exact H
      | tail _ hd ih => exact ih.routed hd hne

theorem wait {elapsed : Duration} (H : c.Punctual) (hs : c.Settled)
    (hwhole : 1000000 ∣ elapsed.nanos) : (c.wait elapsed).Punctual where
  mapping := H.mapping
  placement := H.placement
  whole := Instant.dvd_plus H.whole hwhole
  issued := H.issued
  started := H.started
  workers place w hw := (H.workers place w hw).wait
    (hs w (List.mem_of_getElem? hw)) (Instant.le_plus ..)
  given := H.given
  late := H.late

/-- In a settled state no deadline is over. -/
theorem lt_deadline (H : c.Punctual) (hwhole : 1000000 ∣ c.coordinator.timeout.nanos)
    (hs : c.Settled) (hw : c.coordinator.workers[place]? = some w) (ho : w.isOver = false) :
    ∃ b, c.started place = some b ∧ w.armed? = some (b.plus c.coordinator.timeout) ∧
      c.now < b.plus c.coordinator.timeout := by
  obtain ⟨deadline, hd, hlt⟩ := (hs w (List.mem_of_getElem? hw)).exists_deadline ho
  have harmed := Worker.armed?_of_deadline? hd
  obtain ⟨b, hb, -, rfl⟩ := (H.workers _ _ hw).armed deadline harmed
  rw [Schedule.roundUp_of_dvd (Instant.dvd_plus (H.started _ _ hb).1 hwhole)] at hlt
  exact ⟨b, hb, harmed, hlt⟩

end Punctual

theorem coordinator_wait (c : Clocked) (elapsed : Duration) :
    (c.wait elapsed).coordinator = c.coordinator := rfl

/-- The notes of every run are complete. -/
theorem Run.punctual (h : Run timeout c) : c.Punctual ∧ c.coordinator.timeout = timeout := by
  induction h with
  | new => exact ⟨punctual_new timeout, rfl⟩
  | act _ hat hs ih => exact ⟨ih.1.act hat hs, (Coordinator.timeout_step hs).trans ih.2⟩
  | wait n _ hs ih =>
    rw [coordinator_wait]
    exact ⟨ih.1.wait hs (Duration.dvd_ofMillis n), ih.2⟩

/-- The workers come to rest of their own, and it takes no time. -/
theorem Run.exists_settled (h : Run timeout c) :
    ∃ d, Relation.ReflTransGen Works c d ∧ d.Settled ∧ d.now = c.now := by
  induction hn : (c.coordinator.workers.map Worker.left).sum using Nat.strongRecOn
    generalizing c with
  | ind n ih =>
    by_cases hs : c.Settled
    · exact ⟨c, .refl, hs, rfl⟩
    · simp only [Settled, not_forall] at hs
      obtain ⟨w, hw, hrest⟩ := hs
      obtain ⟨place, hw⟩ := List.mem_iff_getElem?.1 hw
      obtain ⟨m, hm, hmove⟩ := Worker.exists_own hrest
      obtain ⟨⟨w', answers⟩, hmove⟩ := Option.isSome_iff_exists.1 hmove
      have htidy := h.punctual.1.placement.tidy w (List.mem_of_getElem? hw)
      obtain ⟨d', hs⟩ := Coordinator.step_ofMove hw htidy hmove
      have hworks : Works c (c.after (.ofMove place m) d') := ⟨place, m, hm, d', hs, rfl⟩
      obtain ⟨d, hd, hsettled, hnow⟩ :=
        ih _ (hn ▸ hworks.left_lt) (h.works (.single hworks)) rfl
      exact ⟨d, .head hworks hd, hsettled, hnow.trans hworks.now_eq⟩

/-- Whatever stores answer and when: once nothing is left to do at a time, no worker has passed its
deadline, and no request has waited for the timeout. -/
theorem Punctual.settled (H : c.Punctual) (hwhole : 1000000 ∣ c.coordinator.timeout.nanos)
    (hs : c.Settled) :
    (∀ (place : Nat) w b, c.coordinator.workers[place]? = some w →
      c.started place = some b → b.plus c.coordinator.timeout ≤ c.now → w.isOver) ∧
    ∀ request i, c.issued[request]? = some i → i.plus c.coordinator.timeout ≤ c.now →
      ∃ reply, c.coordinator.answersTo request = [reply] := by
  constructor
  · intro place w b hw hb hle
    by_contra ho
    obtain ⟨b', hb', -, hlt⟩ := H.lt_deadline hwhole hs hw (Bool.eq_false_iff.2 ho)
    cases hb.symm.trans hb'
    exact absurd hle (Nat.not_le.2 hlt)
  · intro request i hi hle
    have hlt : request < c.coordinator.requests.length :=
      H.issued ▸ (List.getElem?_eq_some_iff.1 hi).1
    rcases H.placement.answered_or_pending hlt with ha | ⟨place, w, hw, hr⟩
    · obtain ⟨⟨_, reply⟩, hanswer, rfl⟩ := List.mem_map.1 ha
      exact ⟨reply, H.placement.answersTo_eq hanswer⟩
    · -- who waits for a worker waits no longer than the worker
      cases ho : w.isOpen with
      | true =>
        obtain ⟨b, -, harmed, hlt⟩ :=
          H.lt_deadline hwhole hs hw (Worker.isOver_eq_false_of_isOpen ho)
        obtain ⟨j, hj, hle'⟩ := (H.workers _ _ hw).joined _ harmed request hr
        cases hi.symm.trans hj
        exact absurd (Nat.le_trans hle' hle) (Nat.not_le.2 hlt)
      | false =>
        rw [(H.placement.tidy w (List.mem_of_getElem? hw)).pending_eq_nil ho] at hr
        cases hr

/-- Deadlines are met and never early, however long look-ups take and whatever else happens. At any
time the workers can come to rest without waiting. Then none goes on that has had its time, and
every request has its answer for which the timeout is over, whether it got a worker of its own or
joined one. No answer says that the time is over before the worker that gives it has had its time.
-/
theorem deadlines_kept {n : Nat} (h : Run (.ofMillis n) c) :
    (∃ d, Relation.ReflTransGen Works c d ∧ Run (.ofMillis n) d ∧ d.Settled ∧ d.now = c.now) ∧
    (c.Settled → ∀ (place : Nat) w b, c.coordinator.workers[place]? = some w →
      c.started place = some b → b.plus (.ofMillis n) ≤ c.now → w.isOver) ∧
    c.issued.length = c.coordinator.requests.length ∧
    (c.Settled → ∀ request i, c.issued[request]? = some i → i.plus (.ofMillis n) ≤ c.now →
      ∃ reply, c.coordinator.answersTo request = [reply]) ∧
    c.given.map Given.answer = c.coordinator.answers ∧
    ∀ x ∈ c.given, ∀ token after, x.answer.2 = .error (.timedOut token after) →
      ∃ b, c.started x.place = some b ∧ b.plus (.ofMillis n) ≤ x.moment := by
  obtain ⟨H, ht⟩ := h.punctual
  have hsettled := H.settled (ht ▸ Duration.dvd_ofMillis n)
  have hlate := H.late
  rw [ht] at hsettled hlate
  obtain ⟨d, hworks, hrest, hnow⟩ := h.exists_settled
  exact ⟨⟨d, hworks, h.works hworks, hrest, hnow⟩, fun hs => (hsettled hs).1, H.issued,
    fun hs => (hsettled hs).2, H.given, hlate⟩

/-- A look-up never ends. One request joins the worker on the way and the next comes after the
worker is over. -/
theorem deadlines_kept_hanging_lookup : ∃ c, Run (.ofMillis 1000) c ∧ c.Settled ∧
    c.now = ⟨1900000000⟩ ∧ c.issued = [⟨0⟩, ⟨700000000⟩, ⟨1000000000⟩] ∧
    (∃ reply, c.coordinator.answersTo 1 = [reply]) ∧ c.coordinator.answersTo 2 = [] ∧
    ∀ x ∈ c.given, ∀ token after, x.answer.2 = .error (.timedOut token after) →
      ∃ b, c.started x.place = some b ∧ b.plus (.ofMillis 1000) ≤ x.moment := by
  have h : Run (.ofMillis 1000) _ := .new
  have h := h.act (e := .request ⟨"t"⟩) nofun rfl
  have h := h.act (e := .start 0 ⟨0⟩) (by rintro _ _ ⟨⟩; rfl) rfl
  have h := h.wait 700 (List.forall_mem_singleton.2 (Worker.rests_of_reading rfl (by decide)))
  have h := h.act (e := .request ⟨"t"⟩) nofun rfl
  have h := h.wait 300 (List.forall_mem_singleton.2 (Worker.rests_of_reading rfl (by decide)))
  have h := h.act (e := .expire 0 ⟨1000000000⟩) (by rintro _ _ ⟨⟩; rfl) rfl
  have h := h.act (e := .drain 0) (by rintro _ _ ⟨⟩; trivial) rfl
  have h := h.act (e := .leave 0) (by rintro _ _ ⟨⟩; trivial) rfl
  have h := h.act (e := .request ⟨"t"⟩) nofun rfl
  have h := h.act (e := .start 1 ⟨1000000000⟩) (by rintro _ _ ⟨⟩; rfl) rfl
  have h := h.wait 900 (List.forall_mem_cons.2 ⟨Worker.rests_of_isOver rfl,
    List.forall_mem_singleton.2 (Worker.rests_of_reading rfl (by decide))⟩)
  obtain ⟨-, -, -, hanswered, -, hlate⟩ := deadlines_kept h
  refine ⟨_, h, ?_, rfl, rfl, hanswered ?_ 1 _ rfl (by decide), rfl, hlate⟩
  all_goals exact List.forall_mem_cons.2 ⟨Worker.rests_of_isOver rfl,
    List.forall_mem_singleton.2 (Worker.rests_of_reading rfl (by decide))⟩

end Clocked

end PolicyGate
