import PolicyGate.Proofs.Offset.Foreign
import PolicyGate.Proofs.Offset.Reaping

/-!
What comes of the requests to a worker. A worker takes only so many steps (`Moved.left_lt`), and
from its deadline on one is always due (`exists_due`). Main statements: all who asked get the
outcome of the first decisive event (`decided_by_first_event`), and every worker of a coordinator
has a history to which this applies, unless it died (`Reachable.recounts`).
-/

namespace PolicyGate

open WorkerCommand ListUpdate

/-- The message of a worker that ends names its token and its number, and says whether its outcome
is an offset. -/
theorem Coordinator.exits_leave {c c' : Coordinator} {place : Nat} {w : Worker}
    (hw : c.workers[place]? = some w) (ht : w.Tidy) (h : c.leave place = some c') :
    ∃ outcome, w.outcome = some outcome ∧
      c'.exits = c.exits ++ [⟨w.token, w.generation, outcome.isOk⟩] := by
  obtain ⟨w₀, w', answers, hw₀, hm, rfl⟩ := step_move (e := .leave place) h rfl
  cases hw.symm.trans hw₀
  obtain ⟨hp, heq⟩ := hm.of_leave
  cases heq
  obtain ⟨outcome, ho⟩ := Option.isSome_iff_exists.1
    (ht.decided (by simp [Worker.hasTerminated, hp]) (by simp [hp]))
  exact ⟨outcome, ho, by simp [moved, farewell, Worker.exit, ho]⟩

namespace Worker

variable {timeout : Duration} {token : Token} {first : Nat} {s : Story} {w w' : Worker}
  {m : WorkerMove} {answers : Answers} {command : WorkerCommand}

/-! ## How a worker comes to its end -/

/-- A bound on the steps that a worker has left. -/
def left (w : Worker) : Nat :=
  match w.phase with
  | .spawned => w.mailbox.length + 7
  | .reading _ => w.mailbox.length + 6
  | .found _ _ => w.mailbox.length + 5
  | .waiting _ => w.mailbox.length + 3
  | .closing => 2
  | .drained => 1
  | .ended => 0
  | .crashed => 0

theorem left_pos (h : w.isOver = false) : 0 < w.left := by
  unfold isOver at h
  unfold left
  split <;> simp_all

theorem Decides.two_lt_left {rest : List WorkerCommand} {outcome : OffsetReply}
    (h : w.Decides timeout m rest outcome) : 2 < w.left := by
  cases h with
  | failed hp | pushed hp | cancelled hp | cutOff hp => simp [left, hp]
  | late hd => rcases phase_of_deadline? hd with hp | hp <;> simp [left, hp]

/-- Every step leaves fewer steps to take. -/
theorem Moved.left_lt (h : Moved timeout w m w' answers) : w'.left < w.left := by
  cases h with
  | begin hp | look hp | find hp | miss hp => simp [left, hp]
  | decide hd => exact hd.two_lt_left
  | join hp hb | ignore hp hb => simp [left, hp, hb]
  | close hp | closeUnknown hp | finish hp => simp [left, drop, hp]
  | die ho => exact left_pos ho

/-- A worker that waits can handle the first command in its mailbox, whatever it is. -/
theorem exists_handle {deadline : Instant} {rest : List WorkerCommand}
    (hp : w.phase = .waiting deadline) (hb : w.mailbox = command :: rest) :
    (w.move timeout .handle).isSome := by
  suffices ∃ w' answers, Moved timeout w .handle w' answers by
    obtain ⟨w', answers, hm⟩ := this
    rw [move_of_moved hm rfl]
    rfl
  cases command with
  | subscribe request => exact ⟨_, _, .join hp hb⟩
  | push offset =>
    by_cases ht : offset.token = w.token
    · exact ⟨_, _, .decide (.pushed hp hb ht)⟩
    · exact ⟨_, _, .ignore hp hb ht⟩
  | cancel reason => exact ⟨_, _, .decide (.cancelled hp hb)⟩

/-- The steps that a worker can take at a time without an answer of the store. -/
def ownSteps (now : Instant) : List WorkerMove :=
  [.start now, .resolve, .expire now, .handle, .drain, .leave]

/-- A worker whose deadline is over does not depend on the store or on commands. -/
theorem exists_due {now : Instant} (ho : w.isOver = false)
    (hd : ∀ deadline, w.deadline? = some deadline → deadline ≤ now) :
    ∃ m ∈ ownSteps now, (w.move timeout m).isSome := by
  have due {m w' answers} (hm : m ∈ ownSteps now) (hf : m.isFatal timeout = false)
      (h : Moved timeout w m w' answers) : ∃ m ∈ ownSteps now, (w.move timeout m).isSome :=
    ⟨m, hm, by rw [move_of_moved h hf]; rfl⟩
  cases hp : w.phase with
  | spawned =>
    refine ⟨.start now, .head _, ?_⟩
    simp only [move, start, hp, crash, ho]
    split <;> rfl
  | reading deadline | waiting deadline =>
    have hw : w.deadline? = some deadline := by simp [deadline?, hp]
    exact due (by simp [ownSteps]) rfl (.decide (.late hw (hd deadline hw)))
  | found deadline answer =>
    rcases answer with e | (- | offset)
    · exact due (by simp [ownSteps]) rfl (.decide (.failed hp))
    · exact due (by simp [ownSteps]) rfl (.miss hp)
    · exact due (by simp [ownSteps]) rfl (.find hp)
  | closing =>
    cases ho : w.outcome with
    | some outcome => exact due (by simp [ownSteps]) rfl (.close hp ho)
    | none => exact due (by simp [ownSteps]) rfl (.closeUnknown hp ho)
  | drained => exact due (by simp [ownSteps]) rfl (.finish hp)
  | ended | crashed => simp [isOver, hp] at ho

/-! ## The outcome that the story tells -/

theorem cases_of_decision? {outcome : OffsetReply} (h : decision? token command = some outcome) :
    (∃ offset, outcome = .ok offset ∧ offset.token = token) ∨
      ∃ reason, outcome = .error (.cancelled token reason) := by
  cases command with
  | subscribe request => cases h
  | push offset =>
    simp only [decision?] at h
    split at h
    · next ht => cases h; exact .inl ⟨offset, rfl, ht⟩
    · cases h
  | cancel reason => cases h; exact .inr ⟨reason, rfl⟩

/-- A story tells of an offset of the token, a cancellation, a failed look-up or a timeout. -/
theorem Story.cases_of_verdict? {outcome : OffsetReply}
    (h : s.verdict? timeout token = some outcome) :
    (∃ offset, outcome = .ok offset ∧ offset.token = token) ∨
      (∃ reason, outcome = .error (.cancelled token reason)) ∨
      (∃ e, outcome = .error (.lookup e)) ∨ outcome = .error (.timedOut token timeout) := by
  unfold verdict? at h
  split at h
  · cases h; exact .inr (.inr (.inr rfl))
  · cases h; exact .inr (.inr (.inl ⟨_, rfl⟩))
  · obtain ⟨command, -, hc⟩ := List.exists_of_findSome?_eq_some h
    exact (cases_of_decision? hc).imp_right .inl
  · cases h

theorem Tidy.hasTerminated_eq (ht : w.Tidy) (hp : w.phase ≠ .crashed) :
    w.hasTerminated = w.outcome.isSome := by
  cases h : w.hasTerminated with
  | true => exact (ht.decided h hp).symm
  | false => simp [ht.undecided h]

section Agreement

variable {phase : WorkerPhase} {known : Option OffsetReply} {mailbox : List WorkerCommand}

theorem Agrees.phase_ne_crashed (H : Agrees timeout token s phase known mailbox) :
    phase ≠ .crashed := by
  rintro rfl
  cases H

/-- A worker knows its outcome, or neither has its deadline fired nor has it taken up an error. -/
theorem Agrees.outcome_cases (H : Agrees timeout token s phase known mailbox) :
    (∃ outcome, known = some outcome ∧ s.Settled timeout token outcome) ∨
      (known = none ∧ s.fired = none ∧ (s.resolved → ∃ found, s.answer = some (.ok found))) := by
  cases H with
  | spawned | reading | found => exact .inr ⟨rfl, rfl, nofun⟩
  | waiting => exact .inr ⟨rfl, rfl, fun _ => ⟨_, rfl⟩⟩
  | closing hs | drained hs | ended hs => exact .inl ⟨_, rfl, hs⟩

theorem Agrees.settled_of_outcome {outcome : OffsetReply}
    (H : Agrees timeout token s phase known mailbox) (ho : known = some outcome) :
    s.Settled timeout token outcome := by
  rcases H.outcome_cases with ⟨outcome', ho', hs⟩ | ⟨hn, -⟩
  · cases ho.symm.trans ho'
    exact hs
  · cases ho.symm.trans hn

end Agreement

/-- As long as a command that decides is not handled, there are commands to handle. -/
theorem Agrees.exists_handle {outcome : OffsetReply}
    (H : Agrees timeout token s w.phase w.outcome w.mailbox)
    (hv : s.verdict? timeout token = some outcome) (hr : s.resolved) (ho : w.outcome = none) :
    (w.move timeout .handle).isSome := by
  rw [ho] at H
  cases hp : w.phase with
  | waiting deadline =>
    cases hb : w.mailbox with
    | cons command rest => exact Worker.exists_handle hp hb
    | nil =>
      rw [hp, hb] at H
      cases H with | waiting handled hsplit hnone
      simp only [Story.verdict?] at hv
      rw [hsplit, List.append_nil, List.findSome?_eq_none_iff.2 hnone] at hv
      cases hv
  | spawned | reading | found =>
    rw [hp] at H
    cases H
    cases hr
  | closing | drained | ended | crashed =>
    rw [hp] at H
    cases H

theorem Agrees.deadline_eq {deadline : Instant} {known : Option OffsetReply}
    (H : Agrees timeout token s w.phase known w.mailbox) (hd : w.deadline? = some deadline) :
    ∃ begun, s.begun = some begun ∧ deadline = begun.plus timeout := by
  rcases phase_of_deadline? hd with hp | hp
  all_goals
    rw [hp] at H
    cases H
    exact ⟨_, rfl, rfl⟩

/-- The outcome of a worker is that of the first decisive event. -/
structure Decided (timeout : Duration) (token : Token) (s : Story) (w : Worker) : Prop where
  /-- The outcome is what the story tells: the deadline fired, the look-up failed, or else the first
  of all commands that decides, with the offset of the store between the earlier and the later. -/
  first : ∀ outcome, w.outcome = some outcome → s.verdict? timeout token = some outcome
  /-- A deadline that fires finds no outcome, and is the outcome. -/
  late : s.fired.isSome → w.outcome = some (.error (.timedOut token timeout))
  fires : ∀ now, s.fired = some now → ∃ begun, s.begun = some begun ∧ begun.plus timeout ≤ now
  /-- A look-up that fails is the outcome as soon as the worker takes it up. -/
  failed : ∀ e, s.answer = some (.error e) →
    s.fired = none ∧ (s.resolved → w.outcome = some (.error (.lookup e)))
  /-- A command that decides is handled in its turn, unless the deadline comes first. -/
  due : ∀ outcome, s.verdict? timeout token = some outcome → s.resolved → w.outcome = none →
    (w.move timeout .handle).isSome
  own : ∀ offset, w.outcome = some (.ok offset) → offset.token = token
  /-- A worker that has terminated has an outcome to tell. -/
  known : w.hasTerminated = w.outcome.isSome
  /-- No worker fails for want of a mailbox. -/
  lost : ∀ other, w.outcome ≠ some (.error (.workerLost other))

/-- All who ask a worker get its outcome, and nothing else. -/
structure Served (first : Nat) (s : Story) (w : Worker) (answers : Answers) : Prop where
  accounted : (answers.map Prod.fst ++ w.pending).Perm (first :: requests s.sent)
  alike : ∀ answer ∈ answers, w.outcome = some answer.2
  ended : w.isOpen = false → ∃ outcome, w.outcome = some outcome ∧
    answers.Perm ((first :: requests s.sent).map (·, outcome))
  /-- No one is turned away before the mailbox is closed. -/
  accepts : w.phase ≠ .drained → w.phase ≠ .ended → ∀ command, (w.send command).isSome

/-- A worker comes to its end, and says so. -/
structure Concludes (timeout : Duration) (token : Token) (s : Story) (w : Worker) : Prop where
  /-- From the deadline on, some step is due that needs neither the store nor a command. -/
  due : w.isOver = false → ∀ now, (∀ begun, s.begun = some begun → begun.plus timeout ≤ now) →
    ∃ m ∈ ownSteps now, (w.move timeout m).isSome
  fewer : ∀ m w' answers, w.move timeout m = some (w', answers) → w'.left < w.left
  /-- The mailbox is never found closed from outside. -/
  attached : w.move timeout .hangUp = none
  /-- When the mailbox is closed there is an outcome, and all who are left in it get it. -/
  answers : ∀ w' more, w.move timeout .drain = some (w', more) →
    ∃ outcome, w.outcome = some outcome ∧ more = (requests w.mailbox).map (·, outcome)
  /-- Nobody is dropped at the end. -/
  empty : ∀ w' more, w.move timeout .leave = some (w', more) → more = []
  /-- The message about the end says that an offset was delivered just if the outcome is one. -/
  told : ∀ (c c' : Coordinator) place, c.workers[place]? = some w → c.leave place = some c' →
    ∃ outcome, w.outcome = some outcome ∧
      c'.exits = c.exits ++ [⟨token, w.generation, outcome.isOk⟩]

/-- The outcome of a worker is what its story tells. -/
theorem History.decided (h : History timeout token first s w answers) (hfit : s.Fits timeout) :
    Decided timeout token s w := by
  have H := h.agrees hfit
  have hc := H.outcome_cases
  constructor
  case first => exact fun _ ho => (H.settled_of_outcome ho).verdict
  case late =>
    intro hf
    rcases hc with ⟨outcome, ho, hs⟩ | ⟨-, hn, -⟩
    · obtain ⟨now, hnow⟩ := Option.isSome_iff_exists.1 hf
      rw [ho, ← hs.verdict, Story.verdict?, hnow]
    · simp [hn] at hf
  case fires =>
    intro now hnow
    rcases hc with ⟨_, -, hs⟩ | ⟨-, hn, -⟩
    · exact hs.due now hnow
    · cases hn.symm.trans hnow
  case failed =>
    intro e he
    rcases hc with ⟨outcome, ho, hs⟩ | ⟨-, hn, hfound⟩
    · have hn := hs.failed e he
      refine ⟨hn, fun _ => ?_⟩
      rw [ho, ← hs.verdict, Story.verdict?, hn, he]
    · refine ⟨hn, fun hr => ?_⟩
      obtain ⟨found, hok⟩ := hfound hr
      cases he.symm.trans hok
  case due => exact fun _ => H.exists_handle
  case own =>
    intro offset ho
    rcases Story.cases_of_verdict? (H.settled_of_outcome ho).verdict with
      ⟨_, heq, ht⟩ | ⟨_, heq⟩ | ⟨_, heq⟩ | heq
    · cases heq
      exact ht
    all_goals cases heq
  case known => exact h.tidy.hasTerminated_eq H.phase_ne_crashed
  case lost =>
    intro lost ho
    rcases Story.cases_of_verdict? (H.settled_of_outcome ho).verdict with
      ⟨_, heq, -⟩ | ⟨_, heq⟩ | ⟨_, heq⟩ | heq
    all_goals cases heq

theorem isOpen_of_ne (hc : w.phase ≠ .crashed) (hd : w.phase ≠ .drained) (he : w.phase ≠ .ended) :
    w.isOpen := by
  unfold isOpen
  split <;> first | rfl | contradiction

theorem eq_map_of_alike {outcome : OffsetReply} (h : ∀ answer ∈ answers, answer.2 = outcome) :
    answers = (answers.map Prod.fst).map (·, outcome) := by
  rw [List.map_map]
  refine (List.map_id answers).symm.trans (List.map_congr_left fun answer ha => ?_)
  rw [← h answer ha]
  rfl

/-- Every request that a worker took gets its outcome. -/
theorem History.served (h : History timeout token first s w answers) (hfit : s.Fits timeout) :
    Served first s w answers := by
  have hp := (h.agrees hfit).phase_ne_crashed
  refine ⟨h.accounted, h.answer_eq hp, fun hover => ?_, fun hd he command => ?_⟩
  · have hperm := h.accounted
    rw [h.tidy.pending_eq_nil hover, List.append_nil] at hperm
    obtain ⟨outcome, ho⟩ := Option.isSome_iff_exists.1
      (h.tidy.decided (hasTerminated_of_isOpen_eq_false hover) hp)
    refine ⟨outcome, ho, ?_⟩
    rw [eq_map_of_alike fun answer ha => Option.some.inj ((h.answer_eq hp answer ha).symm.trans ho)]
    exact hperm.map _
  · simp [send, isOpen_of_ne hp hd he]

/-- A worker that closes its mailbox has an outcome for those who are left in it. -/
theorem Moved.answers_drain (h : Moved timeout w .drain w' answers) (ht : w.Tidy) :
    ∃ outcome, w.outcome = some outcome ∧ answers = (requests w.mailbox).map (·, outcome) := by
  cases h with
  | decide hd => cases hd
  | close _ ho => exact ⟨_, ho, rfl⟩
  | closeUnknown hp ho =>
    have hdecided := ht.decided (by simp [hasTerminated, hp]) (by simp [hp])
    simp [ho] at hdecided
  | die _ hf => cases hf

/-- A worker comes to its end, and nobody is left behind. -/
theorem History.concludes (h : History timeout token first s w answers) (hfit : s.Fits timeout) :
    Concludes timeout token s w where
  due ho now hnow := by
    refine exists_due ho fun deadline hd => ?_
    obtain ⟨begun, hb, rfl⟩ := (h.agrees hfit).deadline_eq hd
    exact hnow begun hb
  fewer m w' answers hm := (moved_of_move hm).left_lt
  attached := h.tidy.hangUp_eq_none
  answers _ _ hm := (moved_of_move hm).answers_drain h.tidy
  empty _ _ hm := (moved_of_move hm).answers_leave h.tidy
  told c c' place hw hl := by
    rw [← h.token_eq]
    exact Coordinator.exits_leave hw h.tidy hl

/-- Whatever a worker is sent, and whenever its store answers: as long as the clock can hold its
deadline, all who ask it get one outcome, which is that of the first decisive event; offsets of
other tokens could as well not have been sent. -/
theorem decided_by_first_event (h : History timeout token first s w answers)
    (hfit : s.Fits timeout) :
    Decided timeout token s w ∧ Served first s w answers ∧ Concludes timeout token s w ∧
      History timeout token first (s.ownOnly token) w.ownOnly answers :=
  ⟨h.decided hfit, h.served hfit, h.concludes hfit,
    h.ownOnly (h.agrees hfit).phase_ne_crashed⟩

/-- An offset is pushed before the store is asked, and the worker is cancelled after the store has
found another one. -/
theorem decided_by_early_push :
    ∃ s w answers, History (.ofMillis 1500) ⟨"t"⟩ 0 s w answers ∧ s.Fits (.ofMillis 1500) ∧
      Decided (.ofMillis 1500) ⟨"t"⟩ s w ∧ Served 0 s w answers ∧
      Concludes (.ofMillis 1500) ⟨"t"⟩ s w ∧
      History (.ofMillis 1500) ⟨"t"⟩ 0 (s.ownOnly ⟨"t"⟩) w.ownOnly answers ∧
      answers = [(0, .ok ⟨⟨"t"⟩, 5⟩), (1, .ok ⟨⟨"t"⟩, 5⟩)] := by
  have h : History (.ofMillis 1500) ⟨"t"⟩ 0 .empty (new ⟨"t"⟩ 1 0) [] := .new
  have h := h.act (a := .send (.push ⟨⟨"u"⟩, 9⟩)) nofun rfl
  have h := h.act (a := .send (.push ⟨⟨"t"⟩, 5⟩)) nofun rfl
  have h := h.act (a := .take (.start .start)) nofun rfl
  have h := h.act (a := .take (.read (.ok (some ⟨⟨"t"⟩, 7⟩)))) nofun rfl
  have h := h.act (a := .take .resolve) nofun rfl
  have h := h.act (a := .send (.cancel "late")) nofun rfl
  have h := h.act (a := .take .handle) nofun rfl
  have h := h.act (a := .take .handle) nofun rfl
  have h := h.act (a := .send (.subscribe 1)) nofun rfl
  have h := h.act (a := .take .drain) nofun rfl
  have hfit (s : Story) (hs : s.begun = some .start) : s.Fits (.ofMillis 1500) := fun now hnow => by
    cases hs.symm.trans hnow
    rfl
  obtain ⟨hdecided, hserved, hconcludes, hown⟩ := decided_by_first_event h (hfit _ rfl)
  exact ⟨_, _, _, h, hfit _ rfl, hdecided, hserved, hconcludes, hown, rfl⟩

/-- A worker whose deadline the clock cannot hold dies as it starts. -/
theorem lost_at_start :
    ∃ s w, History (.ofSeconds 10000000000000000000) ⟨"t"⟩ 0 s w
        [(0, .error (.workerLost ⟨"t"⟩))] ∧
      w.phase = .crashed ∧ ¬ Decided (.ofSeconds 10000000000000000000) ⟨"t"⟩ s w := by
  have h : History (.ofSeconds 10000000000000000000) ⟨"t"⟩ 0 .empty (new ⟨"t"⟩ 1 0) [] := .new
  have h := h.act (a := .take (.start .start)) nofun rfl
  exact ⟨_, _, h, rfl, fun hdecided => by cases hdecided.known⟩

end Worker

/-! ## The workers of a coordinator -/

namespace Coordinator

open Worker (History)

/-- The workers of a coordinator that did not die have histories. -/
def Recounts (c : Coordinator) : Prop :=
  ∀ (place : Nat) w, c.workers[place]? = some w →
    w.phase = .crashed ∨ ∃ first s answers, History c.timeout w.token first s w answers

variable {c c' : Coordinator} {e : Event} {place : Nat} {w w' : Worker}

/-- A step of a worker goes on with its history, unless it is a crash. -/
theorem Recounts.turn {m : WorkerMove} {answers : Answers} (H : Recounts c)
    (hw : c.workers[place]? = some w) (hm : w.move c.timeout m = some (w', answers)) :
    Recounts (c.moved place m w' answers) := by
  intro g v hv
  rcases getElem?_set_cases hv with ⟨rfl, rfl⟩ | ⟨-, hv⟩
  · have hmoved := Worker.moved_of_move hm
    by_cases hc : m = .crash
    · exact .inl (hmoved.phase_of_isFatal (hc ▸ rfl))
    · rcases H _ _ hw with hp | ⟨first, s, before, h⟩
      · exact absurd hp (Worker.phase_ne_crashed hmoved.isOver_eq)
      · rw [hmoved.token_eq]
        exact .inr ⟨first, _, _, h.act (a := .take m) (fun ha => hc (Worker.Act.take.inj ha)) hm⟩
  · exact H g v hv

theorem Recounts.told (H : Recounts c) (hw : c.workers[place]? = some w) (ho : w.isOpen)
    (command : WorkerCommand) : Recounts (c.told place w command) := by
  intro g v hv
  rcases getElem?_set_cases hv with ⟨rfl, rfl⟩ | ⟨-, hv⟩
  · rcases H _ _ hw with hp | ⟨first, s, before, h⟩
    · exact absurd hp (Worker.phase_ne_crashed (Worker.isOver_eq_false_of_isOpen ho))
    · exact .inr ⟨first, _, _, h.act (a := .send command) nofun (Worker.act_send ho command)⟩
  · exact H g v hv

theorem Recounts.spawn (H : Recounts c) (token : Token) (request : Nat) :
    Recounts (c.spawn token request) := by
  intro g v hv
  rcases getElem?_concat_cases hv with hv | ⟨-, rfl⟩
  · exact H g v hv
  · exact .inr ⟨request, _, _, .new⟩

theorem Recounts.routed (H : Recounts c) (h : Routed e c c') : Recounts c' := by
  have enter (token : Token) : Recounts (c.enter token) := H
  cases h with
  | join _ _ hw ho => exact (enter _).told hw ho _
  | spawn => exact (enter _).spawn _ _
  | tell _ hw ho => exact H.told hw ho _
  | reap => exact H

/-- Whatever a coordinator does, in any order: its workers have histories, unless they died. -/
theorem Reachable.recounts {timeout : Duration} (h : Reachable timeout c) : Recounts c := by
  induction h with
  | new => exact nofun
  | @step c c' e _ h ih =>
    cases he : e.move? with
    | some gm =>
      obtain ⟨w, w', answers, hw, hm, rfl⟩ := step_turn h he
      exact ih.turn hw hm
    | none =>
      have hr := step_routed h he
      clear h
      induction hr with
      | refl => exact ih
      | tail _ hd ih => exact ih.routed hd

end Coordinator

end PolicyGate
