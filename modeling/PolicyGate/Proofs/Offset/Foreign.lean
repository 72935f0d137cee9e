import PolicyGate.Proofs.Offset.Story

/-!
Offsets of other tokens, in the mailbox of a worker or from its store. A worker that is spared them
takes the same steps, apart from those that ignore them (`Moved.ownOnly`). Main statement: it comes
to the same phase with the same answers (`History.ownOnly`).
-/

namespace PolicyGate

open WorkerCommand

/-! ## What is left without them -/

/-- Whether a command is no offset of another token. -/
def WorkerCommand.concerns (token : Token) : WorkerCommand → Bool
  | .push offset => offset.token = token
  | _ => true

@[simp] theorem WorkerCommand.concerns_push (token : Token) (offset : TokenOffset) :
    concerns token (.push offset) = decide (offset.token = token) := rfl

@[simp] theorem WorkerCommand.concerns_subscribe (token : Token) (request : Nat) :
    concerns token (.subscribe request) := rfl

@[simp] theorem WorkerCommand.concerns_cancel (token : Token) (reason : String) :
    concerns token (.cancel reason) := rfl

/-- Offsets are no requests. -/
theorem WorkerCommand.requests_filter (token : Token) (commands : List WorkerCommand) :
    requests (commands.filter (concerns token)) = requests commands := by
  induction commands with
  | nil => rfl
  | cons command rest ih =>
    rw [List.filter_cons]
    cases command with
    | push offset =>
      split
      · exact ih
      · exact ih
    | subscribe request => exact congrArg (request :: ·) ih
    | cancel reason => exact ih

/-- The answer of a store without an offset of another token. -/
def ownAnswer (token : Token) (answer : Except StoreError (Option TokenOffset)) :
    Except StoreError (Option TokenOffset) :=
  answer.map (Option.filter fun offset => offset.token = token)

theorem ownAnswer_some (token : Token) (offset : TokenOffset) :
    ownAnswer token (.ok (some offset)) =
      .ok (if offset.token = token then some offset else none) := by
  simp [ownAnswer, Except.map, Option.filter]

def WorkerPhase.ownOnly (token : Token) : WorkerPhase → WorkerPhase
  | .found deadline answer => .found deadline (ownAnswer token answer)
  | phase => phase

def WorkerMove.ownOnly (token : Token) : WorkerMove → WorkerMove
  | .read answer => .read (ownAnswer token answer)
  | m => m

namespace Worker

/-- The worker without the offsets of other tokens. -/
def ownOnly (w : Worker) : Worker :=
  { w with phase := w.phase.ownOnly w.token, mailbox := w.mailbox.filter (concerns w.token) }

def Story.ownOnly (token : Token) (s : Story) : Story :=
  { s with
    earlier := s.earlier.filter (concerns token)
    answer := s.answer.map (ownAnswer token)
    later := s.later.filter (concerns token) }

variable {timeout : Duration} {token : Token} {first : Nat} {s : Story} {w w' : Worker}
  {m : WorkerMove} {answers : Answers} {command : WorkerCommand}

theorem deadline?_ownOnly (w : Worker) : w.ownOnly.deadline? = w.deadline? := by
  unfold ownOnly deadline? WorkerPhase.ownOnly
  cases w.phase <;> rfl

theorem phase_ownOnly {phase : WorkerPhase} (h : w.phase = phase) :
    w.ownOnly.phase = phase.ownOnly w.token := congrArg (WorkerPhase.ownOnly w.token) h

theorem mailbox_ownOnly {mailbox : List WorkerCommand} (h : w.mailbox = mailbox) :
    w.ownOnly.mailbox = mailbox.filter (concerns w.token) := congrArg (List.filter _) h

theorem isOpen_ownOnly (w : Worker) : w.ownOnly.isOpen = w.isOpen := by
  unfold Worker.ownOnly isOpen WorkerPhase.ownOnly
  cases w.phase <;> rfl

theorem pending_ownOnly (w : Worker) : w.ownOnly.pending = w.pending := by
  simp [pending, ownOnly, requests_filter]

theorem ownOnly_receive (h : command.concerns w.token) :
    (w.receive command).ownOnly = w.ownOnly.receive command := by
  simp [ownOnly, receive, h]

theorem ownOnly_receive_of_not (h : command.concerns w.token = false) :
    (w.receive command).ownOnly = w.ownOnly := by
  simp [ownOnly, receive, h]

theorem Story.ownOnly_send (h : command.concerns token) :
    (s.note (.send command)).ownOnly token = (s.ownOnly token).note (.send command) := by
  simp only [note, ownOnly]
  split <;> simp_all

theorem Story.ownOnly_send_of_not (h : command.concerns token = false) :
    (s.note (.send command)).ownOnly token = s.ownOnly token := by
  simp only [note, ownOnly]
  split <;> simp [h]

theorem Story.ownOnly_take (m : WorkerMove) :
    (s.note (.take m)).ownOnly token = (s.ownOnly token).note (.take (m.ownOnly token)) := by
  cases m <;> rfl

/-- No decision depends on an offset of another token. -/
theorem Decides.ownOnly {rest : List WorkerCommand} {outcome : OffsetReply}
    (h : w.Decides timeout m rest outcome) :
    w.ownOnly.Decides timeout (m.ownOnly w.token) (rest.filter (concerns w.token)) outcome := by
  cases h with
  | failed hp => exact .failed (phase_ownOnly hp)
  | late hd hl => exact .late ((deadline?_ownOnly w).trans hd) hl
  | pushed hp hb ht =>
    exact .pushed (phase_ownOnly hp) (by rw [mailbox_ownOnly hb]; simp [ht]) ht
  | cancelled hp hb => exact .cancelled (phase_ownOnly hp) (mailbox_ownOnly hb)
  | cutOff hp hb hs => exact .cutOff (phase_ownOnly hp) (mailbox_ownOnly hb) hs

/-- A worker that is spared the offsets of other tokens takes the same steps, apart from those that
ignore such an offset. -/
theorem Moved.ownOnly (h : Moved timeout w m w' answers) (hf : m.isFatal timeout = false) :
    (m = .handle ∧ w'.ownOnly = w.ownOnly ∧ answers = []) ∨
      Moved timeout w.ownOnly (m.ownOnly w.token) w'.ownOnly answers := by
  cases h with
  | begin hp hd => exact .inr (.begin (phase_ownOnly hp) hd)
  | look hp => exact .inr (.look (phase_ownOnly hp))
  | @find deadline offset hp =>
    right
    have hp := phase_ownOnly hp
    rw [WorkerPhase.ownOnly, ownAnswer_some] at hp
    by_cases ht : offset.token = w.token
    · rw [if_pos ht] at hp
      simpa [Worker.ownOnly, WorkerPhase.ownOnly, WorkerMove.ownOnly, ht] using Moved.find hp
    · -- the offset would be ignored, as if the store had none
      rw [if_neg ht] at hp
      simpa [Worker.ownOnly, WorkerPhase.ownOnly, WorkerMove.ownOnly, ht] using Moved.miss hp
  | miss hp => exact .inr (.miss (phase_ownOnly hp))
  | decide hd => exact .inr (.decide hd.ownOnly)
  | join hp hb => exact .inr (.join (phase_ownOnly hp) (mailbox_ownOnly hb))
  | ignore hp hb ht => exact .inl ⟨rfl, by simp [Worker.ownOnly, hb, ht], rfl⟩
  | close hp ho =>
    right
    rw [← requests_filter w.token]
    exact .close (phase_ownOnly hp) ho
  | closeUnknown hp ho => exact .inr (.closeUnknown (phase_ownOnly hp) ho)
  | finish hp =>
    right
    rw [drop, ← pending_ownOnly]
    exact .finish (phase_ownOnly hp)
  | die _ hfatal => rw [hf] at hfatal; cases hfatal

theorem isFatal_ownOnly (token : Token) (m : WorkerMove) :
    (m.ownOnly token).isFatal timeout = m.isFatal timeout := by
  cases m <;> rfl

/-- Offsets of other tokens change nothing: the worker that is spared them has the same phase and
has given the same answers. -/
theorem History.ownOnly (h : History timeout token first s w answers) (hp : w.phase ≠ .crashed) :
    History timeout token first (s.ownOnly token) w.ownOnly answers := by
  suffices History timeout w.token first (s.ownOnly w.token) w.ownOnly answers by
    rwa [h.token_eq] at this
  refine h.keep (P := fun s w answers => w.phase ≠ .crashed →
    History timeout w.token first (s.ownOnly w.token) w.ownOnly answers) (fun _ => .new) ?_ ?_ hp
  · intro s w answers command ih ho hp
    rw [token_receive]
    cases hc : command.concerns w.token with
    | true =>
      rw [Story.ownOnly_send hc, ownOnly_receive hc, ← List.append_nil answers]
      exact (ih hp).act nofun (act_send ((isOpen_ownOnly w).trans ho) command)
    | false =>
      rw [Story.ownOnly_send_of_not hc, ownOnly_receive_of_not hc]
      exact ih hp
  · intro s w answers m w' more ih _ hm hp
    have hf : m.isFatal timeout = false := hm.not_isFatal hp
    have ih := ih (phase_ne_crashed hm.isOver_eq)
    rw [hm.token_eq]
    rcases hm.ownOnly hf with ⟨rfl, heq, rfl⟩ | ho
    · rw [heq, List.append_nil]
      exact ih
    · have hf := (isFatal_ownOnly w.token m).trans hf
      rw [Story.ownOnly_take]
      refine ih.act (fun hc => ?_) (move_of_moved ho hf)
      rw [Act.take.inj hc] at hf
      cases hf

end Worker

end PolicyGate
