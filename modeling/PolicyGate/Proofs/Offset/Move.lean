import PolicyGate.Offset.Coordinator

/-!
The steps of a worker seen alike. `Worker.move` takes any of them, and `Worker.Moved` lists what can
come of it: the worker goes on without an answer, it decides and answers its subscribers, it closes
its mailbox and answers those left in it, its run ends, or it dies. What every worker keeps in order
(`Tidy`) rules out that it ever lacks a sender or an outcome when it needs one. Main statements: a
step hands every request that the worker had to answer either on or out (`Moved.pending`), and all
answers of a step that is not fatal are the outcome of the worker (`Moved.outcome`).
-/

namespace PolicyGate

/-- A step of a worker. -/
inductive WorkerMove where
  | start (now : Instant)
  | read (answer : Except StoreError (Option TokenOffset))
  | resolve
  | expire (now : Instant)
  | handle
  | hangUp
  | drain
  | leave
  | crash

/-- Whether a worker dies of a step: it crashes, or the clock cannot hold its deadline. -/
def WorkerMove.isFatal (timeout : Duration) : WorkerMove → Bool
  | .start now => (now.after? timeout).isNone
  | .crash => true
  | _ => false

namespace WorkerCommand

@[simp] theorem requests_nil : requests [] = [] := rfl

@[simp] theorem requests_append (a b : List WorkerCommand) :
    requests (a ++ b) = requests a ++ requests b := List.filterMap_append

@[simp] theorem requests_subscribe (request : Nat) (rest : List WorkerCommand) :
    requests (.subscribe request :: rest) = request :: requests rest := rfl

@[simp] theorem requests_push (offset : TokenOffset) (rest : List WorkerCommand) :
    requests (.push offset :: rest) = requests rest := rfl

@[simp] theorem requests_cancel (reason : String) (rest : List WorkerCommand) :
    requests (.cancel reason :: rest) = requests rest := rfl

end WorkerCommand

namespace Worker

open WorkerCommand

/-- Takes a step. -/
def move (timeout : Duration) (w : Worker) : WorkerMove → Option (Worker × Answers)
  | .start now => w.start now timeout
  | .read answer => w.read answer
  | .resolve => w.resolve
  | .expire now => w.expire now timeout
  | .handle => w.handle
  | .hangUp => w.hangUp
  | .drain => w.drain
  | .leave => w.leave
  | .crash => w.crash

/-- Whether a worker has come to its outcome, or never will. -/
def hasTerminated (w : Worker) : Bool :=
  match w.phase with
  | .closing => true
  | .drained => true
  | .ended => true
  | .crashed => true
  | _ => false

/-- A worker has a sender of its mailbox until its run is over. It has an outcome just if it has
terminated, unless it died, and then holds no subscriber; once its mailbox is closed, nothing is
left in it. -/
structure Tidy (w : Worker) : Prop where
  sender : w.isOver = false → w.hasSender
  undecided : w.hasTerminated = false → w.outcome = none
  decided : w.hasTerminated → w.phase ≠ .crashed → w.outcome.isSome
  subscribers : w.hasTerminated → w.subscribers = []
  mailbox : w.isOpen = false → w.mailbox = []

/-- The worker with one more command in its mailbox. -/
def receive (w : Worker) (command : WorkerCommand) : Worker :=
  { w with mailbox := w.mailbox ++ [command] }

@[simp] theorem token_receive (w : Worker) (command : WorkerCommand) :
    (w.receive command).token = w.token := rfl

@[simp] theorem isOpen_receive (w : Worker) (command : WorkerCommand) :
    (w.receive command).isOpen = w.isOpen := rfl

@[simp] theorem pending_receive (w : Worker) (command : WorkerCommand) :
    (w.receive command).pending = w.pending ++ requests [command] := by
  simp [pending, receive]

theorem tidy_new (token : Token) (generation request : Nat) : (new token generation request).Tidy :=
  ⟨fun _ => rfl, fun _ => rfl, nofun, nofun, nofun⟩

theorem Tidy.receive {w : Worker} (h : w.Tidy) (ho : w.isOpen) (command : WorkerCommand) :
    (w.receive command).Tidy where
  sender := h.sender
  undecided := h.undecided
  decided := h.decided
  subscribers := h.subscribers
  mailbox := by simp [ho]

/-- A step that makes the outcome of a worker known, with the commands that it leaves in the
mailbox. -/
inductive Decides (timeout : Duration) (w : Worker) :
    WorkerMove → List WorkerCommand → OffsetReply → Prop
  | failed {deadline e} : w.phase = .found deadline (.error e) →
    Decides timeout w .resolve w.mailbox (.error (.lookup e))
  | late {deadline now} : w.deadline? = some deadline → deadline ≤ now →
    Decides timeout w (.expire now) w.mailbox (.error (.timedOut w.token timeout))
  | pushed {deadline offset rest} : w.phase = .waiting deadline →
    w.mailbox = .push offset :: rest → offset.token = w.token →
    Decides timeout w .handle rest (.ok offset)
  | cancelled {deadline reason rest} : w.phase = .waiting deadline →
    w.mailbox = .cancel reason :: rest →
    Decides timeout w .handle rest (.error (.cancelled w.token reason))
  | cutOff {deadline} : w.phase = .waiting deadline → w.mailbox = [] → w.hasSender = false →
    Decides timeout w .hangUp w.mailbox (.error (.workerLost w.token))

/-- What can come of a step. -/
inductive Moved (timeout : Duration) (w : Worker) : WorkerMove → Worker → Answers → Prop
  | begin {now deadline} : w.phase = .spawned → now.after? timeout = some deadline →
    Moved timeout w (.start now) { w with phase := .reading deadline } []
  | look {deadline answer} : w.phase = .reading deadline →
    Moved timeout w (.read answer) { w with phase := .found deadline answer } []
  | find {deadline offset} : w.phase = .found deadline (.ok (some offset)) →
    Moved timeout w .resolve
      { w with phase := .waiting deadline, mailbox := w.mailbox ++ [.push offset] } []
  | miss {deadline} : w.phase = .found deadline (.ok none) →
    Moved timeout w .resolve { w with phase := .waiting deadline } []
  | decide {m rest outcome} : w.Decides timeout m rest outcome →
    Moved timeout w m
      { w with phase := .closing, outcome := some outcome, mailbox := rest, subscribers := [] }
      (w.subscribers.map (·, outcome))
  | join {deadline request rest} : w.phase = .waiting deadline →
    w.mailbox = .subscribe request :: rest →
    Moved timeout w .handle
      { w with mailbox := rest, subscribers := w.subscribers ++ [request] } []
  | ignore {deadline offset rest} : w.phase = .waiting deadline →
    w.mailbox = .push offset :: rest → offset.token ≠ w.token →
    Moved timeout w .handle { w with mailbox := rest } []
  | close {outcome} : w.phase = .closing → w.outcome = some outcome →
    Moved timeout w .drain { w with phase := .drained, mailbox := [] }
      ((requests w.mailbox).map (·, outcome))
  | closeUnknown : w.phase = .closing → w.outcome = none →
    Moved timeout w .drain { w with phase := .drained } []
  | finish : w.phase = .drained → Moved timeout w .leave (w.drop .ended).1 (w.drop .ended).2
  | die {m} : w.isOver = false → m.isFatal timeout →
    Moved timeout w m (w.drop .crashed).1 (w.drop .crashed).2

variable {timeout : Duration} {w w' : Worker} {m : WorkerMove} {answers : Answers}

theorem moved_of_crash (h : w.crash = some (w', answers)) (hf : m.isFatal timeout) :
    Moved timeout w m w' answers := by
  unfold crash at h
  split at h
  · cases h
  · next ho =>
    cases h
    exact .die (Bool.eq_false_iff.2 ho) hf

/-- Whatever step a worker takes, it is one of those that are listed. -/
theorem moved_of_move (h : w.move timeout m = some (w', answers)) :
    Moved timeout w m w' answers := by
  cases m with
  | start now =>
    simp only [move, start] at h
    split at h
    · next hp =>
      split at h
      · next hd => cases h; exact .begin hp hd
      · next hd => exact moved_of_crash h (by simp [WorkerMove.isFatal, hd])
    · cases h
  | read answer =>
    simp only [move, read] at h
    split at h
    · next hp => cases h; exact .look hp
    · cases h
  | resolve =>
    simp only [move, resolve, deliver] at h
    split at h
    · next hp => cases h; exact .find hp
    · next hp => cases h; exact .miss hp
    · next hp => cases h; exact .decide (.failed hp)
    · cases h
  | expire now =>
    simp only [move, expire, deliver] at h
    split at h
    · next hd =>
      split at h
      · next hl => cases h; exact .decide (.late hd hl)
      · cases h
    · cases h
  | handle =>
    simp only [move, handle, deliver] at h
    split at h
    · next command rest hp hm =>
      cases command with
      | subscribe request => cases h; exact .join hp hm
      | push offset =>
        simp only at h
        split at h
        · next ht => cases h; exact .decide (.pushed hp hm ht)
        · next ht => cases h; exact .ignore hp hm ht
      | cancel reason => cases h; exact .decide (.cancelled hp hm)
    · cases h
  | hangUp =>
    simp only [move, hangUp, deliver] at h
    split at h
    · next hp hm =>
      split at h
      · cases h
      · next hs => cases h; exact .decide (.cutOff hp hm (by simpa using hs))
    · cases h
  | drain =>
    simp only [move, drain] at h
    split at h
    · next hp ho => cases h; exact .close hp ho
    · next hp ho => cases h; exact .closeUnknown hp ho
    · cases h
  | leave =>
    simp only [move, leave] at h
    split at h
    · next hp => cases h; exact .finish hp
    · cases h
  | crash => exact moved_of_crash h rfl

/-- A step that can come of a worker is due, unless the worker dies of it. -/
theorem move_of_moved (h : Moved timeout w m w' answers) (hf : m.isFatal timeout = false) :
    w.move timeout m = some (w', answers) := by
  cases h with
  | begin hp hd => simp [move, start, hp, hd]
  | look hp => simp [move, read, hp]
  | find hp | miss hp => simp [move, resolve, hp]
  | decide hd =>
    cases hd with
    | failed hp => simp [move, resolve, deliver, hp]
    | late hd hl => simp [move, expire, deliver, hd, hl]
    | pushed hp hb ht => simp [move, handle, deliver, hp, hb, ht]
    | cancelled hp hb => simp [move, handle, deliver, hp, hb]
    | cutOff hp hb hs => simp [move, hangUp, deliver, hp, hb, hs]
  | join hp hb => simp [move, handle, hp, hb]
  | ignore hp hb ht => simp [move, handle, hp, hb, ht]
  | close hp ho => simp [move, drain, hp, ho]
  | closeUnknown hp ho => simp [move, drain, hp, ho]
  | finish hp => simp [move, leave, hp]
  | die _ hfatal => rw [hf] at hfatal; cases hfatal

/-! ## What a decision leaves behind -/

/-- A worker decides only while it has no outcome. -/
theorem Decides.hasTerminated {rest : List WorkerCommand} {outcome : OffsetReply}
    (h : w.Decides timeout m rest outcome) : w.hasTerminated = false := by
  cases h with
  | failed hp | pushed hp | cancelled hp | cutOff hp => simp [Worker.hasTerminated, hp]
  | late hd =>
    unfold deadline? at hd
    split at hd
    · next hp => simp [Worker.hasTerminated, hp]
    · next hp => simp [Worker.hasTerminated, hp]
    · cases hd

/-- The command that decides is no request. -/
theorem Decides.requests_eq {rest : List WorkerCommand} {outcome : OffsetReply}
    (h : w.Decides timeout m rest outcome) : requests rest = requests w.mailbox := by
  cases h with
  | failed | late | cutOff => rfl
  | pushed _ hm | cancelled _ hm => simp [hm]

/-- A worker that waits has a sender of its mailbox itself, so that the mailbox is never found
closed. -/
theorem Tidy.hangUp_eq_none (h : w.Tidy) : w.hangUp = none := by
  unfold hangUp
  split
  · next hp _ => rw [if_pos (h.sender (by simp [isOver, hp]))]
  · rfl

theorem Decides.ne_workerLost {rest : List WorkerCommand} {outcome : OffsetReply}
    (h : w.Decides timeout m rest outcome) (ht : w.Tidy) (token : Token) :
    outcome ≠ .error (.workerLost token) := by
  cases h with
  | failed | late | pushed | cancelled => simp
  | cutOff hp _ hs =>
    rw [ht.sender (by simp [isOver, hp])] at hs
    cases hs

/-! ## What a step leaves behind -/

theorem hasTerminated_of_isOpen_eq_false (h : w.isOpen = false) : w.hasTerminated := by
  unfold isOpen at h
  unfold hasTerminated
  split at h <;> simp_all

theorem isOpen_of_not_hasTerminated (h : w.hasTerminated = false) : w.isOpen := by
  cases ho : w.isOpen with
  | true => rfl
  | false =>
    rw [hasTerminated_of_isOpen_eq_false ho] at h
    cases h

theorem isOver_eq_false_of_isOpen (h : w.isOpen) : w.isOver = false := by
  unfold isOpen at h
  unfold isOver
  split at h <;> simp_all

/-- A worker whose mailbox is closed has nobody to answer any more. -/
theorem Tidy.pending_eq_nil (h : w.Tidy) (ho : w.isOpen = false) : w.pending = [] := by
  rw [pending, h.subscribers (hasTerminated_of_isOpen_eq_false ho), h.mailbox ho]
  rfl

/-- A worker whose run is over takes no step. -/
theorem Moved.isOver_eq (h : Moved timeout w m w' answers) : w.isOver = false := by
  cases h with
  | decide hd => exact isOver_eq_false_of_isOpen (isOpen_of_not_hasTerminated hd.hasTerminated)
  | die ho => exact ho
  | begin hp | look hp | find hp | miss hp | join hp | ignore hp | close hp | closeUnknown hp
  | finish hp => simp [isOver, hp]

/-- A mailbox that is closed stays so. -/
theorem Moved.isOpen_of_isOpen (h : Moved timeout w m w' answers) (ho : w'.isOpen) :
    w.isOpen := by
  cases h with
  | decide hd => exact isOpen_of_not_hasTerminated hd.hasTerminated
  | begin hp | look hp | find hp | miss hp | join hp | ignore hp => simp [isOpen, hp]
  | close | closeUnknown | finish | die => cases ho

/-- A worker leaves with its mailbox closed, and drops what it holds. -/
theorem Moved.of_leave (h : Moved timeout w .leave w' answers) :
    w.phase = .drained ∧ (w', answers) = w.drop .ended := by
  cases h with
  | decide hd => cases hd
  | finish hp => exact ⟨hp, rfl⟩
  | die _ hf => cases hf

theorem Moved.isOver_of_leave (h : Moved timeout w .leave w' answers) : w'.isOver := by
  cases h.of_leave.2
  rfl

/-- A worker that leaves has nobody left to answer. -/
theorem Moved.answers_leave (h : Moved timeout w .leave w' answers) (ht : w.Tidy) :
    answers = [] := by
  obtain ⟨hp, heq⟩ := h.of_leave
  cases heq
  simp [ht.pending_eq_nil (by simp [isOpen, hp])]

theorem Moved.token_eq (h : Moved timeout w m w' answers) : w'.token = w.token := by
  cases h <;> rfl

theorem Moved.generation_eq (h : Moved timeout w m w' answers) : w'.generation = w.generation := by
  cases h <;> rfl

/-- A step loses no request and answers none twice. -/
theorem Moved.pending (h : Moved timeout w m w' answers) :
    (answers.map Prod.fst ++ w'.pending).Perm w.pending := by
  cases h with
  | begin | look | miss | closeUnknown => exact .refl _
  | find => simp [Worker.pending]
  | decide hd => simp [Worker.pending, hd.requests_eq, Function.comp_def]
  | join _ hm => simp [Worker.pending, hm]
  | ignore _ hm => simp [Worker.pending, hm]
  | close => simpa [Worker.pending, Function.comp_def] using List.perm_append_comm
  | finish | die => simp [Worker.pending, drop, Function.comp_def]

/-- Every step keeps a worker in order. -/
theorem Moved.tidy (h : Moved timeout w m w' answers) (ht : w.Tidy) : w'.Tidy := by
  have hsender := ht.sender h.isOver_eq
  cases h with
  | begin hp | look hp | find hp | miss hp | join hp | ignore hp =>
    have hundecided := ht.undecided (by simp [Worker.hasTerminated, hp])
    constructor <;> simp [Worker.hasTerminated, isOpen, hsender, hundecided, hp]
  | decide =>
    constructor <;> simp [Worker.hasTerminated, isOpen, hsender]
  | close hp ho =>
    have hsubscribers := ht.subscribers (by simp [Worker.hasTerminated, hp])
    constructor <;> simp [Worker.hasTerminated, hsender, ho, hsubscribers]
  | closeUnknown hp ho =>
    have hdecided := ht.decided (by simp [Worker.hasTerminated, hp]) (by simp [hp])
    simp [ho] at hdecided
  | finish hp =>
    have hdecided := ht.decided (by simp [Worker.hasTerminated, hp]) (by simp [hp])
    constructor <;> simp [Worker.hasTerminated, isOver, drop, hdecided]
  | die => constructor <;> simp [Worker.hasTerminated, isOver, drop]

/-- Who survives a step answers nothing but its outcome. -/
theorem Moved.outcome (h : Moved timeout w m w' answers) (ht : w.Tidy)
    (hm : m.isFatal timeout = false) : ∀ answer ∈ answers, w'.outcome = some answer.2 := by
  cases h with
  | begin | look | find | miss | join | ignore | closeUnknown => simp
  | decide =>
    intro answer ha
    obtain ⟨_, _, rfl⟩ := List.mem_map.1 ha
    rfl
  | close _ ho =>
    intro answer ha
    obtain ⟨_, _, rfl⟩ := List.mem_map.1 ha
    exact ho
  | finish hp =>
    -- whoever was left in the mailbox has been answered when it was closed
    simp [drop, ht.pending_eq_nil (by simp [isOpen, hp])]
  | die _ hf => rw [hm] at hf; cases hf

/-- An outcome is known from before the step, or the step decides it. -/
theorem Moved.outcome_cases {outcome : OffsetReply} (h : Moved timeout w m w' answers)
    (ho : w'.outcome = some outcome) :
    w.outcome = some outcome ∨ ∃ rest, w.Decides timeout m rest outcome := by
  cases h with
  | decide hd =>
    cases ho
    exact .inr ⟨_, hd⟩
  | _ => exact .inl ho

/-- An outcome never changes. -/
theorem Moved.outcome_eq {outcome : OffsetReply} (h : Moved timeout w m w' answers) (ht : w.Tidy)
    (ho : w.outcome = some outcome) : w'.outcome = some outcome := by
  cases h with
  | decide hd =>
    rw [ht.undecided hd.hasTerminated] at ho
    cases ho
  | _ => exact ho

end Worker

end PolicyGate
