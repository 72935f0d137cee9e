import PolicyGate.Proofs.Offset.Move

/-!
The story of a worker: what it was sent before and after it took up the answer of its store, what
this answer was, and when its deadline fired. The story alone says which outcome comes first
(`Story.verdict?`). Main statements: whatever order things happen in, every request is with the
worker or has its answer (`History.accounted`), and a worker whose deadline the clock holds agrees
with its story (`History.agrees`).
-/

namespace PolicyGate.Worker

open WorkerCommand

/-- What happens to a worker: it is sent a command, or it takes a step. -/
inductive Act where
  | send (command : WorkerCommand)
  | take (m : WorkerMove)

def act (timeout : Duration) (w : Worker) : Act → Option (Worker × Answers)
  | .send command => (w.send command).map (·, [])
  | .take m => w.move timeout m

/-- What has happened to a worker. -/
structure Story where
  /-- when it started to run -/
  begun : Option Instant
  /-- the commands that it was sent before it took up the answer of its store -/
  earlier : List WorkerCommand
  /-- the answer of its store -/
  answer : Option (Except StoreError (Option TokenOffset))
  /-- whether it has taken up the answer -/
  resolved : Bool
  /-- the commands that it was sent afterwards -/
  later : List WorkerCommand
  /-- when its deadline fired -/
  fired : Option Instant

/-- The outcome that a command gives to the worker of a token, if it decides. -/
def decision? (token : Token) : WorkerCommand → Option OffsetReply
  | .subscribe _ => none
  | .push offset => if offset.token = token then some (.ok offset) else none
  | .cancel reason => some (.error (.cancelled token reason))

namespace Story

def empty : Story := ⟨none, [], none, false, [], none⟩

/-- The story with one more act. -/
def note (s : Story) : Act → Story
  | .send command =>
    if s.resolved then { s with later := s.later ++ [command] }
    else { s with earlier := s.earlier ++ [command] }
  | .take (.start now) => { s with begun := some now }
  | .take (.read answer) => { s with answer := some answer }
  | .take .resolve => { s with resolved := true }
  | .take (.expire now) => { s with fired := some now }
  | .take _ => s

def sent (s : Story) : List WorkerCommand := s.earlier ++ s.later

/-- The outcome of the first decisive event. A deadline that fired was first; a look-up that failed
comes before everything that was sent; an offset that was found stands between what was sent before
and after it. -/
def verdict? (s : Story) (timeout : Duration) (token : Token) : Option OffsetReply :=
  match s.fired, s.answer with
  | some _, _ => some (.error (.timedOut token timeout))
  | none, some (.error e) => some (.error (.lookup e))
  | none, some (.ok found) =>
    (s.earlier ++ found.toList.map WorkerCommand.push ++ s.later).findSome? (decision? token)
  | none, none => none

end Story

/-- A worker of a token with its story and the answers that it has given, from its first request on.
It may be sent anything, and takes its steps in any order; nothing but its own clock kills it. -/
inductive History (timeout : Duration) (token : Token) (first : Nat) :
    Story → Worker → Answers → Prop
  | new {generation} : History timeout token first .empty (new token generation first) []
  | act {s w answers a w' more} : History timeout token first s w answers →
    a ≠ .take .crash → w.act timeout a = some (w', more) →
    History timeout token first (s.note a) w' (answers ++ more)

variable {timeout : Duration} {token : Token} {first : Nat} {s : Story} {w w' : Worker}
  {answers more : Answers}

/-! ## What the story says of the phase -/

/-- Nothing that is sent from now on changes the verdict of a story. -/
structure Story.Settled (timeout : Duration) (token : Token) (s : Story) (outcome : OffsetReply) :
    Prop where
  verdict : s.verdict? timeout token = some outcome
  closed : s.resolved = false → s.fired.isSome
  failed : ∀ e, s.answer = some (.error e) → s.fired = none
  due : ∀ now, s.fired = some now → ∃ start, s.begun = some start ∧ start.plus timeout ≤ now

/-- What the story of a worker says of its phase, its outcome and its mailbox. -/
inductive Agrees (timeout : Duration) (token : Token) :
    Story → WorkerPhase → Option OffsetReply → List WorkerCommand → Prop
  | spawned {earlier} :
    Agrees timeout token ⟨none, earlier, none, false, [], none⟩ .spawned none earlier
  | reading {start earlier} : Agrees timeout token ⟨some start, earlier, none, false, [], none⟩
    (.reading (start.plus timeout)) none earlier
  | found {start earlier answer} :
    Agrees timeout token ⟨some start, earlier, some answer, false, [], none⟩
      (.found (start.plus timeout) answer) none earlier
  | waiting {start earlier found later mailbox} (handled) :
    earlier ++ found.toList.map WorkerCommand.push ++ later = handled ++ mailbox →
    (∀ command ∈ handled, decision? token command = none) →
    Agrees timeout token ⟨some start, earlier, some (.ok found), true, later, none⟩
      (.waiting (start.plus timeout)) none mailbox
  | closing {s outcome mailbox} : s.Settled timeout token outcome →
    Agrees timeout token s .closing (some outcome) mailbox
  | drained {s outcome mailbox} : s.Settled timeout token outcome →
    Agrees timeout token s .drained (some outcome) mailbox
  | ended {s outcome mailbox} : s.Settled timeout token outcome →
    Agrees timeout token s .ended (some outcome) mailbox

/-- A command that is sent to a settled worker comes too late. -/
theorem Story.Settled.send {outcome : OffsetReply} (H : s.Settled timeout token outcome)
    (command : WorkerCommand) : (s.note (.send command)).Settled timeout token outcome := by
  obtain ⟨begun, earlier, answer, resolved, later, fired⟩ := s
  cases resolved with
  | false =>
    obtain ⟨now, hnow⟩ := Option.isSome_iff_exists.1 (H.closed rfl)
    cases hnow
    exact ⟨H.verdict, H.closed, H.failed, H.due⟩
  | true =>
    refine ⟨?_, H.closed, H.failed, H.due⟩
    have h := H.verdict
    unfold verdict? at h ⊢
    cases fired with
    | some now => exact h
    | none =>
      rcases answer with - | (e | found)
      · cases h
      · exact h
      · simp only [note, if_true] at h ⊢
        rw [← List.append_assoc, List.findSome?_append, h, Option.some_or]

/-- A command that is sent to a worker is the last of its story and of its mailbox. -/
theorem Agrees.send {phase : WorkerPhase} {outcome : Option OffsetReply}
    {mailbox : List WorkerCommand} {command : WorkerCommand}
    (H : Agrees timeout token s phase outcome mailbox) (hd : phase ≠ .drained)
    (he : phase ≠ .ended) :
    Agrees timeout token (s.note (.send command)) phase outcome (mailbox ++ [command]) := by
  cases H with
  | spawned => exact .spawned
  | reading => exact .reading
  | found => exact .found
  | waiting handled hsplit hnone =>
    exact .waiting handled (by rw [← List.append_assoc, hsplit, List.append_assoc]) hnone
  | closing hs => exact .closing (hs.send command)
  | drained => exact absurd rfl hd
  | ended => exact absurd rfl he

/-- The first decisive command behind some that decide nothing gives the verdict. -/
theorem settled_of_handled {start : Instant} {earlier later handled rest : List WorkerCommand}
    {found : Option TokenOffset} {command : WorkerCommand} {outcome : OffsetReply}
    (hsplit : earlier ++ found.toList.map WorkerCommand.push ++ later = handled ++ command :: rest)
    (hnone : ∀ command ∈ handled, decision? token command = none)
    (h : decision? token command = some outcome) :
    Story.Settled timeout token ⟨some start, earlier, some (.ok found), true, later, none⟩
      outcome where
  verdict := by
    have hhandled : handled.findSome? (decision? token) = none := List.findSome?_eq_none_iff.2 hnone
    simp only [Story.verdict?]
    rw [hsplit, List.findSome?_append, hhandled, Option.none_or, List.findSome?_cons, h]
  closed := nofun
  failed := nofun
  due := nofun

theorem phase_of_deadline? {deadline : Instant} (h : w.deadline? = some deadline) :
    w.phase = .reading deadline ∨ w.phase = .waiting deadline := by
  unfold deadline? at h
  split at h
  · next hp => cases h; exact .inl hp
  · next hp => cases h; exact .inr hp
  · cases h

/-- A command that does not decide is handled, and the worker waits on. -/
theorem Agrees.skip {deadline : Instant} {outcome : Option OffsetReply} {command : WorkerCommand}
    {rest : List WorkerCommand}
    (H : Agrees timeout token s (.waiting deadline) outcome (command :: rest))
    (h : decision? token command = none) :
    Agrees timeout token s (.waiting deadline) outcome rest := by
  cases H with | waiting handled hsplit hnone
  refine .waiting (handled ++ [command]) (by rw [hsplit, List.append_assoc]; rfl) ?_
  intro other ho
  rcases List.mem_append.1 ho with ho | ho
  · exact hnone other ho
  · rwa [List.mem_singleton.1 ho]

theorem Agrees.settled {deadline : Instant} {known : Option OffsetReply} {command : WorkerCommand}
    {rest : List WorkerCommand} {outcome : OffsetReply}
    (H : Agrees timeout token s (.waiting deadline) known (command :: rest))
    (h : decision? token command = some outcome) : s.Settled timeout token outcome := by
  cases H with | waiting handled hsplit hnone
  exact settled_of_handled hsplit hnone h

/-- The story of an outcome that has just been decided says so. -/
theorem Agrees.decided {m : WorkerMove} {rest : List WorkerCommand} {outcome : OffsetReply}
    (H : Agrees timeout w.token s w.phase w.outcome w.mailbox) (ht : w.Tidy)
    (hd : w.Decides timeout m rest outcome) :
    (s.note (.take m)).Settled timeout w.token outcome := by
  rw [ht.undecided hd.hasTerminated] at H
  cases hd with
  | failed hp =>
    rw [hp] at H
    cases H with | found
    exact ⟨rfl, nofun, fun _ _ => rfl, nofun⟩
  | late hd hl =>
    -- the deadline may fire before the store has answered, and after it
    rcases phase_of_deadline? hd with hp | hp
    all_goals
      rw [hp] at H
      cases H
      exact ⟨rfl, fun _ => rfl, nofun, fun now hnow => ⟨_, rfl, by cases hnow; exact hl⟩⟩
  | pushed hp hm ht =>
    rw [hp, hm] at H
    exact H.settled (by simp [decision?, ht])
  | cancelled hp hm =>
    rw [hp, hm] at H
    exact H.settled rfl
  | cutOff hp _ hs =>
    rw [ht.sender (by simp [isOver, hp])] at hs
    cases hs

/-- A step that a worker does not die of keeps it in agreement with its story. -/
theorem Agrees.moved {m : WorkerMove} (H : Agrees timeout w.token s w.phase w.outcome w.mailbox)
    (ht : w.Tidy) (hm : Moved timeout w m w' answers) (hf : m.isFatal timeout = false) :
    Agrees timeout w'.token (s.note (.take m)) w'.phase w'.outcome w'.mailbox := by
  -- as long as a worker waits for something, it has no outcome
  have undecided {phase} (hp : w.phase = phase) (hn : w.hasTerminated = false) :
      w.outcome = none ∧ Agrees timeout w.token s phase none w.mailbox := by
    have ho := ht.undecided hn
    rw [hp, ho] at H
    exact ⟨ho, H⟩
  cases hm with
  | begin hp hd =>
    obtain ⟨ho, H⟩ := undecided hp (by simp [Worker.hasTerminated, hp])
    generalize w.mailbox = mailbox at H
    cases H with | spawned
    simp only [ho, (Instant.after?_eq_some_iff.1 hd).1]
    exact .reading
  | look hp =>
    obtain ⟨ho, H⟩ := undecided hp (by simp [Worker.hasTerminated, hp])
    simp only [ho]
    cases H with | reading
    exact .found
  | find hp | miss hp =>
    -- what was sent so far is still in the mailbox, before the offset that was found
    obtain ⟨ho, H⟩ := undecided hp (by simp [Worker.hasTerminated, hp])
    simp only [ho]
    cases H with | found
    exact .waiting [] (by simp) (by simp)
  | decide hd => exact .closing (H.decided ht hd)
  | join hp hb =>
    rw [hp, hb] at H
    simpa [Story.note, hp] using H.skip rfl
  | ignore hp hb ht =>
    rw [hp, hb] at H
    simpa [Story.note, hp] using H.skip (by simp [decision?, ht])
  | close hp ho =>
    rw [hp, ho] at H
    simp only [ho]
    cases H with | closing hs
    exact .drained hs
  | closeUnknown hp ho =>
    rw [hp, ho] at H
    cases H
  | finish hp =>
    rw [hp] at H
    generalize ho : w.outcome = known at H
    cases H with | drained hs
    simp only [drop, ho]
    exact .ended hs
  | die _ hfatal => rw [hf] at hfatal; cases hfatal

/-! ## What one more act does -/

theorem eq_receive_of_send {command : WorkerCommand} (h : w.send command = some w') :
    w.isOpen ∧ w' = w.receive command := by
  unfold send at h
  split at h
  · next ho => cases h; exact ⟨ho, rfl⟩
  · cases h

theorem act_send (ho : w.isOpen) (command : WorkerCommand) :
    w.act timeout (.send command) = some (w.receive command, []) := by
  simp [act, send, ho, receive]

theorem act_cases {a : Act} (h : w.act timeout a = some (w', more)) :
    (∃ command, a = .send command ∧ w.isOpen ∧ w' = w.receive command ∧ more = []) ∨
    (∃ m, a = .take m ∧ Moved timeout w m w' more) := by
  cases a with
  | send command =>
    obtain ⟨w₁, hs, heq⟩ := Option.map_eq_some_iff.1 h
    obtain ⟨ho, rfl⟩ := eq_receive_of_send hs
    cases heq
    exact .inl ⟨command, rfl, ho, rfl, rfl⟩
  | take m => exact .inr ⟨m, rfl, moved_of_move h⟩

theorem Moved.phase_of_isFatal {m : WorkerMove} (h : Moved timeout w m w' answers)
    (hm : m.isFatal timeout) : w'.phase = .crashed := by
  cases h with
  | begin _ hd => simp [WorkerMove.isFatal, hd] at hm
  | decide hd => cases hd <;> cases hm
  | look | find | miss | join | ignore | close | closeUnknown | finish => cases hm
  | die => rfl

theorem Moved.not_isFatal {m : WorkerMove} (h : Moved timeout w m w' answers)
    (hp : w'.phase ≠ .crashed) : m.isFatal timeout = false :=
  Bool.eq_false_iff.2 fun hm => hp (h.phase_of_isFatal hm)

theorem phase_ne_crashed (h : w.isOver = false) : w.phase ≠ .crashed := by
  intro hp
  simp [isOver, hp] at h

/-- What every act keeps holds of every history. -/
theorem History.keep {P : Story → Worker → Answers → Prop}
    (h : History timeout token first s w answers)
    (new : ∀ {generation}, P .empty (Worker.new token generation first) [])
    (send : ∀ {s w answers command}, P s w answers → w.isOpen →
      P (s.note (.send command)) (w.receive command) answers)
    (take : ∀ {s w answers m w' more}, P s w answers → m ≠ .crash → Moved timeout w m w' more →
      P (s.note (.take m)) w' (answers ++ more)) : P s w answers := by
  induction h with
  | new => exact new
  | act _ hc ha ih =>
    rcases act_cases ha with ⟨command, rfl, ho, rfl, rfl⟩ | ⟨m, rfl, hm⟩
    · simpa using send ih ho
    · exact take ih (fun hm => hc (hm ▸ rfl)) hm

/-! ## What holds of every history -/

theorem History.token_eq (h : History timeout token first s w answers) : w.token = token :=
  h.keep (P := fun _ w _ => w.token = token) rfl (fun ih _ => ih)
    fun ih _ hm => hm.token_eq.trans ih

theorem History.tidy (h : History timeout token first s w answers) : w.Tidy :=
  h.keep (P := fun _ w _ => w.Tidy) (tidy_new ..) (fun ih ho => ih.receive ho _)
    fun ih _ hm => hm.tidy ih

/-- What every act keeps holds of every history, where it may be made use of that workers are tidy.
-/
theorem History.keep_tidy {P : Story → Worker → Answers → Prop}
    (h : History timeout token first s w answers)
    (new : ∀ {generation}, P .empty (Worker.new token generation first) [])
    (send : ∀ {s w answers command}, P s w answers → w.isOpen →
      P (s.note (.send command)) (w.receive command) answers)
    (take : ∀ {s w answers m w' more}, P s w answers → w.Tidy → m ≠ .crash →
      Moved timeout w m w' more → P (s.note (.take m)) w' (answers ++ more)) : P s w answers := by
  have hkept : w.Tidy ∧ P s w answers :=
    h.keep (P := fun s w answers => w.Tidy ∧ P s w answers) ⟨tidy_new .., new⟩
      (fun ⟨ht, ih⟩ ho => ⟨ht.receive ho _, send ih ho⟩)
      fun ⟨ht, ih⟩ hc hm => ⟨hm.tidy ht, take ih ht hc hm⟩
  exact hkept.2

theorem sent_take (s : Story) (m : WorkerMove) : (s.note (.take m)).sent = s.sent := by
  cases m <;> rfl

theorem requests_sent_send (s : Story) (command : WorkerCommand) :
    (requests (s.note (.send command)).sent).Perm (requests s.sent ++ requests [command]) := by
  simp only [Story.note, Story.sent]
  split
  · simp
  · simp only [requests_append, List.append_assoc]
    exact List.perm_append_comm.append_left _

/-- Every request that a worker took is with it or has its answer. -/
theorem History.accounted (h : History timeout token first s w answers) :
    (answers.map Prod.fst ++ w.pending).Perm (first :: requests s.sent) := by
  refine h.keep
    (P := fun s w answers => (answers.map Prod.fst ++ w.pending).Perm (first :: requests s.sent))
    (.refl _) ?_ ?_
  · intro s w answers command ih _
    rw [pending_receive, ← List.append_assoc]
    exact (ih.append_right _).trans ((requests_sent_send s command).symm.cons first)
  · intro s w answers m w' more ih _ hm
    rw [sent_take, List.map_append, List.append_assoc]
    exact (hm.pending.append_left _).trans ih

/-- A worker that lives has given one and the same answer to all, its outcome. -/
theorem History.answer_eq (h : History timeout token first s w answers) (hp : w.phase ≠ .crashed) :
    ∀ answer ∈ answers, w.outcome = some answer.2 := by
  refine h.keep_tidy (P := fun _ w answers => w.phase ≠ .crashed →
    ∀ answer ∈ answers, w.outcome = some answer.2) (by simp) (fun ih _ => ih) ?_ hp
  intro s w answers m w' more ih ht _ hm hp answer ha
  rcases List.mem_append.1 ha with ha | ha
  · exact hm.outcome_eq ht (ih (phase_ne_crashed hm.isOver_eq) answer ha)
  · exact hm.outcome ht (hm.not_isFatal hp) answer ha

/-- The clock can hold the deadline of a worker that has started. -/
def Story.Fits (s : Story) (timeout : Duration) : Prop :=
  ∀ now, s.begun = some now → (now.after? timeout).isSome

/-- A worker agrees with its story, or its clock has killed it. -/
theorem History.agrees_or_crashed (h : History timeout token first s w answers) :
    Agrees timeout token s w.phase w.outcome w.mailbox ∨
      (w.phase = .crashed ∧ ¬ s.Fits timeout) := by
  rw [← h.token_eq]
  refine h.keep_tidy (P := fun s w _ => Agrees timeout w.token s w.phase w.outcome w.mailbox ∨
    (w.phase = .crashed ∧ ¬ s.Fits timeout)) (.inl .spawned) ?_ ?_
  · rintro s w answers command (ih | ⟨hp, -⟩) ho
    · have hd : w.phase ≠ .drained := fun hp => by simp [isOpen, hp] at ho
      have he : w.phase ≠ .ended := fun hp => by simp [isOpen, hp] at ho
      exact .inl (ih.send hd he)
    · exact absurd hp (phase_ne_crashed (isOver_eq_false_of_isOpen ho))
  · rintro s w answers m w' more (ih | ⟨hp, -⟩) ht hc hm
    · cases hf : m.isFatal timeout with
      | false => exact .inl (ih.moved ht hm hf)
      | true =>
        -- of the steps that a history can hold, only the start is fatal
        refine .inr ⟨hm.phase_of_isFatal hf, fun hfit => ?_⟩
        cases m with
        | start now =>
          rw [WorkerMove.isFatal, ← Option.not_isSome, hfit now rfl] at hf
          cases hf
        | crash => exact hc rfl
        | read | resolve | expire | handle | hangUp | drain | leave => cases hf
    · exact absurd hp (phase_ne_crashed hm.isOver_eq)

theorem History.agrees (h : History timeout token first s w answers) (hfit : s.Fits timeout) :
    Agrees timeout token s w.phase w.outcome w.mailbox :=
  h.agrees_or_crashed.resolve_right fun hc => hc.2 hfit

end PolicyGate.Worker
