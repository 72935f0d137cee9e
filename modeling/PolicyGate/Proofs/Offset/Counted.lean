import PolicyGate.Proofs.Offset.Placement

/-!
The counts of a coordinator. Each step that counts something does so once: a request as it comes, a
reply as it is given, a worker as it is spawned and again as it ends. A reply counts whether or not
anyone is left to hear it. Main statement: as long as no worker dies the counts are those of the
requests, of the replies by their outcome and of the workers that still run (`counts_conserved`).
-/

namespace PolicyGate

open ListUpdate

namespace Worker

variable {timeout : Duration} {w w' : Worker} {m : WorkerMove} {answers : Answers}

/-- Whether the run of a worker goes on. -/
def isRunning (w : Worker) : Bool := !w.isOver

/-- The run of a worker ends by its last step only. -/
theorem Moved.isRunning_eq (h : Moved timeout w m w' answers) (hf : m.isFatal timeout = false) :
    (m = .leave ∧ w'.isRunning = false) ∨ (m ≠ .leave ∧ w'.isRunning = true) := by
  cases h with
  | begin | look | find | miss | close | closeUnknown => exact .inr ⟨nofun, rfl⟩
  | decide hd =>
    refine .inr ⟨?_, rfl⟩
    rintro rfl
    cases hd
  | join hp | ignore hp => exact .inr ⟨nofun, by simp [isRunning, isOver, hp]⟩
  | finish => exact .inl ⟨rfl, rfl⟩
  | die _ hfatal =>
    rw [hf] at hfatal
    cases hfatal

theorem Moved.answers_start {t : Instant} (h : Moved timeout w (.start t) w' answers)
    (hf : (WorkerMove.start t).isFatal timeout = false) : answers = [] := by
  cases h with
  | begin => rfl
  | decide hd => cases hd
  | die _ hfatal =>
    rw [hf] at hfatal
    cases hfatal

/-- Someone waits for a worker as long as it has no outcome. -/
theorem Moved.subscribers_ne_nil (h : Moved timeout w m w' answers)
    (hw : w.hasTerminated = false → w.subscribers ≠ []) :
    w'.hasTerminated = false → w'.subscribers ≠ [] := by
  cases h with
  | begin hp | look hp | find hp | miss hp | ignore hp =>
    exact fun _ => hw (by simp [Worker.hasTerminated, hp])
  | join => simp
  | decide | close | closeUnknown | finish | die =>
    intro hn
    cases hn

end Worker

namespace Coordinator

variable {c c' : Coordinator} {e : Event} {place : Nat} {w w' : Worker} {m : WorkerMove}
  {answers : Answers} {p : OffsetReply → Bool} {request : Nat}

/-! ## What is counted -/

/-- The requests that nobody has answered. -/
def unanswered (c : Coordinator) : List Nat :=
  (List.range c.requests.length).filter fun request => (c.answerTo? request).isNone

/-- The requests that were answered in one way. -/
def answeredWith (c : Coordinator) (p : OffsetReply → Bool) : List Nat :=
  (List.range c.requests.length).filter fun request => (c.answerTo? request).any p

/-- The counts agree with what they count. -/
structure Counted (c : Coordinator) : Prop where
  requests : c.metrics.requests = c.requests.length
  success : c.metrics.success = c.answers.countP fun answer => answer.2.isOk
  failure : c.metrics.failure = c.answers.countP fun answer => !answer.2.isOk
  active : c.metrics.active = c.workers.countP Worker.isRunning
  awaited : ∀ w ∈ c.workers, w.hasTerminated = false → w.subscribers ≠ []

theorem counted_new (timeout : Duration) : Counted (.new timeout) where
  requests := rfl
  success := rfl
  failure := rfl
  active := rfl
  awaited := nofun

/-- A step counts its answers, and a worker whose run ends by it. -/
theorem count_eq (metrics : OffsetMetrics) (h : Worker.Moved c.timeout w m w' answers)
    (ht : w.Tidy) (hf : m.isFatal c.timeout = false) :
    count metrics answers m =
      { metrics.countReplies answers with
        active := metrics.active - if w'.isRunning then 0 else 1 } := by
  rcases h.isRunning_eq hf with ⟨rfl, hr⟩ | ⟨hm, hr⟩
  · cases h.answers_leave ht
    simp [count, hr, OffsetMetrics.countReplies]
  · cases m with
    | start t =>
      cases h.answers_start hf
      simp [count, hr, OffsetMetrics.countReplies]
    | leave => exact absurd rfl hm
    | crash => cases hf
    | read | resolve | expire | handle | hangUp | drain =>
      simp [count, hr, OffsetMetrics.countReplies]

namespace Counted

/-- A step that nobody dies of keeps the counts right. -/
theorem moved (H : Counted c) (hw : c.workers[place]? = some w) (ht : w.Tidy)
    (h : Worker.Moved c.timeout w m w' answers) (hf : m.isFatal c.timeout = false) :
    Counted (c.moved place m w' answers) := by
  have hcount := count_eq c.metrics h ht hf
  constructor
  case requests => simp [Coordinator.moved, hcount, OffsetMetrics.countReplies, H.requests]
  case success =>
    simp [Coordinator.moved, hcount, OffsetMetrics.countReplies, H.success,
      List.countP_eq_length_filter]
  case failure =>
    simp [Coordinator.moved, hcount, OffsetMetrics.countReplies, H.failure,
      List.countP_eq_length_filter]
  case active =>
    have hset := countP_set (p := Worker.isRunning) hw w'
    rw [if_pos (by simp [Worker.isRunning, h.isOver_eq])] at hset
    simp only [Coordinator.moved, hcount, H.active]
    split at hset
    · next hr =>
      rw [if_pos hr]
      omega
    · next hr =>
      rw [if_neg hr]
      omega
  case awaited =>
    intro v hv
    rcases List.mem_or_eq_of_mem_set hv with hv | rfl
    · exact H.awaited v hv
    · exact h.subscribers_ne_nil (H.awaited w (List.mem_of_getElem? hw))

theorem told (H : Counted c) (hw : c.workers[place]? = some w) (command : WorkerCommand) :
    Counted (c.told place w command) where
  requests := H.requests
  success := H.success
  failure := H.failure
  active := by
    have hset := countP_set (p := Worker.isRunning) hw (w.receive command)
    rw [show (w.receive command).isRunning = w.isRunning from rfl] at hset
    rw [show (c.told place w command).metrics = c.metrics from rfl, H.active]
    simp only [Coordinator.told]
    omega
  awaited v hv := by
    rcases List.mem_or_eq_of_mem_set hv with hv | rfl
    · exact H.awaited v hv
    · exact H.awaited w (List.mem_of_getElem? hw)

theorem enter (H : Counted c) (token : Token) : Counted (c.enter token) where
  requests := by simp [Coordinator.enter, H.requests]
  success := H.success
  failure := H.failure
  active := H.active
  awaited := H.awaited

theorem spawn (H : Counted c) (token : Token) (request : Nat) :
    Counted (c.spawn token request) where
  requests := H.requests
  success := H.success
  failure := H.failure
  active := by
    simp [Coordinator.spawn, H.active, Worker.new, Worker.isRunning, Worker.isOver]
  awaited v hv := by
    rcases List.mem_append.1 hv with hv | hv
    · exact H.awaited v hv
    · cases List.mem_singleton.1 hv
      exact fun _ => List.cons_ne_nil _ _

theorem routed (H : Counted c) (h : Routed e c c') : Counted c' := by
  cases h with
  | join _ _ hw => exact (H.enter _).told hw _
  | spawn => exact (H.enter _).spawn _ _
  | tell _ hw => exact H.told hw _
  | reap => exact ⟨H.requests, H.success, H.failure, H.active, H.awaited⟩

end Counted

theorem Run.counted (h : Run c c') (hm : Mapping c) (hp : Placement c) (H : Counted c) :
    Counted c' :=
  h.keep_placed hm hp (fun hp hw hm hf H => H.moved hw (hp.tidy _ (List.mem_of_getElem? hw)) hm hf)
    (fun h H => H.routed h) H

/-! ## Answers and the requests that they are for -/

/-- A request is unanswered, or answered in the one way or the other. -/
theorem length_unanswered_add (c : Coordinator) (p : OffsetReply → Bool) :
    c.unanswered.length + ((c.answeredWith p).length +
      (c.answeredWith fun reply => !p reply).length) = c.requests.length := by
  unfold unanswered answeredWith
  conv_rhs => rw [← List.length_range (n := c.requests.length)]
  induction List.range c.requests.length with
  | nil => rfl
  | cons request rest ih =>
    simp only [List.filter_cons]
    cases c.answerTo? request with
    | none =>
      simp only [Option.isNone_none, Option.any_none, if_true, Bool.false_eq_true, if_false,
        List.length_cons]
      omega
    | some reply =>
      simp only [Option.isNone_some, Option.any_some, Bool.false_eq_true, if_false]
      by_cases hp : p reply
      · rw [if_pos hp, if_neg (by simp [hp]), List.length_cons, List.length_cons]
        omega
      · rw [if_neg hp, if_pos (by simp [hp]), List.length_cons, List.length_cons]
        omega

namespace Placement

theorem answerTo?_eq (H : Placement c) {reply : OffsetReply} (h : (request, reply) ∈ c.answers) :
    c.answerTo? request = some reply := by
  rw [answerTo?, H.answersTo_eq h, List.head?_cons]

theorem lt_of_mem_answers (H : Placement c) {reply : OffsetReply}
    (h : (request, reply) ∈ c.answers) : request < c.requests.length := by
  have hmem : request ∈ c.answered := List.mem_map.2 ⟨_, h, rfl⟩
  exact List.mem_range.1 (H.placed.subset (List.mem_append_left _ hmem))

/-- As every request has one answer at most, answers are as many as the requests that have them. -/
theorem length_answeredWith (H : Placement c) (p : OffsetReply → Bool) :
    (c.answeredWith p).length = c.answers.countP fun answer => p answer.2 := by
  have hperm : (c.answeredWith p).Perm
      ((c.answers.filter fun answer => p answer.2).map Prod.fst) := by
    refine (List.perm_ext_iff_of_nodup (List.nodup_range.filter _)
      (H.nodup_answered.sublist (List.filter_sublist.map _))).2 fun request => ?_
    simp only [List.mem_filter, List.mem_range, List.mem_map, Option.any_eq_true]
    constructor
    · rintro ⟨-, reply, ha, hp⟩
      exact ⟨(request, reply), ⟨mem_of_answerTo? ha, hp⟩, rfl⟩
    · rintro ⟨⟨_, reply⟩, ⟨ha, hp⟩, rfl⟩
      exact ⟨H.lt_of_mem_answers ha, reply, H.answerTo?_eq ha, hp⟩
  rw [hperm.length_eq, List.length_map, List.countP_eq_length_filter]

/-- Who waits for a worker has no answer. -/
theorem mem_unanswered (H : Placement c) (hw : w ∈ c.workers) (hr : request ∈ w.pending) :
    request ∈ c.unanswered := by
  have hmem : request ∈ c.workers.flatMap Worker.pending := List.mem_flatMap.2 ⟨w, hw, hr⟩
  refine List.mem_filter.2 ⟨H.placed.subset (List.mem_append_right _ hmem), ?_⟩
  rw [Option.isNone_iff_eq_none, Option.eq_none_iff_forall_not_mem]
  intro reply ha
  have hanswered : request ∈ c.answered := List.mem_map.2 ⟨_, mem_of_answerTo? ha, rfl⟩
  have hn := H.placed.nodup_iff.2 List.nodup_range
  exact (List.nodup_append.1 hn).2.2 request hanswered request hmem rfl

end Placement

/-- When nobody waits for an answer and no worker has yet to end, all are over. -/
theorem Counted.active_eq_zero (H : Counted c) (hp : Placement c) (hnone : c.unanswered = [])
    (hdone : ∀ w ∈ c.workers, w.drain = none ∧ w.leave = none) : c.metrics.active = 0 := by
  rw [H.active, Int.natCast_eq_zero, List.countP_eq_zero]
  intro w hw hr
  cases ht : w.hasTerminated with
  | false =>
    obtain ⟨request, rest, hs⟩ := List.exists_cons_of_ne_nil (H.awaited w hw ht)
    have hpending : request ∈ w.pending := by simp [Worker.pending, hs]
    have hmem := hp.mem_unanswered hw hpending
    rw [hnone] at hmem
    cases hmem
  | true =>
    obtain ⟨hdrain, hleave⟩ := hdone w hw
    cases hphase : w.phase with
    | closing => cases ho : w.outcome <;> simp [Worker.drain, hphase, ho] at hdrain
    | drained => simp [Worker.leave, hphase] at hleave
    | ended | crashed => simp [Worker.isRunning, Worker.isOver, hphase] at hr
    | spawned | reading | found | waiting => simp [Worker.hasTerminated, hphase] at ht

end Coordinator

/-! ## Requesters that go away -/

/-- A coordinator with those who ask it: the requests that are given up, and the answers that were
heard. -/
structure Audience where
  coordinator : Coordinator
  gone : List Nat
  heard : Answers

namespace Audience

/-- What is heard of the answers of a step. -/
def after (a : Audience) (c : Coordinator) : Audience :=
  { a with
    coordinator := c
    heard := a.heard ++
      (c.answers.drop a.coordinator.answers.length).filter fun answer => answer.1 ∉ a.gone }

/-- Runs in which no worker dies, but any requester may go away at any time. -/
inductive Run (timeout : Duration) : Audience → Prop
  | new : Run timeout ⟨.new timeout, [], []⟩
  | step {a : Audience} {e c} : Run timeout a → e.isFatal a.coordinator.timeout = false →
    a.coordinator.step e = some c → Run timeout (a.after c)
  | leave {a : Audience} (request : Nat) : Run timeout a →
    Run timeout { a with gone := request :: a.gone }

/-- All answers but those to requests that are given up were heard. -/
structure Hears (a : Audience) : Prop where
  sublist : a.heard.Sublist a.coordinator.answers
  heard : ∀ answer ∈ a.coordinator.answers, answer ∈ a.heard ∨ answer.1 ∈ a.gone

variable {timeout : Duration} {a : Audience}

theorem Run.coordinator (h : Run timeout a) : Coordinator.Run (.new timeout) a.coordinator := by
  induction h with
  | new => exact .refl
  | step _ hf hs ih => exact ih.step hf hs
  | leave _ _ ih => exact ih

/-- All answers are heard but those to requests that are given up. -/
theorem Run.hears (h : Run timeout a) : a.Hears := by
  induction h with
  | new => exact ⟨.slnil, nofun⟩
  | @step a e c _ _ hs ih =>
    have happend := Coordinator.answers_step hs
    constructor
    · show (a.heard ++ _).Sublist c.answers
      rw [happend]
      exact ih.sublist.append (by simp)
    · intro answer ha
      change answer ∈ c.answers at ha
      rw [happend, List.mem_append] at ha
      rcases ha with ha | ha
      · exact (ih.heard answer ha).imp_left (List.mem_append_left _)
      · by_cases hg : answer.1 ∈ a.gone
        · exact .inr hg
        · exact .inl (List.mem_append_right _ (List.mem_filter.2 ⟨ha, by simpa using hg⟩))
  | leave request _ ih =>
    exact ⟨ih.sublist, fun answer ha => (ih.heard answer ha).imp_right (List.mem_cons_of_mem _)⟩

open Coordinator in
/-- The counts of a coordinator in every state, as long as no worker dies: requests less replies are
the requests that wait, replies of each kind are the requests that were answered so, though their
requesters may have gone, and the active workers are those whose run goes on. -/
theorem counts_conserved (h : Run timeout a) :
    a.coordinator.metrics.requests = a.coordinator.requests.length ∧
    (a.coordinator.metrics.requests : Int) -
        (a.coordinator.metrics.success + a.coordinator.metrics.failure) =
      a.coordinator.unanswered.length ∧
    a.coordinator.metrics.success = (a.coordinator.answeredWith (·.isOk)).length ∧
    a.coordinator.metrics.failure = (a.coordinator.answeredWith (!·.isOk)).length ∧
    a.Hears ∧
    a.coordinator.metrics.active = a.coordinator.workers.countP Worker.isRunning ∧
    (a.coordinator.unanswered = [] →
      (∀ w ∈ a.coordinator.workers, w.drain = none ∧ w.leave = none) →
      a.coordinator.metrics.active = 0) := by
  have hnew := mapping_new timeout
  have hplaced := placement_new timeout
  obtain ⟨-, hp⟩ := h.coordinator.sound hnew hplaced
  have H := h.coordinator.counted hnew hplaced (counted_new timeout)
  have hsuccess := H.success.trans (hp.length_answeredWith fun reply => reply.isOk).symm
  have hfailure := H.failure.trans (hp.length_answeredWith fun reply => !reply.isOk).symm
  refine ⟨H.requests, ?_, hsuccess, hfailure, h.hears, H.active, H.active_eq_zero hp⟩
  have htotal := length_unanswered_add a.coordinator fun reply => reply.isOk
  rw [H.requests, hsuccess, hfailure]
  omega

/-- Of two who ask for one token, the second is gone before the answer comes. The look-up for
another token fails, and the first token is asked for once more before its worker is forgotten. -/
theorem counts_conserved_unheard : ∃ a, Run (.ofMillis 1000) a ∧
    a.coordinator.metrics = ⟨1, 4, 2, 1⟩ ∧ a.coordinator.unanswered = [3] ∧
    a.coordinator.answeredWith (·.isOk) = [0, 1] ∧ a.heard.map Prod.fst = [0, 2] ∧
    a.coordinator.metrics.active = a.coordinator.workers.countP Worker.isRunning := by
  have h : Run (.ofMillis 1000) _ := .new
  have h := h.step (e := .request ⟨"t"⟩) rfl rfl
  have h := h.step (e := .start 0 ⟨0⟩) rfl rfl
  have h := h.step (e := .request ⟨"t"⟩) rfl rfl
  have h := h.step (e := .request ⟨"u"⟩) rfl rfl
  have h := h.leave 1
  have h := h.step (e := .read 0 (.ok none)) rfl rfl
  have h := h.step (e := .resolve 0) rfl rfl
  have h := h.step (e := .handle 0) rfl rfl
  have h := h.step (e := .available ⟨⟨"t"⟩, 5⟩) rfl rfl
  have h := h.step (e := .handle 0) rfl rfl
  have h := h.step (e := .drain 0) rfl rfl
  have h := h.step (e := .leave 0) rfl rfl
  have h := h.step (e := .request ⟨"t"⟩) rfl rfl
  have h := h.step (e := .reap) rfl rfl
  have h := h.step (e := .start 1 ⟨0⟩) rfl rfl
  have h := h.step (e := .read 1 (.error (.backend "down"))) rfl rfl
  have h := h.step (e := .resolve 1) rfl rfl
  have h := h.step (e := .drain 1) rfl rfl
  have h := h.step (e := .leave 1) rfl rfl
  obtain ⟨-, -, -, -, -, hactive, -⟩ := counts_conserved h
  exact ⟨_, h, rfl, rfl, rfl, rfl, hactive⟩

end Audience

end PolicyGate
