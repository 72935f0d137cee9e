import PolicyGate.Proofs.Pipeline.Recorded

/-!
The history of a pipeline: the steps that were taken, each with the pipeline before and after it,
and among them the turns of the policy stage on one envelope. A turn says what the stage was at work
on, and what it found and left. Main statements: what is written into the store of authorisations in
the course of a history is what its turns recorded (`Course.filled`), and a turn belongs to one
envelope only (`turnsOn_cons_of_eq`, `turnsOn_cons_of_ne`).
-/

namespace PolicyGate.Pipeline

/-- A step of a pipeline, with what was there before and after it. -/
structure Transition where
  before : Pipeline
  event : Event
  after : Pipeline
  taken : before.step event = some after

/-- The steps from one pipeline to another, last first. -/
inductive Course (p₀ : Pipeline) : List Transition → Pipeline → Prop
  | start : Course p₀ [] p₀
  | step {history p q} {e : Event} : Course p₀ history p → (hs : p.step e = some q) →
    Course p₀ (⟨p, e, q, hs⟩ :: history) q

/-- The authorisations that steps put into the store, last first. -/
def recordsOf (history : List Transition) : List AuthorisedRequest :=
  history.filterMap fun t => t.before.recorded? t.event

variable {p₀ p q : Pipeline} {e : Event} {history : List Transition} {t : Transition}
  {stored : List AuthorisedRequest}

theorem recordsOf_cons (t : Transition) (history : List Transition) :
    recordsOf (t :: history) = (t.before.recorded? t.event).toList ++ recordsOf history := by
  rw [recordsOf, List.filterMap_cons]
  split <;> next h => rw [h]; rfl

theorem Course.recording (h : Course p₀ history p) : Recording p₀ (recordsOf history) p := by
  induction h with
  | start => exact .start
  | step _ hs ih =>
    rw [recordsOf_cons]
    exact ih.step hs

theorem Recording.course (h : Recording p₀ stored p) :
    ∃ history, Course p₀ history p ∧ recordsOf history = stored := by
  induction h with
  | start => exact ⟨[], .start, rfl⟩
  | step _ hs ih =>
    obtain ⟨history, hc, rfl⟩ := ih
    exact ⟨_, hc.step hs, recordsOf_cons ..⟩

/-- The store of authorisations is what the puts of a history made of it. -/
theorem Course.filled (h : Course p₀ history p) :
    p₀.authorised.Filled (recordsOf history) p.authorised :=
  h.recording.filled

namespace Transition

/-- What the policy stage is at work on when it takes the step. -/
def work? (t : Transition) : Option AccessWork :=
  match t.event, t.before.access with
  | .access _, some ⟨_, .busy _ work⟩ => some work
  | _, _ => none

/-- The place of the envelope on which the policy stage takes the step. There is none when it only
takes an envelope or puts one away. -/
def place? (t : Transition) : Option Nat :=
  match t.event, t.before.access with
  | .access _, some ⟨reader, .busy _ work⟩ =>
    if work.isOver then none else some (reader.position - 1)
  | _, _ => none

theorem work?_eq {fault : Option StoreError} {reader : Reader} {token : Token} {work : AccessWork}
    (he : t.event = .access fault) (ha : t.before.access = some ⟨reader, .busy token work⟩) :
    t.work? = some work := by
  rw [work?, he, ha]

theorem place?_eq {fault : Option StoreError} {reader : Reader} {token : Token}
    {work : AccessWork} (he : t.event = .access fault)
    (ha : t.before.access = some ⟨reader, .busy token work⟩) (hw : work.isOver = false) :
    t.place? = some (reader.position - 1) := by
  rw [place?, he, ha]
  simp [hw]

/-- A policy stage without work, or with nothing left of it, is at no place. -/
theorem place?_eq_none {consumer : Consumer AccessWork} (ha : t.before.access = some consumer)
    (hw : ∀ token work, consumer.state = .busy token work → work.isOver) : t.place? = none := by
  unfold place?
  split
  · next he hb =>
    cases ha.symm.trans hb
    exact if_pos (hw _ _ rfl)
  · rfl

theorem place?_eq_none_of_ne (he : ∀ fault, t.event ≠ .access fault) : t.place? = none := by
  unfold place?
  split
  · next hf _ => exact absurd hf (he _)
  · rfl

end Transition

/-- The turns of the policy stage on the envelope at a place, last first. -/
def turnsOn (place : Nat) (history : List Transition) : List Transition :=
  history.filter fun t => t.place? = some place

variable {place : Nat}

theorem turnsOn_cons_of_eq (h : t.place? = some place) (history : List Transition) :
    turnsOn place (t :: history) = t :: turnsOn place history :=
  List.filter_cons_of_pos (decide_eq_true h)

theorem turnsOn_cons_of_ne (h : t.place? ≠ some place) (history : List Transition) :
    turnsOn place (t :: history) = turnsOn place history :=
  List.filter_cons_of_neg fun hd => h (of_decide_eq_true hd)

theorem turnsOn_eq_nil (h : ∀ t ∈ history, t.place? ≠ some place) : turnsOn place history = [] :=
  List.filter_eq_nil_iff.2 fun t ht hd => h t ht (of_decide_eq_true hd)

theorem mem_of_mem_turnsOn (h : t ∈ turnsOn place history) : t ∈ history :=
  List.mem_of_mem_filter h

end PolicyGate.Pipeline
