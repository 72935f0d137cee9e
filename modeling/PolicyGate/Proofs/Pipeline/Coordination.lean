import PolicyGate.Proofs.Offset.Step
import PolicyGate.Proofs.Pipeline.Step

/-!
What the steps of a pipeline do to its coordinator. Main statement: a step of a pipeline leaves the
coordinator alone or is one step of the coordinator (`coordinator_of_step`), and a worker only ever
reads what the store of offsets has under the token of the worker.
-/

namespace PolicyGate.Pipeline

/-- The step of the coordinator that an event of a pipeline comes to. -/
inductive Drives (p : Pipeline) : Event → Coordinator.Event → Prop
  | command {e ce} : e.command? p.now = some ce → Drives p e ce
  | reading {number reading} : p.readings[number]? = some reading → reading.phase = .fresh →
    Drives p (.reading number) (.request reading.token)
  | index {fault reader token offset} :
    p.index = some ⟨reader, .busy token (.announcing offset)⟩ →
    Drives p (.index fault) (.available offset)
  | lookup {place w} : p.coordinator.workers[place]? = some w →
    Drives p (.workerLookup place none) (.read place (p.lookup w.token))
  | fail {place e} :
    Drives p (.workerLookup place (some e)) (.read place (.error e))

variable {p q : Pipeline} {e : Event}

/-- No command of a client lets a worker hear from the store. -/
theorem Event.command?_ne_read {now : Instant} {place : Nat}
    {answer : Except StoreError (Option TokenOffset)} :
    e.command? now ≠ some (.read place answer) := by
  cases e <;> simp [command?]

/-- A step of a pipeline leaves the coordinator alone or is one step of it. -/
theorem coordinator_of_step (h : p.step e = some q) : q.coordinator = p.coordinator ∨
    ∃ ce, Drives p e ce ∧ p.coordinator.step ce = some q.coordinator := by
  cases stepped h with
  | reading hr hs =>
    cases hs with
    | ask hp => exact .inr ⟨_, .reading hr hp, rfl⟩
    | hear | fail | more | complete | ended => exact .inl rfl
  | index hi hs =>
    cases hs with
    | announce => exact .inr ⟨_, .index hi, rfl⟩
    | take | drained | next | report | crashed | record => exact .inl rfl
  | coordinate he hc => exact .inr ⟨_, .command he, hc⟩
  | lookup hw hc => exact .inr ⟨_, .lookup hw, hc⟩
  | fail hc => exact .inr ⟨_, .fail, hc⟩
  | register | registration | read | access | setResourceRules | setRecordRules | wait
  | closeRequests | closeOutput | closeErrors => exact .inl rfl

end PolicyGate.Pipeline
