import PolicyGate.Proofs.Pipeline.Step

/-!
The topics of a pipeline. Whatever step is taken, a topic only grows, and one that is closed stays
as it is. Main statements: every step keeps each of the three topics in this sense
(`Stepped.requests`, `Stepped.output`, `Stepped.errors`), and it closes none unless that is its
purpose (`Stepped.isClosed_eq`).
-/

namespace PolicyGate

namespace Log

variable {α : Type} {l l' l'' : Log α}

/-- What may become of a topic that entries are published on at once: it grows while it is open. -/
structure Kept (l l' : Log α) : Prop where
  envelopes : l.envelopes <+: l'.envelopes
  closed : l.isClosed → l'.isClosed ∧ l'.envelopes = l.envelopes

theorem publish_of_isClosed (h : l.isClosed) (envelope : Envelope α) :
    l.publish envelope = .error l.closedError := if_pos h

theorem isClosed_of_publish_eq_ok {envelope : Envelope α} {n : Nat}
    (h : l.publish envelope = .ok (n, l')) : l'.isClosed = l.isClosed := by
  unfold publish at h
  split at h
  · cases h
  · cases h
    rfl

namespace Kept

theorem refl (l : Log α) : l.Kept l := ⟨List.prefix_rfl, fun h => ⟨h, rfl⟩⟩

theorem trans (H : l.Kept l') (H' : l'.Kept l'') : l.Kept l'' where
  envelopes := H.envelopes.trans H'.envelopes
  closed h := by
    obtain ⟨hc, he⟩ := H.closed h
    obtain ⟨hc', he'⟩ := H'.closed hc
    exact ⟨hc', he'.trans he⟩

theorem close (l : Log α) : l.Kept l.close := ⟨List.prefix_rfl, fun _ => ⟨rfl, rfl⟩⟩

theorem publish {envelope : Envelope α} {n : Nat} (h : l.publish envelope = .ok (n, l')) :
    l.Kept l' := by
  obtain ⟨hopen, -, he⟩ := publish_eq_ok h
  exact ⟨⟨_, he.symm⟩, by simp [hopen]⟩

theorem report (r : Reporter) (errors : Log AuditEvent) (token : Token)
    (request : Option DataRequest) (error : StageError) :
    errors.Kept (r.report errors token request error) := by
  unfold Reporter.report
  split
  · next h => exact publish h
  · exact refl errors

end Kept

end Log

theorem isClosed_report (r : Reporter) (errors : Log AuditEvent) (token : Token)
    (request : Option DataRequest) (error : StageError) :
    (r.report errors token request error).isClosed = errors.isClosed := by
  unfold Reporter.report
  split
  · next h => exact Log.isClosed_of_publish_eq_ok h
  · rfl

namespace Pipeline

/-- Whether an event closes a topic. -/
def Event.closes : Event → Bool
  | .closeRequests => true
  | .closeOutput => true
  | .closeErrors => true
  | _ => false

variable {p q : Pipeline} {e : Event}

namespace Stepped

theorem wiring_eq (h : Stepped p e q) : q.wiring = p.wiring := by
  cases h <;> rfl

theorem requests (h : Stepped p e q) : p.requests.Kept q.requests := by
  cases h with
  | registration _ hs =>
    cases hs with
    | publish _ hl => exact .publish hl
    | accept | refuse | closed | complete | report => exact .refl _
  | closeRequests => exact .close _
  | _ => exact .refl _

theorem output (h : Stepped p e q) : p.output.Kept q.output := by
  cases h with
  | access _ hs =>
    cases hs with
    | publish hl => exact .publish hl
    | take | drained | next | refused | crashed | decide | lookUp | record | refuse | report =>
      exact .refl _
  | closeOutput => exact .close _
  | _ => exact .refl _

theorem errors (h : Stepped p e q) : p.errors.Kept q.errors := by
  cases h with
  | registration _ hs =>
    cases hs with
    | report => exact .report ..
    | accept | refuse | publish | closed | complete => exact .refl _
  | access _ hs =>
    cases hs with
    | report => exact .report ..
    | take | drained | next | refused | crashed | decide | lookUp | record | publish | refuse =>
      exact .refl _
  | index _ hs =>
    cases hs with
    | report => exact .report ..
    | take | drained | next | crashed | record | announce => exact .refl _
  | closeErrors => exact .close _
  | _ => exact .refl _

/-- No topic is closed by the way. -/
theorem isClosed_eq (h : Stepped p e q) (he : e.closes = false) :
    q.requests.isClosed = p.requests.isClosed ∧ q.output.isClosed = p.output.isClosed ∧
      q.errors.isClosed = p.errors.isClosed := by
  cases h with
  | registration _ hs =>
    cases hs with
    | publish _ hl => exact ⟨Log.isClosed_of_publish_eq_ok hl, rfl, rfl⟩
    | report => exact ⟨rfl, rfl, isClosed_report ..⟩
    | accept | refuse | closed | complete => exact ⟨rfl, rfl, rfl⟩
  | access _ hs =>
    cases hs with
    | publish hl => exact ⟨rfl, Log.isClosed_of_publish_eq_ok hl, rfl⟩
    | report => exact ⟨rfl, rfl, isClosed_report ..⟩
    | take | drained | next | refused | crashed | decide | lookUp | record | refuse =>
      exact ⟨rfl, rfl, rfl⟩
  | index _ hs =>
    cases hs with
    | report => exact ⟨rfl, rfl, isClosed_report ..⟩
    | take | drained | next | crashed | record | announce => exact ⟨rfl, rfl, rfl⟩
  | closeRequests | closeOutput | closeErrors => cases he
  | _ => exact ⟨rfl, rfl, rfl⟩

end Stepped

/-- The topics are kept for good. -/
theorem Reachable.topics (h : Reachable p q) :
    p.requests.Kept q.requests ∧ p.output.Kept q.output ∧ p.errors.Kept q.errors := by
  induction h with
  | refl => exact ⟨.refl _, .refl _, .refl _⟩
  | step _ _ hs ih =>
    have h := stepped hs
    exact ⟨ih.1.trans h.requests, ih.2.1.trans h.output, ih.2.2.trans h.errors⟩

end Pipeline

end PolicyGate
