import PolicyGate.Topic.Log

/-!
The stream of a token: what a log holds of it, in the order of the log. Main statement: an entry
goes to the end of the stream of its own token and leaves the others as they are.
-/

namespace PolicyGate.Envelope

variable {α β : Type} {token : Token} {l : List (Envelope α)} {e : Envelope α}

/-- The envelopes of a token. -/
def stream (token : Token) (l : List (Envelope α)) : List (Envelope α) :=
  l.filter fun e => e.token = token

@[simp] theorem stream_append (token : Token) (l l' : List (Envelope α)) :
    stream token (l ++ l') = stream token l ++ stream token l' := List.filter_append ..

theorem mem_stream : e ∈ stream token l ↔ e ∈ l ∧ e.token = token := by simp [stream]

theorem stream_of_forall (h : ∀ e ∈ l, e.token = token) : stream token l = l :=
  List.filter_eq_self.2 fun e he => decide_eq_true (h e he)

theorem stream_eq_nil (h : ∀ e ∈ l, e.token ≠ token) : stream token l = [] :=
  List.filter_eq_nil_iff.2 fun e he => by simpa using h e he

theorem stream_singleton (h : e.token = token) : stream token [e] = [e] := by simp [stream, h]

theorem stream_singleton_of_ne (h : e.token ≠ token) : stream token [e] = [] := by
  simp [stream, h]

/-- What is done to each envelope under its own token is done to each stream. -/
theorem stream_flatMap {f : Envelope α → List (Envelope β)}
    (h : ∀ e, ∀ e' ∈ f e, e'.token = e.token) (token : Token) (l : List (Envelope α)) :
    stream token (l.flatMap f) = (stream token l).flatMap f := by
  induction l with
  | nil => rfl
  | cons e rest ih =>
    rw [List.flatMap_cons, stream_append, ih]
    by_cases he : e.token = token
    · rw [stream_of_forall fun e' he' => (h e e' he').trans he]
      simp [stream, he]
    · rw [stream_eq_nil fun e' he' => (h e e' he').symm ▸ he]
      simp [stream, he]

theorem stream_mono {l' : List (Envelope α)} (h : l <+: l') (token : Token) :
    stream token l <+: stream token l' := h.filter _

end PolicyGate.Envelope
