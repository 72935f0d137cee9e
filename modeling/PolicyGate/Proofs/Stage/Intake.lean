import PolicyGate.Proofs.List.Update
import PolicyGate.Proofs.Pipeline.Step
import PolicyGate.Proofs.Topic.Stream

/-!
What registrations publish. They take turns on one topic, and under each token there stands a first
part of the envelopes of its request. Main statement: whatever order the registrations go on in,
what was published under a token and what is still owed are the envelopes of its request
(`Intake.step`).
-/

namespace PolicyGate

open ListUpdate Envelope

theorem DataRequest.token_of_mem_envelopes {token : Token} {q : DataRequest}
    {e : Envelope DataRequest} (h : e ∈ q.envelopes token) : e.token = token := by
  simp only [envelopes, List.mem_cons, List.not_mem_nil, or_false] at h
  rcases h with rfl | rfl | rfl <;> rfl

/-- The envelopes that a registration has still to publish. One that fails may have left any of its
envelopes out. -/
def Registration.Owes (r : Registration) (rest : List (Envelope DataRequest)) : Prop :=
  match r.phase with
  | .fresh => rest = r.request.envelopes r.token
  | .publishing owed => rest = owed
  | .registered => rest = []
  | .failing _ => True
  | .rejected _ => True

/-- What a registration owes no longer has been published, in its order. -/
def Registration.HasPublished (r : Registration) (requests : List (Envelope DataRequest)) : Prop :=
  ∃ done rest, r.Owes rest ∧ done ++ rest = r.request.envelopes r.token ∧ done.Sublist requests

/-- A step of a registration publishes what it no longer owes. -/
theorem Registration.Stepped.owes {r r' : Registration} {reporter : Reporter}
    {requests requests' : Log DataRequest} {errors errors' : Log AuditEvent}
    (h : r.Stepped reporter requests errors r' requests' errors') :
    r'.token = r.token ∧ r'.request = r.request ∧
      ∃ more, requests'.envelopes = requests.envelopes ++ more ∧
        ∀ rest, r.Owes rest → ∃ rest', r'.Owes rest' ∧ rest = more ++ rest' := by
  cases h with
  | publish hp hl =>
    refine ⟨rfl, rfl, _, (Log.publish_eq_ok hl).2.2, fun rest ho => ⟨_, rfl, ?_⟩⟩
    simp only [Registration.Owes, hp] at ho
    exact ho
  | accept hp | complete hp =>
    refine ⟨rfl, rfl, [], (List.append_nil _).symm, fun rest ho => ⟨_, rfl, ?_⟩⟩
    simp only [Registration.Owes, hp] at ho
    exact ho
  | refuse | closed | report =>
    exact ⟨rfl, rfl, [], (List.append_nil _).symm, fun rest _ => ⟨rest, trivial, rfl⟩⟩

namespace Registration.HasPublished

variable {r r' : Registration} {requests requests' : List (Envelope DataRequest)}

theorem new (token : Token) (q : DataRequest) (requests : List (Envelope DataRequest)) :
    (Registration.new token q).HasPublished requests :=
  ⟨[], _, rfl, rfl, List.nil_sublist _⟩

theorem grow (H : r.HasPublished requests) (h : requests <+: requests') :
    r.HasPublished requests' := by
  obtain ⟨done, rest, ho, he, hd⟩ := H
  exact ⟨done, rest, ho, he, hd.trans h.sublist⟩

theorem step {reporter : Reporter} {requests requests' : Log DataRequest}
    {errors errors' : Log AuditEvent} (H : r.HasPublished requests.envelopes)
    (h : r.Stepped reporter requests errors r' requests' errors') :
    r'.HasPublished requests'.envelopes := by
  obtain ⟨htoken, hrequest, more, hmore, howes⟩ := h.owes
  obtain ⟨done, rest, ho, he, hd⟩ := H
  obtain ⟨rest', ho', rfl⟩ := howes rest ho
  refine ⟨done ++ more, rest', ho', ?_, hmore ▸ hd.append (.refl more)⟩
  rw [htoken, hrequest, List.append_assoc, he]

/-- Who is registered has published the whole request. -/
theorem sublist_of_registered (H : r.HasPublished requests) (h : r.phase = .registered) :
    (r.request.envelopes r.token).Sublist requests := by
  obtain ⟨done, rest, ho, he, hd⟩ := H
  simp only [Owes, h] at ho
  rwa [← he, ho, List.append_nil]

end Registration.HasPublished

/-- The tokens of registrations are distinct, each of them has published a first part of its
envelopes, and nobody else has published anything. -/
structure Intake (registrations : List Registration) (requests : List (Envelope DataRequest)) :
    Prop where
  distinct : (registrations.map Registration.token).Nodup
  owed : ∀ r ∈ registrations, ∃ rest, r.Owes rest ∧
    stream r.token requests ++ rest = r.request.envelopes r.token
  registered : ∀ e ∈ requests, ∃ r ∈ registrations, r.token = e.token

namespace Intake

variable {registrations : List Registration} {requests : List (Envelope DataRequest)}

theorem nil : Intake [] [] := ⟨List.nodup_nil, nofun, nofun⟩

/-- A request under a fresh token may come in at any time. -/
theorem register {token : Token} (H : Intake registrations requests)
    (h : ∀ r ∈ registrations, r.token ≠ token) (q : DataRequest) :
    Intake (registrations ++ [.new token q]) requests where
  distinct := by
    rw [List.map_append, List.nodup_append]
    refine ⟨H.distinct, by simp, ?_⟩
    rintro _ ht _ hn rfl
    obtain ⟨r, hr, rfl⟩ := List.mem_map.1 ht
    exact h r hr (List.mem_singleton.1 hn)
  owed r hr := by
    rcases List.mem_append.1 hr with hr | hr
    · exact H.owed r hr
    · cases List.mem_singleton.1 hr
      refine ⟨_, rfl, ?_⟩
      rw [stream_eq_nil, List.nil_append]
      intro e he ht
      obtain ⟨r, hr, hre⟩ := H.registered e he
      exact h r hr (hre.trans ht)
  registered e he := by
    obtain ⟨r, hr, ht⟩ := H.registered e he
    exact ⟨r, List.mem_append_left _ hr, ht⟩

/-- One registration goes on, and publishes what it no longer owes. -/
theorem replace {number : Nat} {r r' : Registration} {more : List (Envelope DataRequest)}
    (H : Intake registrations requests) (hr : registrations[number]? = some r)
    (ht : r'.token = r.token) (hq : r'.request = r.request)
    (ho : ∀ rest, r.Owes rest → ∃ rest', r'.Owes rest' ∧ rest = more ++ rest') :
    Intake (registrations.set number r') (requests ++ more) := by
  obtain ⟨rest, howes, hstream⟩ := H.owed r (List.mem_of_getElem? hr)
  obtain ⟨rest', howes', rfl⟩ := ho rest howes
  have hmore : ∀ e ∈ more, e.token = r.token := by
    intro e he
    refine DataRequest.token_of_mem_envelopes (q := r.request) ?_
    rw [← hstream]
    exact List.mem_append_right _ (List.mem_append_left _ he)
  constructor
  · rw [map_set_of_eq hr ht]
    exact H.distinct
  · intro v hv
    obtain ⟨j, hv⟩ := List.mem_iff_getElem?.1 hv
    rcases getElem?_set_cases hv with ⟨-, rfl⟩ | ⟨hne, hv⟩
    · refine ⟨rest', howes', ?_⟩
      rw [ht, hq, stream_append, stream_of_forall hmore, List.append_assoc]
      exact hstream
    · have htok : v.token ≠ r.token := fun h => hne (eq_of_nodup_map H.distinct hv hr h)
      have hnil : stream v.token more = [] := stream_eq_nil fun e he => hmore e he ▸ htok.symm
      rw [stream_append, hnil, List.append_nil]
      exact H.owed v (List.mem_of_getElem? hv)
  · intro e he
    rcases List.mem_append.1 he with he | he
    · obtain ⟨v, hv, hve⟩ := H.registered e he
      obtain ⟨j, hv⟩ := List.mem_iff_getElem?.1 hv
      by_cases hj : number = j
      · subst hj
        cases hr.symm.trans hv
        exact ⟨r', List.mem_of_getElem? (getElem?_set_of_some hr r'), ht.trans hve⟩
      · exact ⟨v, List.mem_of_getElem? ((List.getElem?_set_ne hj).trans hv), hve⟩
    · exact ⟨r', List.mem_of_getElem? (getElem?_set_of_some hr r'), ht.trans (hmore e he).symm⟩

theorem step {number : Nat} {r r' : Registration} {reporter : Reporter}
    {requests requests' : Log DataRequest} {errors errors' : Log AuditEvent}
    (H : Intake registrations requests.envelopes) (hr : registrations[number]? = some r)
    (h : r.Stepped reporter requests errors r' requests' errors') :
    Intake (registrations.set number r') requests'.envelopes := by
  obtain ⟨htoken, hrequest, more, hmore, howes⟩ := h.owes
  exact hmore ▸ H.replace hr htoken hrequest howes

end Intake

end PolicyGate
