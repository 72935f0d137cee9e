import PolicyGate.Proofs.Pipeline.Step
import PolicyGate.Proofs.Store.Kept
import PolicyGate.Proofs.Topic.Stream

/-!
What the policy stage releases. Main statement: as long as the store takes the authorisations, what
it has published and what it still owes for the envelope at hand are what the envelopes up to there
release, one after the other (`Released.step`).
-/

namespace PolicyGate

open Envelope

variable {policies : PolicyService} {users : UserDirectory} {token : Token} {q : DataRequest}

/-- The answer to a request: the resource with the rules for its records if it is granted, and
nothing if it is denied or cannot be decided. -/
def PolicyService.answer (policies : PolicyService) (users : UserDirectory) (token : Token)
    (q : DataRequest) : List AuthorisedResource :=
  match policies.decide users token q with
  | .ok (some g) => [g.released (policies.recordRules? g.request.resource)]
  | .ok none => []
  | .error _ => []

/-- What an envelope releases: a marker the same marker, a request its answer. -/
def released (policies : PolicyService) (users : UserDirectory) (e : Envelope DataRequest) :
    List (Envelope AuthorisedResource) :=
  match e.frame with
  | .start => [⟨e.token, .start⟩]
  | .message q => (policies.answer users e.token q).map fun a => ⟨e.token, .message a⟩
  | .finish => [⟨e.token, .finish⟩]

theorem token_of_mem_released (e : Envelope DataRequest) :
    ∀ e' ∈ released policies users e, e'.token = e.token := by
  intro e' h
  unfold released at h
  split at h
  · cases List.mem_singleton.1 h; rfl
  · obtain ⟨_, _, rfl⟩ := List.mem_map.1 h; rfl
  · cases List.mem_singleton.1 h; rfl

theorem released_envelopes (token : Token) (q : DataRequest) :
    (q.envelopes token).flatMap (released policies users) =
      ⟨token, .start⟩ :: ((policies.answer users token q).map fun a => ⟨token, .message a⟩)
        ++ [⟨token, .finish⟩] := by
  simp [DataRequest.envelopes, released]

/-- The token is no part of the answer. -/
theorem answer_eq_of_token (policies : PolicyService) (users : UserDirectory)
    (token token' : Token) (q : DataRequest) :
    policies.answer users token q = policies.answer users token' q := by
  unfold PolicyService.answer PolicyService.decide
  cases policies.compiledResourceRules q.resource with
  | error => rfl
  | ok rules =>
    simp only
    cases CompiledRules.apply (some rules) (Resource.ofId q.resource) (users.resolve q.user)
        q.context with
    | error => rfl
    | ok resource => cases resource <;> rfl

theorem decide_eq_some {g : Grant} (h : policies.decide users token q = .ok (some g)) :
    g.token = token ∧ g.request = q := by
  unfold PolicyService.decide at h
  simp only at h
  split at h
  · cases h
  · split at h
    · cases h
    · cases h
    · cases h; exact ⟨rfl, rfl⟩

/-- What the policy stage still has to publish for the envelope at hand. If it stops, it may leave
anything out. -/
inductive AccessWork.Owes (policies : PolicyService) (users : UserDirectory) :
    AccessWork → List (Envelope AuthorisedResource) → Prop
  | deciding {t q} : Owes policies users (.deciding t q) (released policies users ⟨t, .message q⟩)
  | granted {g} : Owes policies users (.granted g)
    [⟨g.token, .message (g.released (policies.recordRules? g.request.resource))⟩]
  | recording {g rules} : Owes policies users (.recording g rules)
    [⟨g.token, .message (g.released rules)⟩]
  | publishing {e} : Owes policies users (.publishing e) [e]
  | reporting {t q e} : Owes policies users (.reporting t q e) []
  | done : Owes policies users .done []
  | refused {e rest} : Owes policies users (.refused e) rest
  | crashed {rest} : Owes policies users .crashed rest

/-- What a policy stage still has to publish for the envelopes that it has taken. -/
inductive ConsumerState.Owes (policies : PolicyService) (users : UserDirectory) :
    ConsumerState AccessWork → List (Envelope AuthorisedResource) → Prop
  | idle : Owes policies users .idle []
  | busy {t work rest} : work.Owes policies users rest → Owes policies users (.busy t work) rest
  | over {ending rest} : Owes policies users (.over ending) rest

namespace AccessWork

theorem owes_ofEnvelope (e : Envelope DataRequest) :
    (ofEnvelope e).Owes policies users (released policies users e) := by
  obtain ⟨t, frame⟩ := e
  cases frame with
  | start | finish => exact .publishing
  | message => exact .deciding

/-- A decision owes what its request releases. -/
theorem owes_ofDecision (token : Token) (q : DataRequest) :
    (ofDecision token q (policies.decide users token q)).Owes policies users
      (released policies users ⟨token, .message q⟩) := by
  simp only [released, PolicyService.answer]
  cases hd : policies.decide users token q with
  | error e => exact .reporting
  | ok grant =>
    cases grant with
    | none => exact .done
    | some g =>
      obtain ⟨rfl, -⟩ := decide_eq_some hd
      exact .granted

/-- A store that takes an authorisation lets its resource be released; otherwise the stage dies. -/
theorem owes_ofRecording {s : Store} (ha : s.Accepts) (now : Instant) (g : Grant)
    (rules : Option RecordRules) (a : AuthorisedRequest) :
    (ofRecording g rules (s.put AuthorisedRequest.recordType now a.storageKey a none)).Owes
      policies users [⟨g.token, .message (g.released rules)⟩] := by
  rcases ha.put AuthorisedRequest.recordType now a.storageKey a none with hp | ⟨s', hp, -⟩
  · rw [hp]
    exact .crashed
  · rw [hp]
    exact .publishing

end AccessWork

/-- The stage has published what the envelopes release that it has taken, up to what it owes. -/
structure Released (policies : PolicyService) (users : UserDirectory)
    (requests : List (Envelope DataRequest)) (stage : Consumer AccessWork)
    (output : List (Envelope AuthorisedResource)) : Prop where
  position : stage.reader.position ≤ requests.length
  owed : ∃ rest, stage.state.Owes policies users rest ∧
    output ++ rest = (requests.take stage.reader.position).flatMap (released policies users)

namespace Released

variable {requests more : List (Envelope DataRequest)} {stage : Consumer AccessWork}
  {output : List (Envelope AuthorisedResource)}

theorem grow (H : Released policies users requests stage output)
    (more : List (Envelope DataRequest)) :
    Released policies users (requests ++ more) stage output where
  position := by
    rw [List.length_append]
    exact Nat.le_add_right_of_le H.position
  owed := by
    rw [List.take_append_of_le_length H.position]
    exact H.owed

/-- A step of the stage that takes no envelope turns what is owed into output. -/
theorem work {reader : Reader} {t : Token} {w : AccessWork} {state : ConsumerState AccessWork}
    {output' : List (Envelope AuthorisedResource)}
    (H : Released policies users requests ⟨reader, .busy t w⟩ output)
    (h : ∀ rest, w.Owes policies users rest → ∃ rest', state.Owes policies users rest' ∧
      output' ++ rest' = output ++ rest) :
    Released policies users requests ⟨reader, state⟩ output' where
  position := H.position
  owed := by
    obtain ⟨rest, ho, he⟩ := H.owed
    cases ho with
    | busy ho =>
      obtain ⟨rest', ho', he'⟩ := h rest ho
      exact ⟨rest', ho', he'.trans he⟩

/-- A step of the policy stage puts out what it was bound to, and no more. -/
theorem step {p : Pipeline} {stage' : Consumer AccessWork} {authorised : Store}
    {output : Log AuthorisedResource} {errors : Log AuditEvent}
    (H : Released p.policies p.users p.requests.envelopes stage p.output.envelopes)
    (ha : p.authorised.Accepts)
    (h : p.AccessStepped none stage authorised output errors stage') :
    Released p.policies p.users p.requests.envelopes stage' output.envelopes := by
  cases h with
  | take he =>
    obtain ⟨envelope, hx, rfl⟩ := Log.exists_of_read he
    obtain ⟨rest, ho, hr⟩ := H.owed
    cases ho
    refine ⟨(List.getElem?_eq_some_iff.1 hx).1, _, .busy (AccessWork.owes_ofEnvelope _), ?_⟩
    rw [List.append_nil] at hr
    simp only [List.take_add_one, hx, Option.toList_some, List.flatMap_append,
      List.flatMap_singleton, hr]
  | drained =>
    obtain ⟨rest, ho, hr⟩ := H.owed
    exact ⟨H.position, rest, .over, hr⟩
  | next => exact H.work fun rest ho => by cases ho; exact ⟨_, .idle, rfl⟩
  | refused | crashed => exact H.work fun rest ho => ⟨rest, .over, rfl⟩
  | decide =>
    refine H.work fun rest ho => ?_
    cases ho
    exact ⟨_, .busy (AccessWork.owes_ofDecision _ _), rfl⟩
  | lookUp => exact H.work fun rest ho => by cases ho; exact ⟨_, .busy .recording, rfl⟩
  | record =>
    refine H.work fun rest ho => ?_
    cases ho
    exact ⟨_, .busy (AccessWork.owes_ofRecording ha _ _ _ _), rfl⟩
  | publish hl =>
    refine H.work fun rest ho => ?_
    cases ho
    rw [(Log.publish_eq_ok hl).2.2]
    exact ⟨_, .busy .done, List.append_nil _⟩
  | refuse => exact H.work fun rest ho => ⟨rest, .busy .refused, rfl⟩
  | report => exact H.work fun rest ho => by cases ho; exact ⟨_, .busy .done, rfl⟩

/-- What the stage has published under a token is a first part of what the envelopes under the token
release. -/
theorem stream_released (H : Released policies users requests stage output) (token : Token) :
    stream token output <+: (stream token requests).flatMap (released policies users) := by
  obtain ⟨rest, -, he⟩ := H.owed
  obtain ⟨taken, hr⟩ : ∃ taken, requests.take stage.reader.position ++ taken = requests :=
    ⟨_, List.take_append_drop _ _⟩
  rw [← stream_flatMap token_of_mem_released]
  refine stream_mono ⟨rest ++ taken.flatMap (released policies users), ?_⟩ token
  rw [← List.append_assoc, he, ← List.flatMap_append, hr]

end Released

end PolicyGate
