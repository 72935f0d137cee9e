import PolicyGate.Pipeline.Stages
import PolicyGate.Proofs.Policy.Reached

/-!
The decision about a request. Main statement: with the built-in rules the policy stage releases a
resource exactly if rules are in force for it and user and context satisfy each of them
(`handleRequest_iff`).
-/

namespace PolicyGate

variable {policies : PolicyService} {users : UserDirectory} {token : Token} {q : DataRequest}

/-- Rules are in force for the resource of a request, and all of them permit it. -/
def Permitted (policies : PolicyService) (users : UserDirectory) (q : DataRequest) : Prop :=
  ∃ set, policies.resourceRules? q.resource = some set ∧
    ∀ name ∈ set.names, Permits (users.resolve q.user) q.context name

/-- Among the rules in force for the resource of a request there is one that requires a role. -/
def RequiresRole (policies : PolicyService) (q : DataRequest) : Prop :=
  ∃ set, policies.resourceRules? q.resource = some set ∧
    ∃ name ∈ set.names, ∃ role, RuleName name "require_role" (some role)

/-- What can be decided about a request. -/
inductive Decided (policies : PolicyService) (users : UserDirectory) (token : Token)
    (q : DataRequest) : Except StageError (Option Grant) → Prop
  | unknown : policies.resourceRules? q.resource = none →
    Decided policies users token q (.error (.rule (.noPolicy q.resource.text)))
  | denied : policies.resourceRules? q.resource ≠ none → ¬ Permitted policies users q →
    Decided policies users token q (.ok none)
  | granted : Permitted policies users q →
    Decided policies users token q
      (.ok (some ⟨token, q, users.resolve q.user, .ofId q.resource⟩))

theorem Permitted.ne_none (h : Permitted policies users q) :
    policies.resourceRules? q.resource ≠ none := by
  obtain ⟨set, hs, -⟩ := h
  simp [hs]

/-- Every decision is one of those that are listed. -/
theorem decided (h : policies.Reached .builtins) (users : UserDirectory) (token : Token)
    (q : DataRequest) : Decided policies users token q (policies.decide users token q) := by
  unfold PolicyService.decide
  cases hs : policies.resourceRules? q.resource with
  | none =>
    rw [PolicyService.compiledResourceRules_of_none q.resource hs]
    exact .unknown hs
  | some set =>
    obtain ⟨rules, hr, hc⟩ := h.compiledResourceRules_eq hs
    rw [hc]
    simp only [CompiledRules.apply]
    rcases Registry.runAll_builtins hr (Resource.ofId q.resource) (users.resolve q.user) q.context
      with ⟨hk, hall⟩ | ⟨hd, entry, he, hno⟩
    · rw [hk]
      exact .granted ⟨set, hs, List.forall_mem_map.2 hall⟩
    · rw [hd]
      refine .denied (by simp [hs]) fun ⟨set', hs', hall⟩ => hno ?_
      cases hs.symm.trans hs'
      exact hall _ (List.mem_map_of_mem he)

/-- A user whom the directory does not know has none of the roles that a rule can require. -/
theorem not_permitted_of_unknown (h : users.get? q.user = none) (hr : RequiresRole policies q) :
    ¬ Permitted policies users q := by
  obtain ⟨set, hs, name, hn, role, hname⟩ := hr
  rintro ⟨set', hs', hall⟩
  cases hs.symm.trans hs'
  have hp := hall name hn
  rw [UserDirectory.resolve_of_get?_eq_none h] at hp
  rcases hp with hp | ⟨_, hrole⟩ | ⟨hp, _⟩
  · cases (hname.unique hp).2
  · cases hrole
  · exact absurd (hname.unique hp).1 (by decide)

namespace Pipeline

variable {p : Pipeline}

theorem handleRequest_of_error {e : StageError}
    (h : p.policies.decide p.users token q = .error e) :
    p.handleRequest none ⟨token, .message q⟩ =
      ({ p with errors := p.accessReporter.report p.errors token (some q) e }, .done) := by
  simp [handleRequest, handleAccess, accessSteps, AccessWork.ofEnvelope, workAccess, h,
    AccessWork.ofDecision]

theorem handleRequest_of_denied (h : p.policies.decide p.users token q = .ok none) :
    p.handleRequest none ⟨token, .message q⟩ = (p, .done) := by
  simp [handleRequest, handleAccess, accessSteps, AccessWork.ofEnvelope, workAccess, h,
    AccessWork.ofDecision]

/-- A request that is granted and recorded is published, from its start marker to its end marker. -/
theorem handleRequest_of_granted {g : Grant} {store : Store} (ho : p.output.isClosed = false)
    (h : p.policies.decide p.users token q = .ok (some g))
    (hs : p.putAuthorised none (g.authorisation (p.policies.recordRules? g.request.resource)) =
      .ok store) :
    ∃ output : Log AuthorisedResource,
      p.handleRequest none ⟨token, .message q⟩ =
        ({ p with authorised := store, output }, .done) ∧
      output.envelopes = p.output.envelopes ++
        [⟨g.token, .message (g.released (p.policies.recordRules? g.request.resource))⟩] := by
  refine ⟨(p.output.append ⟨g.token, .message (g.released
    (p.policies.recordRules? g.request.resource))⟩).signal (p.output.endOffset + 1), ?_,
    p.output.envelopes_append _⟩
  simp [handleRequest, handleAccess, accessSteps, AccessWork.ofEnvelope, workAccess, h,
    AccessWork.ofDecision, hs, AccessWork.ofRecording, Log.publish, ho, Except.toOption]

/-- When the output is open and the authorisation can be stored, the policy stage releases the
resource of a request exactly if rules are in force for it and user and context satisfy each of
them. What it releases is the resource as it was asked for, with the user of the directory, the
context of the request and the rules for the records. Without rules there is just one audit event,
and a denial leaves nothing behind. A user whom the directory does not know is denied whatever
requires a role. -/
theorem handleRequest_iff (token : Token) (q : DataRequest) {after : Pipeline} {work : AccessWork}
    {store : Store}
    (hp : p.policies.Reached .builtins) (ho : p.output.isClosed = false)
    (hs : p.putAuthorised none ⟨token, q.resource, p.users.resolve q.user, q.context,
      p.policies.recordRules? q.resource⟩ = .ok store)
    (h : p.handleRequest none ⟨token, .message q⟩ = (after, work)) :
    ((∃ m, after.output.envelopes = p.output.envelopes ++ [⟨token, .message m⟩]) ↔
      Permitted p.policies p.users q) ∧
    (∀ m, after.output.envelopes = p.output.envelopes ++ [⟨token, .message m⟩] →
      m = ⟨p.users.resolve q.user, q.context, .ofId q.resource,
        p.policies.recordRules? q.resource⟩) ∧
    (p.policies.resourceRules? q.resource = none →
      after = { p with errors := after.errors } ∧
      (p.errors.isClosed = false → after.errors.envelopes = p.errors.envelopes ++
        [⟨token, .message (p.accessReporter.event token (some q)
          (.rule (.noPolicy q.resource.text)))⟩])) ∧
    (p.policies.resourceRules? q.resource ≠ none → ¬ Permitted p.policies p.users q →
      after = p) ∧
    (p.users.get? q.user = none → RequiresRole p.policies q → after = p) := by
  have hlast : ∀ envelope, p.output.envelopes ≠ p.output.envelopes ++ [envelope] := by simp
  have hunknown : (p.policies.resourceRules? q.resource ≠ none →
      ¬ Permitted p.policies p.users q → after = p) → p.users.get? q.user = none →
      RequiresRole p.policies q → after = p := by
    intro hdenied hu hr
    refine hdenied ?_ (not_permitted_of_unknown hu hr)
    obtain ⟨set, hset, -⟩ := hr
    simp [hset]
  have hd := decided hp p.users token q
  generalize he : p.policies.decide p.users token q = decision at hd
  cases hd with
  | unknown hno =>
    rw [handleRequest_of_error he] at h
    cases h
    exact ⟨⟨fun ⟨_, hm⟩ => absurd hm (hlast _), fun hperm => absurd hno hperm.ne_none⟩,
      fun _ hm => absurd hm (hlast _),
      fun _ => ⟨rfl, fun hc => Reporter.envelopes_report _ hc ..⟩,
      fun hsome => absurd hno hsome, hunknown fun hsome => absurd hno hsome⟩
  | denied hsome hno =>
    rw [handleRequest_of_denied he] at h
    cases h
    exact ⟨⟨fun ⟨_, hm⟩ => absurd hm (hlast _), fun hperm => absurd hperm hno⟩,
      fun _ hm => absurd hm (hlast _), fun hnone => absurd hnone hsome, fun _ _ => rfl,
      fun _ _ => rfl⟩
  | granted hperm =>
    obtain ⟨output, hg, hm⟩ := handleRequest_of_granted (g := ⟨token, q, _, _⟩) ho he hs
    rw [hg] at h
    cases h
    refine ⟨⟨fun _ => hperm, fun _ => ⟨_, hm⟩⟩, fun m hm' => ?_,
      fun hnone => absurd hnone hperm.ne_none, fun _ hno => absurd hperm hno,
      hunknown fun _ hno => absurd hperm hno⟩
    rw [hm] at hm'
    simpa [Grant.released, eq_comm] using hm'

/-- A folder requires a role and a file in it requires a purpose: who has both is let in, and who
is not known is not. -/
theorem handleRequest_iff_inherited : ∃ (p : Pipeline) (known unknown : DataRequest)
    (after : Pipeline), p.policies.Reached .builtins ∧
      p.handleRequest none ⟨⟨"t"⟩, .message known⟩ = (after, .done) ∧
      Permitted p.policies p.users known ∧
      p.users.get? unknown.user = none ∧ ¬ Permitted p.policies p.users unknown := by
  have hp := PolicyService.Reached.resource
    (.resource (.new (c := .builtins)) ⟨"data/"⟩ ⟨"", .ofList [("a", "require_role: reader")]⟩)
    ⟨"data/x"⟩ ⟨"", .ofList [("b", "require_purpose:audit")]⟩
  refine ⟨.new ⟨.builtins, .start, ⟨1000⟩, "host", default⟩ _
    (.ofList [(User.ofId ⟨"ann"⟩).withRole "reader"]) (.memory .empty) (.memory .empty) ⟨1000⟩,
    ⟨⟨"ann"⟩, ⟨"data/x"⟩, .ofPurpose "audit"⟩, ⟨⟨"eve"⟩, ⟨"data/x"⟩, .ofPurpose "audit"⟩, _,
    hp, rfl, (handleRequest_iff ⟨"t"⟩ _ hp rfl rfl rfl).1.1 ⟨_, rfl⟩, rfl, fun hno => ?_⟩
  obtain ⟨_, hm⟩ := (handleRequest_iff ⟨"t"⟩ _ hp rfl rfl rfl).1.2 hno
  cases hm

end Pipeline

end PolicyGate
