import Mathlib.Data.List.Nodup
import PolicyGate.Proofs.Pipeline.Offers
import PolicyGate.Proofs.Pipeline.Topics
import PolicyGate.Proofs.Stage.Gather
import PolicyGate.Proofs.Stage.Intake
import PolicyGate.Proofs.Stage.Release

/-!
What clients read back. Their requests stand between those of others on two topics, a reading may
begin at any time, and it learns from a worker where to begin. Main statement: a reading that comes
to a result has the answer to the one request that was registered under its token
(`answer_of_own_request`).
-/

namespace PolicyGate.Pipeline

open Envelope ListUpdate

/-- The store of offsets knows nothing of a token. -/
def Fresh (p : Pipeline) (token : Token) : Prop :=
  p.offsets.kept? TokenOffset.recordType token.text = none

/-- What may happen to a pipeline that began as `p₀`: requests are registered under new tokens, the
store takes the authorisations, the policies stay as they are, and nobody but the offset stage
announces offsets. -/
def Admits (p₀ p : Pipeline) : Event → Prop
  | .register token _ => p₀.Fresh token ∧ ∀ r ∈ p.registrations, r.token ≠ token
  | .access fault => fault = none
  | .announce _ => False
  | .setResourceRules _ _ => False
  | .setRecordRules _ _ => False
  | _ => True

/-- The runs in which nothing else happens. -/
inductive Served (p₀ : Pipeline) : Pipeline → Prop
  | start : Served p₀ p₀
  | step {p q e} : Served p₀ p → Admits p₀ p e → p.step e = some q → Served p₀ q

/-- What holds throughout such a run. -/
structure Upheld (p₀ p : Pipeline) : Prop where
  policies : p.policies = p₀.policies
  users : p.users = p₀.users
  accepts : p.authorised.Accepts
  fresh : ∀ r ∈ p.registrations, p₀.Fresh r.token
  intake : Intake p.registrations p.requests.envelopes
  released : ∃ stage, p.access = some stage ∧
    Released p.policies p.users p.requests.envelopes stage p.output.envelopes
  offers : Offers (fun o => p₀.Fresh o.token → o.Points p.wiring.boundary p.output.envelopes)
    p.offsets p.index p.coordinator
  readings : ∀ r ∈ p.readings, r.Sound p₀.Fresh p.coordinator.requests p.output.envelopes

variable {p₀ p q : Pipeline} {e : Event}

theorem asked_mono (h : p.step e = some q) :
    p.coordinator.requests <+: q.coordinator.requests := by
  rcases coordinator_of_step h with hc | ⟨_, -, hc⟩
  · exact hc ▸ List.prefix_rfl
  · exact Coordinator.requests_mono hc

namespace Upheld

/-- A store that accepts records goes on to do so. -/
theorem accepts_step (H : Upheld p₀ p) (ha : Admits p₀ p e) (h : Stepped p e q) :
    q.authorised.Accepts := by
  cases h with
  | access _ hs =>
    cases ha
    cases hs with
    | record => exact H.accepts.getD_put _ _ _ _ _
    | take | drained | next | refused | crashed | decide | lookUp | publish | refuse | report =>
      exact H.accepts
  | wait => exact H.accepts.advance _ _
  | _ => exact H.accepts

theorem fresh_step (H : Upheld p₀ p) (ha : Admits p₀ p e) (h : Stepped p e q) :
    ∀ r ∈ q.registrations, p₀.Fresh r.token := by
  cases h with
  | register =>
    intro r hr
    rcases List.mem_append.1 hr with hr | hr
    · exact H.fresh r hr
    · cases List.mem_singleton.1 hr
      exact ha.1
  | registration hr hs =>
    intro v hv
    rcases List.mem_or_eq_of_mem_set hv with hv | rfl
    · exact H.fresh v hv
    · have hf := H.fresh _ (List.mem_of_getElem? hr)
      cases hs <;> exact hf
  | _ => exact H.fresh

theorem intake_step (H : Upheld p₀ p) (ha : Admits p₀ p e) (h : Stepped p e q) :
    Intake q.registrations q.requests.envelopes := by
  cases h with
  | register => exact H.intake.register ha.2 _
  | registration hr hs => exact H.intake.step hr hs
  | _ => exact H.intake

/-- What the policy stage has put out is what it was bound to, after every step. -/
theorem released_step (H : Upheld p₀ p) (ha : Admits p₀ p e) (h : Stepped p e q) :
    ∃ stage, q.access = some stage ∧
      Released q.policies q.users q.requests.envelopes stage q.output.envelopes := by
  obtain ⟨more, hmore⟩ := h.requests.envelopes
  obtain ⟨stage, hs, hr⟩ := H.released
  cases h with
  | registration => exact ⟨stage, hs, hmore ▸ hr.grow more⟩
  | access hc hx =>
    cases ha
    cases hs.symm.trans hc
    exact ⟨_, rfl, hr.step H.accepts hx⟩
  | setResourceRules | setRecordRules => cases ha
  | _ => exact ⟨stage, hs, hr⟩

theorem offers_step (H : Upheld p₀ p) (ha : Admits p₀ p e) (h : Stepped p e q) :
    Offers (fun o => p₀.Fresh o.token → o.Points q.wiring.boundary q.output.envelopes)
      q.offsets q.index q.coordinator := by
  have hw : q.wiring = p.wiring := by cases h <;> rfl
  have ho : Offers (fun o => p₀.Fresh o.token → o.Points p.wiring.boundary p.output.envelopes)
      q.offsets q.index q.coordinator :=
    H.offers.step h (fun n e hn hm _ => ⟨n, e, rfl, hn, rfl, hm⟩) (by rintro o rfl; exact ha)
  exact hw ▸ ho.mono fun o hp hf => (hp hf).mono h.output.envelopes

theorem readings_step (H : Upheld p₀ p) (hs : p.step e = some q) :
    ∀ r ∈ q.readings, r.Sound p₀.Fresh q.coordinator.requests q.output.envelopes := by
  have h := stepped hs
  have hgrow : ∀ r ∈ p.readings, r.Sound p₀.Fresh q.coordinator.requests q.output.envelopes :=
    fun r hr => (H.readings r hr).grow (asked_mono hs) h.output.envelopes
  cases h with
  | read =>
    intro r hr
    rcases List.mem_append.1 hr with hr | hr
    · exact hgrow r hr
    · cases List.mem_singleton.1 hr
      trivial
  | reading hr hx =>
    intro v hv
    rcases List.mem_or_eq_of_mem_set hv with hv | rfl
    · exact hgrow v hv
    · exact (H.readings _ (List.mem_of_getElem? hr)).step H.offers.knows hx
  | _ => exact hgrow

/-- Every step of such a run keeps what holds throughout. -/
theorem step (H : Upheld p₀ p) (ha : Admits p₀ p e) (hs : p.step e = some q) : Upheld p₀ q where
  policies := by
    cases stepped hs with
    | setResourceRules | setRecordRules => cases ha
    | _ => exact H.policies
  users := by cases stepped hs <;> exact H.users
  accepts := H.accepts_step ha (stepped hs)
  fresh := H.fresh_step ha (stepped hs)
  intake := H.intake_step ha (stepped hs)
  released := H.released_step ha (stepped hs)
  offers := H.offers_step ha (stepped hs)
  readings := H.readings_step hs

end Upheld

variable {wiring : Wiring} {policies : PolicyService} {users : UserDirectory}
  {authorised offsets : Store} {timeout : Duration}

theorem upheld_start (ha : authorised.Accepts) :
    Upheld (start wiring policies users authorised offsets timeout)
      (start wiring policies users authorised offsets timeout) where
  policies := rfl
  users := rfl
  accepts := ha
  fresh := nofun
  intake := .nil
  released := ⟨_, rfl, Nat.zero_le _, [], .idle, rfl⟩
  offers :=
    { mapping := Coordinator.mapping_new _
      placement := Coordinator.placement_new _
      knows := Coordinator.knows_new _
      -- what the store has from before is under a token that is not fresh
      stored := by
        rintro _ o hs rfl hf
        cases hs.symm.trans hf
      indexed := by
        rintro _ o ⟨⟩ ⟨⟩ }
  readings := nofun

theorem upheld_served (H : Upheld p₀ p₀) (h : Served p₀ p) : Upheld p₀ p := by
  induction h with
  | start => exact H
  | step _ ha hs ih => exact ih.step ha hs

/-- Takes steps one after the other. -/
def steps (p : Pipeline) (l : List Event) : Option Pipeline := l.foldlM step p

theorem Served.exists_of_steps {α : Type} {l : List Event} {f : Pipeline → α} {a : α}
    (h : Served p₀ p) (ha : ∀ e ∈ l, ∀ p, Admits p₀ p e) (hs : (p.steps l).map f = some a) :
    ∃ q, Served p₀ q ∧ f q = a :=
  exists_of_foldlM h hs fun p e he _ h hp => h.step (ha e he p) hp

/-- What is read back under a token is the answer to the request that was registered under it. -/
theorem Upheld.answer_of_result (H : Upheld p₀ p) {reading : Reading}
    {list : List AuthorisedResource} (hr : reading ∈ p.readings)
    (hl : reading.result? = some (.ok list)) :
    ∃ r ∈ p.registrations, r.token = reading.token ∧
      list = p.policies.answer p.users reading.token r.request := by
  have S := H.readings reading hr
  have hp := Reading.phase_of_result? hl
  obtain ⟨stage, -, R⟩ := H.released
  have hstream := R.stream_released reading.token
  -- the end marker in the output was released for an envelope that someone registered
  obtain ⟨e, he, -⟩ := List.mem_flatMap.1 (hstream.subset (S.finish_of_finished hp))
  obtain ⟨he, ht⟩ := mem_stream.1 he
  obtain ⟨r, hreg, hre⟩ := H.intake.registered e he
  have htoken : r.token = reading.token := hre.trans ht
  obtain ⟨rest, -, hrest⟩ := H.intake.owed r hreg
  -- what the stage has taken of the stream is part of what the whole request releases
  refine ⟨r, hreg, htoken, S.eq_of_finished hp (htoken ▸ H.fresh r hreg) (hstream.trans ?_)⟩
  rw [← released_envelopes, ← htoken, ← hrest, List.flatMap_append]
  exact List.prefix_append _ _

/-- Whenever a reading of a token comes to a result, one request was registered under the token,
and the result is the answer to it: the resource that the policy stage grants, or nothing. So it
depends neither on what others request nor on the order of the steps. -/
theorem answer_of_own_request (ha : authorised.Accepts)
    (h : Served (start wiring policies users authorised offsets timeout) p)
    {reading : Reading} {list : List AuthorisedResource} (hr : reading ∈ p.readings)
    (hl : reading.result? = some (.ok list)) :
    ∃ r ∈ p.registrations, r.token = reading.token ∧
      (∀ r' ∈ p.registrations, r'.token = reading.token → r' = r) ∧
      ∀ token, list = policies.answer users token r.request := by
  have H := upheld_served (upheld_start ha) h
  obtain ⟨r, hreg, ht, hlist⟩ := H.answer_of_result hr hl
  refine ⟨r, hreg, ht, fun r' hr' ht' => ?_, fun token => ?_⟩
  · exact List.inj_on_of_nodup_map H.intake.distinct hr' hreg (ht'.trans ht.symm)
  · rw [hlist, H.policies, H.users]
    exact answer_eq_of_token _ _ _ _ _

/-- Two clients want the same file, the one for a purpose that is permitted and the other not. The
first one begins to read before anything is published. -/
theorem answer_of_own_request_interleaved : ∃ (policies : PolicyService) (p : Pipeline)
    (granted denied : Reading) (resource : AuthorisedResource),
    Served (start ⟨.builtins, .start, ⟨1000⟩, "host", default⟩ policies .empty (.memory .empty)
      (.memory .empty) ⟨1000⟩) p ∧
    granted ∈ p.readings ∧ granted.result? = some (.ok [resource]) ∧
    denied ∈ p.readings ∧ denied.result? = some (.ok []) ∧
    (∃ r ∈ p.registrations, r.token = granted.token ∧
      [resource] = policies.answer .empty granted.token r.request) ∧
    ∃ r ∈ p.registrations, r.token = denied.token ∧
      [] = policies.answer .empty denied.token r.request := by
  have h : Served (start ⟨.builtins, .start, ⟨1000⟩, "host", default⟩
      (.declared .builtins ⟨(∅ : Declarations .resource).declare ⟨"data/"⟩
        ⟨"", .ofList [("a", "require_purpose:audit")]⟩, ∅⟩) .empty (.memory .empty)
      (.memory .empty) ⟨1000⟩) _ := .start
  have h₁ := h.step (e := .register ⟨"a"⟩ ⟨⟨"ann"⟩, ⟨"data/x"⟩, .ofPurpose "audit"⟩)
    ⟨rfl, nofun⟩ rfl
  have h₂ := h₁.step (e := .register ⟨"b"⟩ ⟨⟨"bob"⟩, ⟨"data/x"⟩, .ofPurpose "sales"⟩)
    ⟨rfl, by simp [start, new, startAccess, startIndex, Registration.new]⟩ rfl
  obtain ⟨p, hp, hresults⟩ := h₂.exists_of_steps (l := List.flatten [
    [.read ⟨"a"⟩, .reading 0], [0, 1, 0, 1, 1, 0, 0, 1, 0, 1].map .registration,
    [.workerStart 0, .workerLookup 0 none, .workerResolve 0], List.replicate 21 (.access none),
    List.replicate 8 (.index none), [.workerHandle 0], List.replicate 5 (.reading 0),
    [.read ⟨"b"⟩, .reading 1, .workerStart 1, .workerLookup 1 none, .workerResolve 1,
      .workerHandle 1], List.replicate 5 (.reading 1)])
    (f := fun p => p.readings.map fun r => (r.token, r.result?))
    (a := [(⟨"a"⟩, some (.ok [⟨.ofId ⟨"ann"⟩, .ofPurpose "audit", .ofId ⟨"data/x"⟩, none⟩])),
      (⟨"b"⟩, some (.ok []))])
    (by simp [Admits, or_imp, forall_and]) (by decide +kernel)
  obtain ⟨granted, hg, hgr⟩ := List.mem_map.1 (hresults ▸ List.mem_cons_self)
  obtain ⟨denied, hd, hdr⟩ := List.mem_map.1 (hresults ▸ List.mem_cons_of_mem _ List.mem_cons_self)
  have hgr := (Prod.mk.inj hgr).2
  have hdr := (Prod.mk.inj hdr).2
  have ha : (Store.memory .empty).Accepts := trivial
  obtain ⟨r, hr, ht, -, hans⟩ := answer_of_own_request ha hp hg hgr
  obtain ⟨r', hr', ht', -, hans'⟩ := answer_of_own_request ha hp hd hdr
  exact ⟨_, p, granted, denied, _, hp, hg, hgr, hd, hdr, ⟨r, hr, ht, hans _⟩, r', hr', ht', hans' _⟩

end PolicyGate.Pipeline
