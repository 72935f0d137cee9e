import PolicyGate.Gatehouse
import PolicyGate.Proofs.Pipeline.Ledger
import PolicyGate.Proofs.Stage.Decision
import PolicyGate.Proofs.Stage.Filter
import PolicyGate.Proofs.Stage.Intake

/-!
What the record filter enforces is what the policy stage has decided. In a run in which tokens are
minted there is one request under each token, and so one authorisation under each key; it is stored
before it is released, and nothing replaces it. Main statements: what was released can be read back
(`Minted.authorised_of_released`), and the filter does with records what the rules say that were
released (`filterRecords_released`).
-/

namespace PolicyGate

namespace Pipeline

open Envelope

variable {p₀ p q : Pipeline} {e : Event} {history : List Transition}

/-! ## Runs in which tokens are minted -/

/-- A request is registered under a new token without a colon. -/
def Mints (p : Pipeline) : Event → Prop
  | .register token _ => ':' ∉ token.text.toList ∧ ∀ r ∈ p.registrations, r.token ≠ token
  | _ => True

/-- Runs in which all tokens are minted. -/
inductive Minted (p₀ : Pipeline) : Pipeline → Prop
  | start : Minted p₀ p₀
  | step {p q : Pipeline} {e : Event} : Minted p₀ p → p.Mints e → p.step e = some q → Minted p₀ q

theorem Minted.course (h : Minted p₀ p) : ∃ history, Course p₀ history p := by
  induction h with
  | start => exact ⟨_, .start⟩
  | step _ _ hs ih =>
    obtain ⟨_, h⟩ := ih
    exact ⟨_, h.step hs⟩

/-- Tokens are told apart, also by their keys, and each has a first part of the envelopes of its one
request on the topic of requests. -/
structure Apart (p : Pipeline) : Prop where
  intake : Intake p.registrations p.requests.envelopes
  plain : ∀ r ∈ p.registrations, ':' ∉ r.token.text.toList

/-- Minted tokens stay apart. -/
theorem Apart.step (H : Apart p) (hm : p.Mints e) (h : p.step e = some q) : Apart q := by
  cases stepped h with
  | register =>
    refine ⟨H.intake.register hm.2 _, fun r hr => ?_⟩
    rcases List.mem_append.1 hr with hr | hr
    · exact H.plain r hr
    · cases List.mem_singleton.1 hr
      exact hm.1
  | registration hr hs =>
    refine ⟨H.intake.step hr hs, fun v hv => ?_⟩
    rcases List.mem_or_eq_of_mem_set hv with hv | rfl
    · exact H.plain v hv
    · have hplain := H.plain _ (List.mem_of_getElem? hr)
      cases hs <;> exact hplain
  | _ => exact ⟨H.intake, H.plain⟩

theorem Minted.apart (h₀ : Apart p₀) (h : Minted p₀ p) : Apart p := by
  induction h with
  | start => exact h₀
  | step _ hm hs ih => exact ih.step hm hs

theorem eq_of_mem_of_length_le_one {α : Type} {l : List α} {a b : α} (h : l.length ≤ 1)
    (ha : a ∈ l) (hb : b ∈ l) : a = b := by
  rcases l with _ | ⟨c, _ | ⟨d, l⟩⟩
  · cases ha
  · rw [List.mem_singleton.1 ha, List.mem_singleton.1 hb]
  · simp at h

/-- There is one message under each token. -/
theorem Apart.messages_le_one (H : Apart p) (token : Token) :
    ((stream token p.requests.envelopes).filter fun e => e.payload?.isSome).length ≤ 1 := by
  cases hs : stream token p.requests.envelopes with
  | nil => exact Nat.zero_le _
  | cons e rest =>
    have hmem : e ∈ stream token p.requests.envelopes := hs ▸ List.mem_cons_self
    obtain ⟨he, htoken⟩ := mem_stream.1 hmem
    obtain ⟨r, hr, hre⟩ := H.intake.registered e he
    obtain ⟨owed, -, howed⟩ := H.intake.owed r hr
    rw [hre.trans htoken] at howed
    have htakes : stream token p.requests.envelopes <+: r.request.envelopes token := ⟨owed, howed⟩
    rw [← hs]
    exact (htakes.filter _).length_le

/-- Under one key there is one authorisation. -/
theorem Books.eq_of_storageKey {consumer : Consumer AccessWork} {settled : List Account}
    {prepared : Option Account} {inHand : List (Envelope DataRequest)} {a b : AuthorisedRequest}
    (H : Books p₀ history p consumer settled prepared inHand) (hp : Apart p)
    (ha : a ∈ recordsOf history) (hb : b ∈ recordsOf history)
    (hkey : a.storageKey = b.storageKey) : a = b := by
  have hplain : ∀ a ∈ recordsOf history, ':' ∉ a.token.text.toList := by
    intro a ha
    obtain ⟨g, rules, rfl, hg⟩ := H.exists_granted ha
    obtain ⟨r, hr, hre⟩ :=
      hp.intake.registered _ (H.isPrefix_requests.subset (List.mem_map_of_mem hg))
    have hcolon := hp.plain r hr
    rwa [hre] at hcolon
  have htoken : a.token = b.token :=
    (AuthorisedRequest.key_eq_iff.1 hkey).elim And.left fun hconfused =>
      (hconfused.colon_mem.elim (hplain a ha) (hplain b hb)).elim
  obtain ⟨g, rules, rfl, hg⟩ := H.exists_granted ha
  obtain ⟨g', rules', rfl, hg'⟩ := H.exists_granted hb
  -- both accounts are of the one message under the token
  have hlength := Nat.le_trans ((stream_mono H.isPrefix_requests g.token).filter _).length_le
    (hp.messages_le_one g.token)
  rw [Account.stream_map_envelope, List.filter_map, List.length_map] at hlength
  have hsame : Account.granted g rules = Account.granted g' rules' :=
    eq_of_mem_of_length_le_one hlength
      (List.mem_filter.2 ⟨List.mem_filter.2 ⟨hg, decide_eq_true rfl⟩, rfl⟩)
      (List.mem_filter.2 ⟨List.mem_filter.2 ⟨hg', decide_eq_true htoken.symm⟩, rfl⟩)
  cases hsame
  rfl

/-! ## The answers of the filter -/

theorem policies_of_step {c : Catalog} (hp : p.policies.Reached c) (h : p.step e = some q) :
    q.policies.Reached c := by
  cases stepped h with
  | setResourceRules => exact hp.resource _ _
  | setRecordRules => exact hp.record _ _
  | _ => exact hp

theorem Course.policies {c : Catalog} (h₀ : p₀.policies.Reached c) (h : Course p₀ history p) :
    ∀ t ∈ history, t.before.policies.Reached c := by
  have hboth : p.policies.Reached c ∧ ∀ t ∈ history, t.before.policies.Reached c := by
    induction h with
    | start => exact ⟨h₀, List.forall_mem_nil _⟩
    | step _ hs ih => exact ⟨policies_of_step ih.1 hs, List.forall_mem_cons.2 ih⟩
  exact hboth.2

/-- With the built-in rules the resource that is granted is the one that was requested. -/
theorem resource_of_decide {policies : PolicyService} {users : UserDirectory} {token : Token}
    {request : DataRequest} {g : Grant} (hp : policies.Reached .builtins)
    (h : policies.decide users token request = .ok (some g)) :
    g.resource = .ofId g.request.resource := by
  have hd := decided hp users token request
  rw [h] at hd
  cases hd
  rfl

/-- A pipeline with the built-in rules and a store that keeps authorisations, whose topics are
empty. -/
structure Wired (p₀ : Pipeline) : Prop where
  catalog : p₀.wiring.catalog = .builtins
  policies : p₀.policies.Reached .builtins
  authorised : p₀.authorised.Lasts
  access : p₀.access = some (.new p₀.requests 0)
  registrations : p₀.registrations = []
  requests : p₀.requests.envelopes = []
  output : p₀.output.envelopes = []

theorem openRows_of_connect {folder : Folder} {url : String} {store : TableStore}
    (h : TableStore.connect folder url = .ok store) : store.openRows = .ok ∅ := by
  unfold TableStore.connect at h
  split at h
  · cases h
  · split at h
    · cases h
    · split at h
      · cases h; rfl
      · cases h

/-- A gatehouse keeps authorisations in a store that never drops them. -/
theorem lasts_of_ofSettings {folder : Folder} {settings : StoreSettings} {stores : Stores}
    (h : Stores.ofSettings folder settings = .ok stores) : stores.authorised.Lasts := by
  unfold Stores.ofSettings at h
  split at h
  · cases h; trivial
  · cases h; trivial
  · split at h
    · next hc => cases h; exact ⟨_, openRows_of_connect hc⟩
    · cases h
  · cases h

/-- The rules that a gatehouse loads are those of a service that declarations have reached. -/
theorem reached_of_loadPolicies {host : Host} {c : AppConfig} {document : PolicyDocument}
    {policies : PolicyService} (h : Gatehouse.loadPolicies host c = .ok (document, policies)) :
    policies.Reached .builtins := by
  simp only [Gatehouse.loadPolicies, bind, Except.bind, pure, Except.pure] at h
  cases hd : PolicyDocument.loadFrom host c.policiesPath with
  | error => simp [hd, Except.mapError] at h
  | ok found =>
    cases hs : PolicyService.ofDocument .builtins found with
    | error => simp [hd, hs, Except.mapError] at h
    | ok s =>
      simp only [hd, hs, Except.mapError, Except.ok.injEq, Prod.mk.injEq] at h
      exact h.2 ▸ .document hs

/-- Every gatehouse that comes up is wired so, whatever its profile. -/
theorem wired_of_start {host : Host} {clock : Timestamp} {c : AppConfig} {g : Gatehouse}
    (h : Gatehouse.start host clock c = .ok g) : Wired g.pipeline := by
  simp only [Gatehouse.start, bind, Except.bind, pure, Except.pure] at h
  split at h
  · cases h
  · split at h
    · cases h
    · next hload =>
      split at h
      · cases h
      · next hopen =>
        cases h
        exact ⟨rfl, reached_of_loadPolicies hload, lasts_of_ofSettings hopen, rfl, rfl, rfl, rfl⟩

/-- What was released was stored before, and is what the store still gives back. -/
theorem Minted.authorised_of_released (h₀ : Wired p₀) (h : Minted p₀ p) {token : Token}
    {r : AuthorisedResource} (hr : ⟨token, .message r⟩ ∈ p.output.envelopes) :
    ∃ a : AuthorisedRequest, a.token = token ∧ a.resource = r.resource.id ∧ a.user = r.user ∧
      a.context = r.context ∧ a.recordRules = r.recordRules ∧
      (∃ m : PolicyService, m.Reached .builtins ∧ a.recordRules = m.recordRules? a.resource) ∧
      (p.authorised.get AuthorisedRequest.recordType p.now a.storageKey).1 =
        .ok (some (a.mapRules p.authorised.arrange)) := by
  obtain ⟨history, hcourse⟩ := h.course
  obtain ⟨consumer, settled, prepared, inHand, H⟩ := hcourse.books h₀.access
  have happart : Apart p := by
    refine h.apart ⟨?_, ?_⟩
    · rw [h₀.registrations, h₀.requests]
      exact .nil
    · rw [h₀.registrations]
      exact nofun
  rw [H.output, h₀.output, List.nil_append] at hr
  obtain ⟨account, haccount, hr⟩ := List.mem_flatMap.1 hr
  have hgranted : ∃ g rules, account = .granted g rules ∧ g.token = token ∧
      g.released rules = r := by
    cases account with
    | marker t m => cases m <;> simp [Account.outputs, Marker.frame] at hr
    | granted g rules =>
      simp only [Account.outputs, List.mem_singleton, Envelope.mk.injEq, Frame.message.injEq] at hr
      exact ⟨g, rules, rfl, hr.1.symm, hr.2.symm⟩
    | denied | failed => cases hr
  obtain ⟨g, rules, rfl, rfl, rfl⟩ := hgranted
  have hstored : g.authorisation rules ∈ recordsOf history := by
    rw [← List.mem_reverse, H.records]
    exact List.mem_flatMap.2 ⟨_, List.mem_append_left _ haccount, List.mem_singleton_self _⟩
  have hfind : (recordsOf history).find? (fun a =>
      a.storageKey = (g.authorisation rules).storageKey) = some (g.authorisation rules) := by
    have hsome : ((recordsOf history).find? fun a =>
        a.storageKey = (g.authorisation rules).storageKey).isSome :=
      List.find?_isSome.2 ⟨_, hstored, decide_eq_true rfl⟩
    obtain ⟨b, hb⟩ := Option.isSome_iff_exists.1 hsome
    have hkey := List.find?_some hb
    rw [hb, H.eq_of_storageKey happart (List.mem_of_find?_eq_some hb) hstored
      (of_decide_eq_true hkey)]
  obtain ⟨hlasts, hrecalls⟩ := hcourse.filled.recalls h₀.authorised
  -- the turns on the envelope of the account say by which policies it was granted
  obtain ⟨n, hn⟩ := List.getElem?_of_mem haccount
  have hpolicies : ∀ t ∈ turnsOn n history, t.before.policies.Reached .builtins := fun t ht =>
    hcourse.policies h₀.policies t (mem_of_mem_turnsOn ht)
  have hfounded := H.founded n _ hn
  generalize turnsOn n history = own at hfounded hpolicies
  cases hfounded with
  | released hp =>
    cases hp with
    | granted hg =>
      cases hg with
      | @intro d l _ _ hd hl =>
        have hresource := resource_of_decide (hpolicies d (by simp)) hd.decision
        have hlookup : (g.authorisation rules).recordRules =
            l.before.policies.recordRules? g.request.resource := hl.rules.symm
        refine ⟨_, rfl, ?_, rfl, rfl, rfl, ⟨_, hpolicies l (by simp), hlookup⟩,
          hlasts.get_eq (hrecalls _ _ hfind) _⟩
        rw [Grant.released, hresource]
        rfl

/-- What the record filter enforces is what the policy stage decided: for every message that was
released under a minted token, the filter answers, and gives out of each record what the rules of
the message keep of it for the user and the context of the message. -/
theorem filterRecords_released (h₀ : Wired p₀) (h : Minted p₀ p) {token : Token}
    {r : AuthorisedResource} (hr : ⟨token, .message r⟩ ∈ p.output.envelopes) :
    (r.recordRules = none → ∀ records,
      p.filterRecords none token r.resource.id records = .ok records) ∧
    ∀ set, r.recordRules = some set → ∃ compiled,
      Catalog.builtins.record.compile set = .ok compiled ∧ ∃ kept : Record → Option Record,
        (∀ record, CompiledRules.apply (some compiled) record r.user r.context =
          .ok (kept record)) ∧
        ∀ records, p.filterRecords none token r.resource.id records =
          .ok (records.filterMap kept) := by
  obtain ⟨a, htoken, hresource, huser, hcontext, hrules, ⟨m, hm, hlookup⟩, hget⟩ :=
    h.authorised_of_released h₀ hr
  have hkey : AuthorisedRequest.key token r.resource.id = a.storageKey := by
    rw [AuthorisedRequest.storageKey, htoken, hresource]
  have hcatalog : p.wiring.catalog = .builtins := by
    obtain ⟨_, hcourse⟩ := h.course
    obtain ⟨_, _, _, _, H⟩ := hcourse.books h₀.access
    rw [H.wiring, h₀.catalog]
  have hfilter : ∀ records, p.filterRecords none token r.resource.id records =
      PolicyGate.filterRecords .builtins a.storageKey
        (.ok (some (a.mapRules p.authorised.arrange))) records := by
    intro records
    simp only [filterRecords, hkey, hget, hcatalog]
  refine ⟨fun hnone records => ?_, fun set hset => ?_⟩
  · rw [hfilter, filterRecords_arranged_none _ (hrules.trans hnone)]
  · have hinForce : m.recordRules? a.resource = some set := by rw [← hlookup, hrules, hset]
    obtain ⟨compiled, hc, -⟩ := hm.compiledRecordRules_eq hinForce
    obtain ⟨kept, hkept⟩ := exists_kept hc r.user r.context
    refine ⟨compiled, hc, kept, hkept, fun records => ?_⟩
    rw [← huser, ← hcontext] at hkept
    rw [hfilter, filterRecords_arranged _ (hrules.trans hset) hc hkept]

theorem Minted.exists_of_foldlM {α : Type} {l : List Event} {f : Pipeline → α} {a : α}
    (h : Minted p₀ p) (hm : ∀ e ∈ l, ∀ p : Pipeline, p.Mints e)
    (hs : (List.foldlM Pipeline.step p l).map f = some a) : ∃ q, Minted p₀ q ∧ f q = a :=
  ListUpdate.exists_of_foldlM h hs fun p e he _ h hp => h.step (hm e he p) hp

/-- Settings under which everything is kept in memory. -/
def durableSettings : AppConfig := { store := { profile := .durable } }

/-- A host without variables and without files. -/
def bareHost : Host := ⟨[], ⟨fun _ => none⟩⟩

/-- Rules under ids that a store in memory puts into another order. -/
def reorderedRules : RecordRules :=
  ⟨"", .ofList [("z", "mask_field:name"), ("a", "redact_field:number")]⟩

/-- The names in a file are masked and its numbers are redacted, and a client is granted the
file. -/
theorem filterRecords_released_reordered : ∃ (g : Gatehouse) (p : Pipeline)
    (compiled : CompiledRules Record) (kept : Record → Option Record),
    Gatehouse.start bareHost default durableSettings = .ok g ∧ Minted g.pipeline p ∧
    p.output.envelopes = [⟨⟨"t"⟩, .start⟩,
      ⟨⟨"t"⟩, .message ⟨.ofId ⟨"u"⟩, .empty, .ofId ⟨"file:/p"⟩, some reorderedRules⟩⟩] ∧
    Catalog.builtins.record.compile reorderedRules = .ok compiled ∧
    (∀ record, CompiledRules.apply (some compiled) record (.ofId ⟨"u"⟩) .empty =
      .ok (kept record)) ∧
    ∀ records, p.filterRecords none ⟨"t"⟩ ⟨"file:/p"⟩ records =
      .ok (records.filterMap kept) := by
  obtain ⟨g, hg, hpipeline⟩ : ∃ g, Gatehouse.start bareHost default durableSettings = .ok g ∧
      g.pipeline = start (Gatehouse.wiring bareHost default durableSettings) (.new .builtins)
        (.ofList []) (.memory .empty) (.memory .empty) (.ofSeconds 300) := ⟨_, rfl, rfl⟩
  have hwired := wired_of_start hg
  have hnew : ∀ r ∈ g.pipeline.registrations, r.token ≠ ⟨"t"⟩ := by
    rw [hwired.registrations]
    exact nofun
  have hregister : Minted g.pipeline _ := Minted.start.step
    (e := .register ⟨"t"⟩ ⟨⟨"u"⟩, ⟨"file:/p"⟩, .empty⟩) ⟨by decide, hnew⟩ rfl
  obtain ⟨p, hminted, hreleased⟩ := hregister.exists_of_foldlM
    (l := [.setResourceRules ⟨"file:/p"⟩ ⟨"", .ofList [("in", "pass_through")]⟩,
        .setRecordRules ⟨"file:/p"⟩ reorderedRules] ++
      List.replicate 3 (.registration 0) ++ List.replicate 8 (.access none))
    (f := fun p => p.output.envelopes)
    (a := [⟨⟨"t"⟩, .start⟩,
      ⟨⟨"t"⟩, .message ⟨.ofId ⟨"u"⟩, .empty, .ofId ⟨"file:/p"⟩, some reorderedRules⟩⟩])
    (by simp [Mints, or_imp, forall_and]) (by rw [hpipeline]; decide +kernel)
  have hmem : ⟨⟨"t"⟩, .message ⟨.ofId ⟨"u"⟩, .empty, .ofId ⟨"file:/p"⟩, some reorderedRules⟩⟩ ∈
      p.output.envelopes := by
    rw [hreleased]
    exact List.mem_cons_of_mem _ List.mem_cons_self
  obtain ⟨compiled, hc, kept, hkept, hfilter⟩ :=
    (filterRecords_released hwired hminted hmem).2 _ rfl
  exact ⟨g, p, compiled, kept, hg, hminted, hreleased, hc, hkept, hfilter⟩

end Pipeline

end PolicyGate
