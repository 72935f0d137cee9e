import PolicyGate.Proofs.Pipeline.Answers
import PolicyGate.Proofs.Pipeline.Recorded
import PolicyGate.Proofs.Policy.Declared

/-!
The policies that the policy stage consults for one request while others declare rules. It looks the
rules for access up when it decides, and the rules for records when it has granted; each time it
sees all that was accepted before. Main statements: a grant is stored and handed on with the rules
for records of the later moment (`Pipeline.consults_step`), and both look-ups are those of one
moment unless rules for access and then rules for records are declared on the chain of the resource
in between (`Pipeline.grant_consulted`).
-/

namespace PolicyGate

theorem PolicyService.of_decide_eq_some {policies : PolicyService} {users : UserDirectory}
    {token : Token} {q : DataRequest} {g : Grant}
    (h : policies.decide users token q = .ok (some g)) : g.token = token ∧ g.request = q := by
  unfold decide at h
  simp only at h
  split at h
  · cases h
  · split at h <;> cases h
    exact ⟨rfl, rfl⟩

namespace Declaration

/-- The rules of a kind are declared for a node on the chain of a resource. -/
def Concerns (d : Declaration) (kind : RuleKind) (id : ResourceId) : Prop :=
  d.kind = kind ∧ d.node ∈ id.ancestors

/-- Rules for access to a resource are declared, and then rules for its records. -/
def Crosses (id : ResourceId) (d d' : Declaration) : Prop :=
  d.Concerns .resource id ∧ d'.Concerns .record id

/-- Without such a pair there is a moment before which no rules for access are declared, and after
which none for records. -/
theorem exists_append_of_pairwise {id : ResourceId} {ds : List Declaration}
    (h : ds.Pairwise fun d d' => ¬ Crosses id d d') : ∃ earlier later, ds = earlier ++ later ∧
      (∀ d ∈ earlier, ¬ d.Concerns .resource id) ∧ ∀ d ∈ later, ¬ d.Concerns .record id := by
  induction ds with
  | nil => exact ⟨[], [], rfl, nofun, nofun⟩
  | cons d rest ih =>
    obtain ⟨hd, hrest⟩ := List.pairwise_cons.1 h
    by_cases hc : d.Concerns .resource id
    · refine ⟨[], d :: rest, rfl, nofun, fun d' hd' hrecord => ?_⟩
      rcases List.mem_cons.1 hd' with rfl | hd'
      · cases hc.1.symm.trans hrecord.1
      · exact hd d' hd' ⟨hc, hrecord⟩
    · obtain ⟨earlier, later, rfl, hearlier, hlater⟩ := ih hrest
      refine ⟨d :: earlier, later, rfl, fun d' hd' => ?_, hlater⟩
      rcases List.mem_cons.1 hd' with rfl | hd'
      · exact hc
      · exact hearlier d' hd'

end Declaration

namespace PolicyService

variable {s s' s'' : PolicyService} {kind : RuleKind} {id : ResourceId} {ds ds' : List Declaration}

theorem Alike.trans (H : s.Alike s' kind id) (H' : s'.Alike s'' kind id) : s.Alike s'' kind id :=
  ⟨H.rules.trans H'.rules, H.compiled.trans H'.compiled⟩

theorem alike_accepted_of_not_concerns {d : Declaration} (h : s.accepted d = .ok s')
    (hd : ¬ d.Concerns kind id) : s'.Alike s kind id := by
  obtain ⟨hok, rfl⟩ := accepted_eq_ok_iff.1 h
  by_cases hk : kind = d.kind
  · exact alike_attempt_of_not_mem hok (fun hid => hd ⟨hk.symm, hid⟩) kind
  · exact alike_attempt_of_ne hok hk id

/-- Declarations that do not concern an id leave its rules alone. -/
theorem alike_declareAll (h : s.declareAll ds = .ok s')
    (hd : ∀ d ∈ ds, ¬ d.Concerns kind id) : s'.Alike s kind id := by
  induction ds generalizing s with
  | nil =>
    cases h
    exact ⟨rfl, rfl⟩
  | cons d rest ih =>
    rw [declareAll_cons] at h
    cases hs : s.accepted d with
    | error => rw [hs] at h; cases h
    | ok next =>
      rw [hs] at h
      exact (ih h fun d' hd' => hd d' (.tail _ hd')).trans
        (alike_accepted_of_not_concerns hs (hd d List.mem_cons_self))

theorem declareAll_append_eq_ok : s.declareAll (ds ++ ds') = .ok s'' ↔
    ∃ s', s.declareAll ds = .ok s' ∧ s'.declareAll ds' = .ok s'' := by
  rw [declareAll_append]
  cases s.declareAll ds with
  | error => exact ⟨nofun, by rintro ⟨_, h, -⟩; cases h⟩
  | ok s' => exact ⟨fun h => ⟨s', rfl, h⟩, by rintro ⟨_, h, h'⟩; cases h; exact h'⟩

theorem decide_congr {q : DataRequest} (h : s.Alike s' .resource q.resource)
    (users : UserDirectory) (token : Token) : s.decide users token q = s'.decide users token q := by
  have hcompiled : s.compiledResourceRules q.resource = s'.compiledResourceRules q.resource :=
    h.compiled
  rw [decide, decide, hcompiled]

end PolicyService

/-- What is declared while the policy stage works on a request: before it decides, then before it
looks up the rules for records, and after that. -/
structure Meanwhile where
  before : List Declaration
  between : List Declaration
  after : List Declaration

namespace Meanwhile

/-- All that is declared, in order. -/
def all (m : Meanwhile) : List Declaration := m.before ++ m.between ++ m.after

/-- Notes what is declared while the stage still has some work to do. -/
def note (m : Meanwhile) (work : AccessWork) (made : List Declaration) : Meanwhile :=
  match work with
  | .deciding .. => { m with before := m.before ++ made }
  | .granted _ => { m with between := m.between ++ made }
  | _ => { m with after := m.after ++ made }

theorem note_of_isOver {m : Meanwhile} {work : AccessWork} {made : List Declaration}
    (h : work.isOver) : m.note work made = { m with after := m.after ++ made } := by
  cases work <;> first | rfl | cases h

end Meanwhile

/-- A grant that was decided by the one service, with the other in force when the rules for records
were looked up. -/
structure Consulted (s₀ : PolicyService) (users : UserDirectory) (token : Token) (q : DataRequest)
    (m : Meanwhile) (g : Grant) (first second : PolicyService) : Prop where
  before : s₀.declareAll m.before = .ok first
  between : first.declareAll m.between = .ok second
  decided : first.decide users token q = .ok (some g)

/-- How far the stage has come with a request, and what it has consulted. -/
inductive Consults (s₀ : PolicyService) (users : UserDirectory) (token : Token) (q : DataRequest)
    (m : Meanwhile) (s : PolicyService) : AccessWork → Prop
  | deciding : s₀.declareAll m.before = .ok s → m.between = [] → m.after = [] →
    Consults s₀ users token q m s (.deciding token q)
  | granted {g first} : Consulted s₀ users token q m g first s → m.after = [] →
    Consults s₀ users token q m s (.granted g)
  | recording {g first second} : Consulted s₀ users token q m g first second →
    second.declareAll m.after = .ok s →
    Consults s₀ users token q m s (.recording g (second.rules? .record q.resource))
  | publishing {g first second} : Consulted s₀ users token q m g first second →
    second.declareAll m.after = .ok s →
    Consults s₀ users token q m s
      (.publishing ⟨token, .message (g.released (second.rules? .record q.resource))⟩)
  | reporting {t q' e} : s₀.declareAll m.all = .ok s →
    Consults s₀ users token q m s (.reporting t q' e)
  | settled {work} : s₀.declareAll m.all = .ok s → work.isOver → Consults s₀ users token q m s work

namespace Consults

open PolicyService

variable {s₀ s s' : PolicyService} {users : UserDirectory} {token : Token} {q : DataRequest}
  {m : Meanwhile} {work : AccessWork} {made : List Declaration}

theorem all (H : Consults s₀ users token q m s work) : s₀.declareAll m.all = .ok s := by
  cases H with
  | deciding hbefore hbetween hafter => simpa [Meanwhile.all, hbetween, hafter] using hbefore
  | granted H hafter =>
    rw [Meanwhile.all, hafter, List.append_nil]
    exact declareAll_append_eq_ok.2 ⟨_, H.before, H.between⟩
  | recording H hafter | publishing H hafter =>
    exact declareAll_append_eq_ok.2
      ⟨_, declareAll_append_eq_ok.2 ⟨_, H.before, H.between⟩, hafter⟩
  | reporting hall | settled hall => exact hall

/-- Others declare rules. -/
theorem declare (H : Consults s₀ users token q m s work) (h : s.declareAll made = .ok s') :
    Consults s₀ users token q (m.note work made) s' work := by
  have hall : s₀.declareAll (m.all ++ made) = .ok s' := declareAll_append_eq_ok.2 ⟨s, H.all, h⟩
  cases H with
  | deciding hbefore hbetween hafter =>
    exact .deciding (declareAll_append_eq_ok.2 ⟨s, hbefore, h⟩) hbetween hafter
  | granted H hafter =>
    exact .granted ⟨H.before, declareAll_append_eq_ok.2 ⟨s, H.between, h⟩, H.decided⟩ hafter
  | recording H hafter =>
    exact .recording ⟨H.before, H.between, H.decided⟩ (declareAll_append_eq_ok.2 ⟨s, hafter, h⟩)
  | publishing H hafter =>
    exact .publishing ⟨H.before, H.between, H.decided⟩ (declareAll_append_eq_ok.2 ⟨s, hafter, h⟩)
  | reporting =>
    rw [Meanwhile.all, List.append_assoc] at hall
    exact .reporting hall
  | settled _ hover =>
    rw [Meanwhile.note_of_isOver hover]
    rw [Meanwhile.all, List.append_assoc] at hall
    exact .settled hall hover

/-- A decision sees what was declared before it. -/
theorem decide {t : Token} {q' : DataRequest}
    (H : Consults s₀ users token q m s (.deciding t q')) :
    Consults s₀ users token q m s (.ofDecision t q' (s.decide users t q')) := by
  have hall := H.all
  cases H with
  | deciding hbefore hbetween hafter =>
    cases hd : s.decide users token q with
    | error e => exact .reporting hall
    | ok decision =>
      cases decision with
      | none => exact .settled hall rfl
      | some g => exact .granted ⟨hbefore, by rw [hbetween]; rfl, hd⟩ hafter
  | settled _ hover => cases hover

theorem lookUp {g : Grant} (H : Consults s₀ users token q m s (.granted g)) :
    Consults s₀ users token q m s (.recording g (s.recordRules? g.request.resource)) := by
  cases H with
  | granted H hafter =>
    rw [(of_decide_eq_some H.decided).2]
    exact .recording H (by rw [hafter]; rfl)
  | settled _ hover => cases hover

theorem record {g : Grant} {rules : Option RecordRules}
    (H : Consults s₀ users token q m s (.recording g rules))
    (result : Except Store.WriteFault Store) :
    Consults s₀ users token q m s (.ofRecording g rules result) := by
  have hall := H.all
  cases H with
  | recording H hafter =>
    rcases result with (_ | _) | _
    · exact .reporting hall
    · exact .settled hall rfl
    · obtain ⟨rfl, -⟩ := of_decide_eq_some H.decided
      exact .publishing H hafter
  | settled _ hover => cases hover

end Consults

/-- A grant with rules for records rests on the rules for access that decided it and on rules for
records that were in force no earlier. Both were in force at one moment unless rules for access and
then rules for records were declared in between. -/
def Rests (s₀ : PolicyService) (users : UserDirectory) (token : Token) (q : DataRequest)
    (m : Meanwhile) (g : Grant) (rules : Option RecordRules) : Prop :=
  ∃ first second, Consulted s₀ users token q m g first second ∧
    rules = second.rules? .record q.resource ∧
    ((m.between.Pairwise fun d d' => ¬ Declaration.Crosses q.resource d d') →
      ∃ earlier later s, m.between = earlier ++ later ∧
        s₀.declareAll (m.before ++ earlier) = .ok s ∧ s.decide users token q = .ok (some g) ∧
        s.rules? .resource q.resource = first.rules? .resource q.resource ∧
        rules = s.rules? .record q.resource)

theorem Consulted.rests {s₀ first second : PolicyService} {users : UserDirectory} {token : Token}
    {q : DataRequest} {m : Meanwhile} {g : Grant}
    (H : Consulted s₀ users token q m g first second) :
    Rests s₀ users token q m g (second.rules? .record q.resource) := by
  refine ⟨first, second, H, rfl, fun hapart => ?_⟩
  obtain ⟨earlier, later, hsplit, hearlier, hlater⟩ :=
    Declaration.exists_append_of_pairwise hapart
  obtain ⟨s, hs, hs'⟩ := PolicyService.declareAll_append_eq_ok.1 (hsplit ▸ H.between)
  have hfirst : s.Alike first .resource q.resource := PolicyService.alike_declareAll hs hearlier
  have hsecond : second.Alike s .record q.resource := PolicyService.alike_declareAll hs' hlater
  refine ⟨earlier, later, s, hsplit, PolicyService.declareAll_append_eq_ok.2 ⟨_, H.before, hs⟩,
    ?_, hfirst.rules, hsecond.rules⟩
  rw [PolicyService.decide_congr hfirst, H.decided]

namespace Pipeline

/-- The declaration that a step tries to make. -/
def Event.declaration? : Event → Option Declaration
  | .setResourceRules resource rules => some ⟨.resource, resource, rules⟩
  | .setRecordRules resource rules => some ⟨.record, resource, rules⟩
  | _ => none

/-- The declaration that a step makes: one that is rejected does not count. -/
def declared? (p : Pipeline) (e : Event) : Option Declaration :=
  e.declaration?.filter fun d => (p.policies.declare d).1.isOk

/-- Runs of a pipeline while its policy stage works on one envelope, with what is declared in the
meantime. -/
inductive Deciding (p₀ : Pipeline) : Meanwhile → Pipeline → Prop
  | start : Deciding p₀ ⟨[], [], []⟩ p₀
  | step {m p e q reader t work reader' t' work'} : Deciding p₀ m p → p.step e = some q →
    p.access = some ⟨reader, .busy t work⟩ → q.access = some ⟨reader', .busy t' work'⟩ →
    Deciding p₀ (m.note work (p.declared? e).toList) q

variable {p₀ p q : Pipeline} {e : Event}

theorem declared?_of_command? {ce : Coordinator.Event} (h : e.command? p.now = some ce) :
    p.declared? e = none := by
  cases e with
  | setResourceRules | setRecordRules => cases h
  | _ => rfl

/-- A declaration is noted if it is accepted, and otherwise it has changed nothing. -/
theorem declareAll_of_attempt {s : PolicyService} {d : Declaration} :
    s.declareAll ((some d).filter fun d => (s.declare d).1.isOk).toList = .ok (s.attempt d) := by
  cases h : (s.declare d).1 with
  | ok =>
    have hok : (s.declare d).1.isOk = true := by rw [h]; rfl
    rw [Option.filter_some, if_pos hok]
    exact (PolicyService.declareAll_singleton ..).trans
      (PolicyService.accepted_eq_ok_iff.2 ⟨h, rfl⟩)
  | error e =>
    have hok : (s.declare d).1.isOk ≠ true := by rw [h]; nofun
    rw [Option.filter_some, if_neg hok, PolicyService.attempt_of_error h]
    rfl

/-- The declarations of a step, if it makes any, are all that happens to the rules. -/
theorem declared_of_step (h : p.step e = some q) :
    p.policies.declareAll (p.declared? e).toList = .ok q.policies := by
  cases stepped h with
  | coordinate he =>
    rw [declared?_of_command? he]
    rfl
  | setResourceRules | setRecordRules => exact declareAll_of_attempt
  | register | registration | read | reading | access | index | lookup | fail | wait
  | closeRequests | closeOutput | closeErrors => rfl

theorem users_of_step (h : p.step e = some q) : q.users = p.users := by
  cases stepped h <;> rfl

/-- While a request is worked on, every step keeps what is noted about it. -/
theorem consults_step {s₀ : PolicyService} {token : Token} {request : DataRequest} {m : Meanwhile}
    {reader reader' : Reader} {t t' : Token} {work work' : AccessWork}
    (H : Consults s₀ p.users token request m p.policies work) (h : p.step e = some q)
    (hp : p.access = some ⟨reader, .busy t work⟩) (hq : q.access = some ⟨reader', .busy t' work'⟩) :
    Consults s₀ q.users token request (m.note work (p.declared? e).toList) q.policies work' := by
  have hdeclared := H.declare (declared_of_step h)
  rw [users_of_step h]
  cases stepped h with
  | access ha hs =>
    cases hp.symm.trans ha
    cases hq
    cases hs with
    | decide => exact hdeclared.decide
    | lookUp => exact hdeclared.lookUp
    | record => exact hdeclared.record _
    | publish | refuse | report => exact .settled hdeclared.all rfl
  | _ =>
    cases hp.symm.trans hq
    exact hdeclared

theorem Deciding.consults {m : Meanwhile} {reader reader' : Reader} {t t' token : Token}
    {request : DataRequest} {work : AccessWork}
    (h₀ : p₀.access = some ⟨reader, .busy t (.deciding token request)⟩) (h : Deciding p₀ m p)
    (hp : p.access = some ⟨reader', .busy t' work⟩) :
    Consults p₀.policies p.users token request m p.policies work := by
  induction h generalizing reader' t' work with
  | start =>
    cases h₀.symm.trans hp
    exact .deciding rfl rfl rfl
  | step _ hs hp₁ hq₁ ih => exact consults_step (ih hp₁) hs hp₁ hp

theorem recorded?_eq_some {a : AuthorisedRequest} (h : p.recorded? e = some a) :
    ∃ reader t g rules, p.access = some ⟨reader, .busy t (.recording g rules)⟩ ∧
      a = g.authorisation rules := by
  unfold recorded? at h
  split at h
  · split at h
    · next reader t g rules ha =>
      obtain ⟨_, -, rfl⟩ := Option.map_eq_some_iff.1 h
      exact ⟨reader, t, g, rules, ha, rfl⟩
    · cases h
  · cases h

/-- Only the policy stage adds to the output topic. -/
theorem publishing_of_step {envelope : Envelope AuthorisedResource} (h : p.step e = some q)
    (ho : q.output.envelopes = p.output.envelopes ++ [envelope]) :
    ∃ reader t, p.access = some ⟨reader, .busy t (.publishing envelope)⟩ := by
  have hne : q.output.envelopes ≠ p.output.envelopes := by simp [ho]
  cases stepped h with
  | access ha hs =>
    cases hs with
    | publish hpub =>
      have hadded := (Log.publish_eq_ok hpub).2.2
      cases List.append_cancel_left (ho.symm.trans hadded)
      exact ⟨_, _, ha⟩
    | _ => exact absurd rfl hne
  | _ => exact absurd rfl hne

/-- While the policy stage works on a request, the policies are at any moment those that it found
with a first part of what was declared since. What it stores and hands on for the request is a grant
that was decided by the policies of one moment, with the rules for records of a later one. Both are
what the policies of a single moment say, unless rules for access and then rules for records were
declared on the chain of the resource between the two. -/
theorem grant_consulted {m : Meanwhile} {reader reader' : Reader} {t t' token : Token}
    {request : DataRequest} {work : AccessWork}
    (h₀ : p₀.access = some ⟨reader, .busy t (.deciding token request)⟩) (h : Deciding p₀ m p)
    (hp : p.access = some ⟨reader', .busy t' work⟩) :
    p₀.policies.declareAll m.all = .ok p.policies ∧
    (∀ e a, p.recorded? e = some a → ∃ g rules, a = g.authorisation rules ∧
      Rests p₀.policies p.users token request m g rules) ∧
    ∀ e q envelope, p.step e = some q →
      q.output.envelopes = p.output.envelopes ++ [envelope] →
      ∃ g rules, envelope = ⟨token, .message (g.released rules)⟩ ∧
        Rests p₀.policies p.users token request m g rules := by
  refine ⟨(h.consults h₀ hp).all, fun e a ha => ?_, fun e q envelope hs houtput => ?_⟩
  · obtain ⟨reader₁, t₁, g, rules, hp₁, rfl⟩ := recorded?_eq_some ha
    cases h.consults h₀ hp₁ with
    | recording H => exact ⟨g, _, rfl, H.rests⟩
    | settled _ hover => cases hover
  · obtain ⟨reader₁, t₁, hp₁⟩ := publishing_of_step hs houtput
    cases h.consults h₀ hp₁ with
    | publishing H => exact ⟨_, _, rfl, H.rests⟩
    | settled _ hover => cases hover

/-- The request for a file whose records are masked. -/
def fileRequest : DataRequest := ⟨⟨"u"⟩, ⟨"file:/p"⟩, .empty⟩

/-- The file, with the policy stage about to decide about the request. -/
def requestedFile : Pipeline :=
  { maskedFile with
    requests := ⟨requestTopic, [⟨0, ⟨"t"⟩, .start⟩, ⟨1, ⟨"t"⟩, .message fileRequest⟩,
      ⟨2, ⟨"t"⟩, .finish⟩], false, 3, 3, rfl⟩
    output := ⟨outputTopic, [⟨0, ⟨"t"⟩, .start⟩], false, 1, 1, rfl⟩
    access := some ⟨⟨2, 3⟩, .busy ⟨"t"⟩ (.deciding ⟨"t"⟩ fileRequest)⟩
    registrations := [⟨⟨"t"⟩, fileRequest, .registered⟩] }

/-- The file after declarations, with its policy stage at some work. -/
def requestedFileAt (declared : List Declaration) (work : AccessWork) : Pipeline :=
  { requestedFile with
    policies := (requestedFile.policies.declareAll declared).toOption.getD requestedFile.policies
    access := some ⟨⟨2, 3⟩, .busy ⟨"t"⟩ work⟩ }

theorem reachable_requestedFile : Reachable maskedFile requestedFile := by
  have hrun : maskedFile.steps (List.flatten [[.register ⟨"t"⟩ fileRequest],
      List.replicate 5 (.registration 0), List.replicate 4 (.access none)]) =
    some requestedFile := rfl
  obtain ⟨_, h, rfl⟩ := ListUpdate.exists_of_foldlM (R := Reachable maskedFile) (f := id) .refl
    (congrArg (Option.map id) hrun) fun _ e _ _ h hs => h.step e hs
  exact h

/-- The policy stage grants the request by the rules that it has found. -/
def fileGrant : Grant := ⟨⟨"t"⟩, fileRequest, .ofId ⟨"u"⟩, .ofId ⟨"file:/p"⟩⟩

theorem deciding_granted :
    Deciding requestedFile ⟨[], [], []⟩ (requestedFileAt [] (.granted fileGrant)) := by
  have h : Deciding requestedFile _ requestedFile := .start
  exact h.step (e := .access none) rfl rfl rfl

/-- Nobody may have the file any more. -/
def lockFile : Declaration := ⟨.resource, ⟨"file:/p"⟩, ⟨"", .ofList [("a", "deny_all")]⟩⟩

/-- The records of the file are no longer masked. -/
def unmaskFile : Declaration := ⟨.record, ⟨"file:/p"⟩, ⟨"", .ofList [("m", "pass_through")]⟩⟩

/-- The records are unmasked and then the file is locked: the grant is what it would have been with
both look-ups in between. -/
theorem grant_consulted_locked_late : ∃ m p a, Reachable maskedFile requestedFile ∧
    Deciding requestedFile m p ∧ m.between = [unmaskFile, lockFile] ∧
    p.recorded? (.access none) = some a ∧
    ∃ g rules declared s, a = g.authorisation rules ∧ declared <+: m.all ∧
      requestedFile.policies.declareAll declared = .ok s ∧
      s.decide p.users ⟨"t"⟩ fileRequest = .ok (some g) ∧ rules = s.rules? .record ⟨"file:/p"⟩ := by
  let p : Pipeline :=
    requestedFileAt [unmaskFile, lockFile] (.recording fileGrant (some unmaskFile.rules))
  have h₁ := deciding_granted.step (e := .setRecordRules ⟨"file:/p"⟩ unmaskFile.rules)
    (q := requestedFileAt [unmaskFile] (.granted fileGrant)) rfl rfl rfl
  have h₂ := h₁.step (e := .setResourceRules ⟨"file:/p"⟩ lockFile.rules)
    (q := requestedFileAt [unmaskFile, lockFile] (.granted fileGrant)) rfl rfl rfl
  have h : Deciding requestedFile ⟨[], [unmaskFile, lockFile], []⟩ p :=
    h₂.step (e := .access none) rfl rfl rfl
  have ha : p.recorded? (.access none) =
      some (fileGrant.authorisation (some unmaskFile.rules)) := rfl
  have hapart : ¬ Declaration.Crosses fileRequest.resource unmaskFile lockFile := by
    rintro ⟨⟨hkind, -⟩, -⟩
    cases hkind
  obtain ⟨-, hrecorded, -⟩ := grant_consulted rfl h rfl
  obtain ⟨g, rules, hg, first, second, -, -, hmoment⟩ := hrecorded _ _ ha
  obtain ⟨earlier, later, s, hsplit, hs, hdecided, -, hrules⟩ :=
    hmoment (List.pairwise_pair.2 hapart)
  exact ⟨_, p, _, reachable_requestedFile, h, rfl, ha, g, rules, earlier, s, hg,
    ⟨later, hsplit.symm⟩, hs, hdecided, hrules⟩

/-- The file is locked and then its records are unmasked: the grant of before goes on with the
records unmasked, which no policies of one moment allow. -/
theorem grant_of_two_moments : ∃ m p g rules, Reachable maskedFile requestedFile ∧
    Deciding requestedFile m p ∧
    Consulted requestedFile.policies requestedFile.users ⟨"t"⟩ fileRequest m g
      requestedFile.policies p.policies ∧
    p.recorded? (.access none) = some (g.authorisation rules) ∧
    ∀ declared s, declared <+: m.all → requestedFile.policies.declareAll declared = .ok s →
      s.rules? .record ⟨"file:/p"⟩ = rules →
      s.rules? .resource ⟨"file:/p"⟩ ≠ requestedFile.policies.rules? .resource ⟨"file:/p"⟩ := by
  let p₁ : Pipeline := requestedFileAt [lockFile] (.granted fileGrant)
  let p₂ : Pipeline := requestedFileAt [lockFile, unmaskFile] (.granted fileGrant)
  let p : Pipeline :=
    requestedFileAt [lockFile, unmaskFile] (.recording fileGrant (some unmaskFile.rules))
  have h₁ := deciding_granted.step (e := .setResourceRules ⟨"file:/p"⟩ lockFile.rules) (q := p₁)
    rfl rfl rfl
  have h₂ := h₁.step (e := .setRecordRules ⟨"file:/p"⟩ unmaskFile.rules) (q := p₂) rfl rfl rfl
  have h : Deciding requestedFile ⟨[], [lockFile, unmaskFile], []⟩ p :=
    h₂.step (e := .access none) (q := p) rfl rfl rfl
  have hfirst : requestedFile.policies.declareAll [lockFile] = .ok p₁.policies := rfl
  have hboth : requestedFile.policies.declareAll [lockFile, unmaskFile] = .ok p.policies := rfl
  have hgranted : requestedFile.policies.decide requestedFile.users ⟨"t"⟩ fileRequest =
      .ok (some fileGrant) := rfl
  have ha : p.recorded? (.access none) =
      some (fileGrant.authorisation (some unmaskFile.rules)) := rfl
  refine ⟨_, p, fileGrant, some unmaskFile.rules, reachable_requestedFile, h,
    ⟨rfl, hboth, hgranted⟩, ha, fun declared s hd hs hrules => ?_⟩
  have hd : declared <+: [lockFile, unmaskFile] := hd
  rcases List.prefix_cons_iff.1 hd with rfl | ⟨rest, rfl, hrest⟩
  · obtain rfl := Except.ok.inj hs
    exact absurd hrules (by decide +kernel)
  rcases List.prefix_cons_iff.1 hrest with rfl | ⟨rest', rfl, hrest'⟩
  · obtain rfl := Except.ok.inj (hfirst.symm.trans hs)
    exact absurd hrules (by decide +kernel)
  · cases List.prefix_nil.1 hrest'
    obtain rfl := Except.ok.inj (hboth.symm.trans hs)
    decide +kernel

end Pipeline

end PolicyGate
