import PolicyGate.Proofs.List.Update
import PolicyGate.Proofs.Pipeline.Step
import PolicyGate.Proofs.Store.Authorised

/-!
The authorisations that the policy stage puts into its store, and what the record filter makes of
them. Main statements: the store is what these puts make of it (`Recording.filled`), so that what is
kept under a key is the last authorisation that was stored under it, and a filter that answers
applies the user, the context and the rules of an authorisation that was stored under the key of its
pair (`filterRecords_authorised`). That is the
authorisation of the pair itself unless a token has a colon: the key joins the token and the
resource by a colon, and a pair with a part of the resource at the end of the token has the same.
-/

namespace PolicyGate

/-- Records are let through only under rules that were found and compile. -/
theorem filterRecords_eq_ok {catalog : Catalog} {key : String}
    {found : Except StoreError (Option AuthorisedRequest)} {records kept : List Record}
    (h : filterRecords catalog key found records = .ok kept) : ∃ a rules,
      found = .ok (some a) ∧ a.compileRecordRules catalog = .ok rules ∧
      keepRecords rules a.user a.context records = .ok kept := by
  unfold filterRecords at h
  split at h
  · cases h
  · cases h
  · next a =>
    split at h
    · cases h
    · next rules hr =>
      refine ⟨a, rules, rfl, hr, ?_⟩
      cases hk : keepRecords rules a.user a.context records with
      | error => simp [hk, Except.mapError] at h
      | ok => simpa [hk, Except.mapError] using h

namespace Store

/-- What becomes of a store by puts of authorisations, each under the key of its token and resource,
last first, with time passing in between. -/
inductive Filled (s₀ : Store) : List AuthorisedRequest → Store → Prop
  | start : Filled s₀ [] s₀
  | put {stored s s'} {now : Instant} {a : AuthorisedRequest} : Filled s₀ stored s →
    s.put AuthorisedRequest.recordType now (AuthorisedRequest.key a.token a.resource) a none =
      .ok s' →
    Filled s₀ (a :: stored) s'
  | advance {stored s} {now : Instant} {elapsed : Duration} : Filled s₀ stored s →
    Filled s₀ stored (s.advance now elapsed)

variable {s₀ s : Store} {stored : List AuthorisedRequest}

/-- What is kept under a key is the last authorisation that was stored under it. -/
def Remembers (s : Store) (stored : List AuthorisedRequest) : Prop :=
  ∀ key r, s.kept? AuthorisedRequest.recordType key = some r → ∃ a,
    stored.find? (fun a => a.storageKey = key) = some a ∧ r = a.mapRules s.arrange

/-- A store without authorisations holds no others than those that were put into it. -/
theorem Filled.remembers (h₀ : ∀ key, s₀.kept? AuthorisedRequest.recordType key = none)
    (h : s₀.Filled stored s) : s.Remembers stored := by
  intro key r hk
  induction h with
  | start =>
    rw [h₀] at hk
    cases hk
  | put _ hp ih =>
    rw [kept?_put_eq hp, readBack_authorised] at hk
    rw [arrange_put hp]
    split at hk
    · next he =>
      cases hk
      exact ⟨_, List.find?_cons_of_pos (by simp [AuthorisedRequest.storageKey, he]), rfl⟩
    · next hne =>
      obtain ⟨b, hb, hr⟩ := ih hk
      refine ⟨b, (List.find?_cons_of_neg fun h => ?_).trans hb, hr⟩
      exact hne (of_decide_eq_true h).symm
  | advance _ ih =>
    rw [arrange_advance]
    exact ih (kept?_advance hk)

/-- The last authorisation that was stored under a key is what is kept under it. -/
def Recalls (s : Store) (stored : List AuthorisedRequest) : Prop :=
  ∀ key a, stored.find? (fun a => a.storageKey = key) = some a →
    s.kept? AuthorisedRequest.recordType key = some (a.mapRules s.arrange)

/-- A store that keeps what it takes still has all that was put into it. -/
theorem Filled.recalls (h₀ : s₀.Lasts) (h : s₀.Filled stored s) : s.Lasts ∧ s.Recalls stored := by
  induction h with
  | start => exact ⟨h₀, nofun⟩
  | put _ hp ih =>
    refine ⟨ih.1.put hp, fun key b hb => ?_⟩
    rw [kept?_put_eq hp, readBack_authorised, arrange_put hp, ← AuthorisedRequest.storageKey]
    rw [List.find?_cons] at hb
    split at hb
    · next hkey =>
      cases hb
      rw [if_pos (of_decide_eq_true hkey).symm]
    · next hkey =>
      rw [if_neg fun h => of_decide_eq_false hkey h.symm]
      exact ih.2 key b hb
  | advance _ ih =>
    rw [ih.1.advance]
    exact ih

end Store

namespace Pipeline

/-- The authorisation that a step puts into the store. -/
def recorded? (p : Pipeline) : Event → Option AuthorisedRequest
  | .access fault =>
    match p.access with
    | some ⟨_, .busy _ (.recording grant rules)⟩ =>
      (p.putAuthorised fault (grant.authorisation rules)).toOption.map
        fun _ => grant.authorisation rules
    | _ => none
  | _ => none

/-- Steps from one pipeline to another, with the authorisations that they put into the store, last
first. -/
inductive Recording (p₀ : Pipeline) : List AuthorisedRequest → Pipeline → Prop
  | start : Recording p₀ [] p₀
  | step {stored p q} {e : Event} : Recording p₀ stored p → p.step e = some q →
    Recording p₀ ((p.recorded? e).toList ++ stored) q

variable {p₀ p q : Pipeline} {e : Event} {stored : List AuthorisedRequest} {s' : Store}

theorem put_of_putAuthorised {fault : Option StoreError} {a : AuthorisedRequest}
    (h : p.putAuthorised fault a = .ok s') :
    p.authorised.put AuthorisedRequest.recordType p.now a.storageKey a none = .ok s' := by
  cases fault with
  | none => exact h
  | some => cases h

theorem recorded?_of_command? {ce : Coordinator.Event} (h : e.command? p.now = some ce) :
    p.recorded? e = none := by
  cases e with
  | access => cases h
  | _ => rfl

/-- A step puts one authorisation into the store, or lets time pass, or leaves the store alone. -/
theorem authorised_of_step (h : p.step e = some q) :
    (∃ fault a, p.recorded? e = some a ∧ p.putAuthorised fault a = .ok q.authorised) ∨
      p.recorded? e = none ∧ (q.authorised = p.authorised ∨
        ∃ elapsed, q.authorised = p.authorised.advance p.now elapsed) := by
  cases stepped h with
  | @access fault consumer _ _ _ _ ha hs =>
    cases hs with
    | @record reader t g rules =>
      cases hp : p.putAuthorised fault (g.authorisation rules) with
      | ok =>
        exact .inl ⟨fault, g.authorisation rules,
          by simp [recorded?, ha, hp, Except.toOption], hp⟩
      | error => exact .inr ⟨by simp [recorded?, ha, hp, Except.toOption], .inl rfl⟩
    | take | drained | next | refused | crashed | decide | lookUp | publish | refuse | report =>
      exact .inr ⟨by simp [recorded?, ha], .inl rfl⟩
  | wait => exact .inr ⟨rfl, .inr ⟨_, rfl⟩⟩
  | coordinate he _ => exact .inr ⟨recorded?_of_command? he, .inl rfl⟩
  | register | registration | read | reading | index | lookup | fail | setResourceRules
  | setRecordRules | closeRequests | closeOutput | closeErrors => exact .inr ⟨rfl, .inl rfl⟩

/-- Steps fill the store with the authorisations that they record, and with nothing else. -/
theorem Recording.filled (h : Recording p₀ stored p) :
    p₀.authorised.Filled stored p.authorised := by
  induction h with
  | start => exact .start
  | step _ hs ih =>
    rcases authorised_of_step hs with ⟨fault, a, ha, hp⟩ | ⟨ha, hq | ⟨elapsed, hq⟩⟩ <;> rw [ha]
    · exact ih.put (put_of_putAuthorised hp)
    · rwa [hq]
    · rw [hq]
      exact ih.advance ..

/-- Of a pipeline that starts without authorisations, what is kept has been stored. -/
theorem Recording.remembers
    (h₀ : ∀ key, p₀.authorised.kept? AuthorisedRequest.recordType key = none)
    (h : Recording p₀ stored p) : p.authorised.Remembers stored :=
  h.filled.remembers h₀

/-- A filter that answers has found an authorisation. -/
theorem filterRecords_found {fault : Option StoreError} {token : Token} {resource : ResourceId}
    {records kept : List Record} (h : p.filterRecords fault token resource records = .ok kept) :
    ∃ a rules,
      p.authorised.kept? AuthorisedRequest.recordType (AuthorisedRequest.key token resource) =
        some a ∧
      a.compileRecordRules p.wiring.catalog = .ok rules ∧
      keepRecords rules a.user a.context records = .ok kept := by
  obtain ⟨a, rules, ha, hrules, hkept⟩ := filterRecords_eq_ok h
  cases fault with
  | none => exact ⟨a, rules, Store.kept?_of_get ha, hrules, hkept⟩
  | some => cases ha

/-- Takes steps one after the other and notes the authorisations that they store. -/
def replay (stored : List AuthorisedRequest) (p : Pipeline) (events : List Event) :
    Option (List AuthorisedRequest × Pipeline) :=
  events.foldlM (fun (stored, p) e => (p.step e).map fun q => ((p.recorded? e).toList ++ stored, q))
    (stored, p)

theorem Recording.exists_of_replay {α : Type} {l : List Event}
    {f : List AuthorisedRequest × Pipeline → α} {a : α} (h : Recording p₀ stored p)
    (hr : (p.replay stored l).map f = some a) :
    ∃ stored' q, Recording p₀ stored' q ∧ f (stored', q) = a := by
  have hrun := ListUpdate.exists_of_foldlM (R := fun r => Recording p₀ r.1 r.2) h hr ?_
  · obtain ⟨r, h, hf⟩ := hrun
    exact ⟨r.1, r.2, h, hf⟩
  · intro r e _ r' h hs
    obtain ⟨q, hq, rfl⟩ := Option.map_eq_some_iff.1 hs
    exact h.step hq

/-- A pipeline with one file, whose records are masked. -/
def maskedFile : Pipeline :=
  start ⟨.builtins, .start, ⟨1000⟩, "host", default⟩
    (.declared .builtins
      ⟨(∅ : Declarations .resource).declare ⟨"file:/p"⟩ ⟨"", .ofList [("a", "pass_through")]⟩,
        (∅ : Declarations .record).declare ⟨"file:/p"⟩ ⟨"", .ofList [("m", "mask_field:name")]⟩⟩)
    .empty (.memory .empty) (.memory .empty) ⟨1000⟩

/-- What a filter gives out for the name in a record. -/
def shownNames (p : Pipeline) (token : Token) (resource : ResourceId) (name : String) :
    Option (List (Option String)) :=
  (p.filterRecords none token resource [⟨.ofList [("name", .string name)]⟩]).toOption.map
    fun kept => kept.map fun r => (r.get? "name").map Json.render

theorem filterRecords_of_shownNames {token : Token} {resource : ResourceId} {name : String}
    {names : List (Option String)} (h : p.shownNames token resource name = some names) :
    ∃ kept, p.filterRecords none token resource [⟨.ofList [("name", .string name)]⟩] = .ok kept ∧
      kept.map (fun r => (r.get? "name").map Json.render) = names := by
  obtain ⟨kept, hk, hnames⟩ := Option.map_eq_some_iff.1 h
  exact ⟨kept, eq_ok_of_toOption hk, hnames⟩

/-- A client is granted the file. Its records are given out for its own pair, and as well for the
pair with the scheme at the end of the token. -/
theorem recording_maskedFile : ∃ stored p, Recording maskedFile stored p ∧
    stored.map (fun a => (a.token, a.resource)) = [(⟨"t"⟩, ⟨"file:/p"⟩)] ∧
    p.shownNames ⟨"t"⟩ ⟨"file:/p"⟩ "x" = some [some "null"] ∧
    p.shownNames ⟨"t:file"⟩ ⟨"/p"⟩ "x" = some [some "null"] := by
  have h : Recording maskedFile [] maskedFile := .start
  obtain ⟨stored, p, hp, hf⟩ := h.exists_of_replay
    (l := List.flatten [[.register ⟨"t"⟩ ⟨⟨"u"⟩, ⟨"file:/p"⟩, .empty⟩],
      List.replicate 3 (.registration 0), List.replicate 7 (.access none)])
    (f := fun (stored, p) => (stored.map fun a => (a.token, a.resource),
      p.shownNames ⟨"t"⟩ ⟨"file:/p"⟩ "x", p.shownNames ⟨"t:file"⟩ ⟨"/p"⟩ "x"))
    (a := ([(⟨"t"⟩, ⟨"file:/p"⟩)], some [some "null"], some [some "null"])) (by decide +kernel)
  simp only [Prod.mk.injEq] at hf
  exact ⟨stored, p, hp, hf⟩

/-- A filter that answers applies the user, the context and the rules of the last authorisation that
was stored under the key of its token and resource. That is an authorisation of this very pair
unless the two pairs are confused, for which one of the tokens must have a colon. Nor does the
storing of an authorisation change the answers about any pair but its own and those that are
confused with it. -/
theorem filterRecords_authorised
    (h₀ : ∀ key, p₀.authorised.kept? AuthorisedRequest.recordType key = none)
    (h : Recording p₀ stored p) :
    (∀ fault token resource records kept,
      p.filterRecords fault token resource records = .ok kept → ∃ a rules,
        stored.find? (fun a => a.storageKey = AuthorisedRequest.key token resource) = some a ∧
        (a.mapRules p.authorised.arrange).compileRecordRules p.wiring.catalog = .ok rules ∧
        keepRecords rules a.user a.context records = .ok kept ∧
        (a.token = token ∧ a.resource = resource ∨
          AuthorisedRequest.Confused a.token a.resource token resource)) ∧
    ∀ fault a store, p.putAuthorised fault a = .ok store → ∀ fault token resource records,
      ¬ (a.token = token ∧ a.resource = resource) →
      ¬ AuthorisedRequest.Confused a.token a.resource token resource →
      { p with authorised := store }.filterRecords fault token resource records =
        p.filterRecords fault token resource records := by
  refine ⟨fun fault token resource records kept hf => ?_,
    fun _ a store hp fault token resource records hne hclear => ?_⟩
  · obtain ⟨r, rules, hk, hrules, hkept⟩ := filterRecords_found hf
    obtain ⟨a, ha, rfl⟩ := h.remembers h₀ _ _ hk
    have hkey := List.find?_some ha
    exact ⟨a, rules, ha, hrules, hkept, AuthorisedRequest.key_eq_iff.1 (of_decide_eq_true hkey)⟩
  · have hkey : AuthorisedRequest.key token resource ≠ a.storageKey := fun he =>
      (AuthorisedRequest.key_eq_iff.1 he.symm).elim hne hclear
    cases fault with
    | none => simp only [filterRecords, Store.get_put_of_ne (put_of_putAuthorised hp) hkey]
    | some => rfl

/-- A client is granted a file and sees its records without their names. -/
theorem filterRecords_authorised_masked : ∃ stored p kept, Recording maskedFile stored p ∧
    p.filterRecords none ⟨"t"⟩ ⟨"file:/p"⟩ [⟨.ofList [("name", .string "x")]⟩] = .ok kept ∧
    kept.map (fun r => (r.get? "name").map Json.render) = [some "null"] ∧
    ∃ a ∈ stored, a.token = ⟨"t"⟩ ∧ a.resource = ⟨"file:/p"⟩ := by
  obtain ⟨stored, p, hp, hstored, hshown, -⟩ := recording_maskedFile
  obtain ⟨kept, hk, hmap⟩ := filterRecords_of_shownNames hshown
  obtain ⟨a, rules, ha, -, -, hpair⟩ := (filterRecords_authorised (fun _ => rfl) hp).1 _ _ _ _ _ hk
  have hmem := List.mem_of_find?_eq_some ha
  refine ⟨stored, p, kept, hp, hk, hmap, a, hmem, hpair.resolve_right fun hconfused => ?_⟩
  -- neither token has a colon
  have htoken := List.mem_map_of_mem hmem (f := fun a => (a.token, a.resource))
  rw [hstored, List.mem_singleton, Prod.mk.injEq] at htoken
  have hcolon := hconfused.colon_mem
  rw [htoken.1] at hcolon
  revert hcolon
  decide

/-- The records are given out for a pair for which no authorisation was ever stored. -/
theorem filterRecords_confused : ∃ stored p kept, Recording maskedFile stored p ∧
    (∀ a ∈ stored, ¬ (a.token = ⟨"t:file"⟩ ∧ a.resource = ⟨"/p"⟩)) ∧
    p.filterRecords none ⟨"t:file"⟩ ⟨"/p"⟩ [⟨.ofList [("name", .string "x")]⟩] = .ok kept := by
  obtain ⟨stored, p, hp, hstored, -, hshown⟩ := recording_maskedFile
  obtain ⟨kept, hk, -⟩ := filterRecords_of_shownNames hshown
  refine ⟨stored, p, kept, hp, fun a hmem hpair => ?_, hk⟩
  have hother := List.mem_map_of_mem hmem (f := fun a => (a.token, a.resource))
  rw [hstored, List.mem_singleton, hpair.1, hpair.2] at hother
  revert hother
  decide

end Pipeline

end PolicyGate
