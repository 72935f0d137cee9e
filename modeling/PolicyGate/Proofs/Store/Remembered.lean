import Mathlib.Data.List.Induction
import PolicyGate.Proofs.Store.Authorised

/-!
What a store in memory remembers of the calls on it. Main statements: the record under a key is that
of the last write there that no deletion followed, whatever is done with the records of the other
kind (`memory_remembers`). The rules of an authorisation come back in the order of their ids, so it
comes back as it was put exactly if they were declared in that order.
-/

namespace PolicyGate

/-- The offset is a whole number of 64 bits with a sign. -/
def TokenOffset.IsInt64 (o : TokenOffset) : Prop :=
  -9223372036854775808 ≤ o.offset ∧ o.offset ≤ 9223372036854775807

theorem TokenOffset.ofJson_toJson {o : TokenOffset} (h : o.IsInt64) :
    recordType.ofJson (recordType.toJson o).sorted = some o := by
  refine (decode_sorted_toJson o).trans ?_
  simp [Json.reader, Json.int, h.2]

/-- The rules for records are declared in the order of their ids. -/
def AuthorisedRequest.IsOrdered (a : AuthorisedRequest) : Prop :=
  ∀ set, a.recordRules = some set → set.rules.entries.Pairwise fun x y => x.1 < y.1

theorem AuthorisedRequest.mapRules_byId_eq_self_iff (a : AuthorisedRequest) :
    a.mapRules .byId = a ↔ a.IsOrdered := by
  obtain ⟨token, resource, user, context, rules⟩ := a
  cases rules with
  | none => simp [mapRules, IsOrdered]
  | some set =>
    obtain ⟨message, rules⟩ := set
    simp [mapRules, IsOrdered, RuleMap.byId_eq_self_iff]

/-- No key of one kind is a key of the other. -/
def RecordType.Apart {α β : Type} (type : RecordType α) (other : RecordType β) : Prop :=
  ∀ key key', type.fullKey key ≠ other.fullKey key'

theorem apart : TokenOffset.recordType.Apart AuthorisedRequest.recordType := by
  intro key key' h
  have hhead := congrArg (fun text => text.toList.head?) h
  simp [RecordType.fullKey, TokenOffset.recordType, AuthorisedRequest.recordType] at hhead

namespace Store

variable {α β : Type} {type : RecordType α} {other : RecordType β}

/-- A call on the records of one kind. -/
inductive Call (α : Type) where
  | put (key : String) (record : α) (ttl : Option Duration)
  | get (key : String)
  | delete (key : String)

namespace Call

/-- What a call leaves of the record that is held under a key. -/
def leave (key : String) (held : Option α) : Call α → Option α
  | put key' record _ => if key' = key then some record else held
  | get _ => held
  | delete key' => if key' = key then none else held

/-- The record of the last write under a key, unless a deletion followed. -/
def latest (key : String) (calls : List (Call α)) : Option α := calls.foldl (leave key) none

/-- Whether a call writes or deletes under a key. -/
def Touches (key : String) : Call α → Prop
  | put key' _ _ => key' = key
  | get _ => False
  | delete key' => key' = key

theorem leave_of_not_touches {key : String} {c : Call α} (h : ¬ c.Touches key) (held : Option α) :
    leave key held c = held := by
  cases c with
  | put => exact if_neg h
  | get => rfl
  | delete => exact if_neg h

theorem latest_concat (key : String) (calls : List (Call α)) (c : Call α) :
    latest key (calls ++ [c]) = leave key (latest key calls) c := by
  simp [latest]

/-- The latest record was put, and no call after that touched its key. -/
theorem latest_eq_some_iff {key : String} {calls : List (Call α)} {record : α} :
    latest key calls = some record ↔ ∃ before ttl after,
      calls = before ++ put key record ttl :: after ∧ ∀ c ∈ after, ¬ c.Touches key := by
  constructor
  · intro h
    induction calls using List.reverseRecOn with
    | nil => cases h
    | append_singleton calls c ih =>
      rw [latest_concat] at h
      by_cases ht : c.Touches key
      · cases c with
        | put key' record' ttl =>
          cases ht
          rw [leave, if_pos rfl, Option.some.injEq] at h
          exact ⟨calls, ttl, [], by rw [h], by simp⟩
        | get => cases ht
        | delete key' =>
          cases ht
          rw [leave, if_pos rfl] at h
          cases h
      · rw [leave_of_not_touches ht] at h
        obtain ⟨before, ttl, after, rfl, hafter⟩ := ih h
        refine ⟨before, ttl, after ++ [c], by simp, fun d hd => ?_⟩
        rcases List.mem_append.1 hd with hd | hd
        · exact hafter d hd
        · rwa [List.mem_singleton.1 hd]
  · rintro ⟨before, ttl, after, rfl, hafter⟩
    induction after using List.reverseRecOn with
    | nil => simp [latest, leave]
    | append_singleton after c ih =>
      rw [← List.cons_append, ← List.append_assoc, latest_concat,
        leave_of_not_touches (hafter c (by simp))]
      exact ih fun d hd => hafter d (by simp [hd])

end Call

/-- A call on the records of either kind. -/
abbrev SharedCall := Call TokenOffset ⊕ Call AuthorisedRequest

/-- The store after a call; nothing if the call fails. -/
def call (s : Store) (type : RecordType α) (now : Instant) : Call α → Option Store
  | .put key record ttl => (s.put type now key record ttl).toOption
  | .get key => some (s.get type now key).2
  | .delete key => (s.delete type key).toOption

/-- The store after a call on the records of either kind. -/
def sharedCall (s : Store) (now : Instant) : SharedCall → Option Store
  | .inl c => s.call TokenOffset.recordType now c
  | .inr c => s.call AuthorisedRequest.recordType now c

/-- The store after some calls, each at a time of its own. -/
def calls (s : Store) (history : List (Instant × SharedCall)) : Option Store :=
  history.foldlM (fun s c => s.sharedCall c.1 c.2) s

def offsetCalls (history : List (Instant × SharedCall)) : List (Call TokenOffset) :=
  history.filterMap fun c => c.2.getLeft?

def authorisedCalls (history : List (Instant × SharedCall)) : List (Call AuthorisedRequest) :=
  history.filterMap fun c => c.2.getRight?

section

variable (history : List (Instant × SharedCall)) (now : Instant)

theorem calls_concat {s s' : Store} (h : s.calls history = some s') (c : SharedCall) :
    s.calls (history ++ [(now, c)]) = s'.sharedCall now c := by
  rw [calls] at h ⊢
  simp [List.foldlM_append, h]

@[simp] theorem offsetCalls_concat_inl (c : Call TokenOffset) :
    offsetCalls (history ++ [(now, .inl c)]) = offsetCalls history ++ [c] := by
  simp [offsetCalls, List.filterMap_append]

@[simp] theorem offsetCalls_concat_inr (c : Call AuthorisedRequest) :
    offsetCalls (history ++ [(now, .inr c)]) = offsetCalls history := by
  simp [offsetCalls, List.filterMap_append]

@[simp] theorem authorisedCalls_concat_inl (c : Call TokenOffset) :
    authorisedCalls (history ++ [(now, .inl c)]) = authorisedCalls history := by
  simp [authorisedCalls, List.filterMap_append]

@[simp] theorem authorisedCalls_concat_inr (c : Call AuthorisedRequest) :
    authorisedCalls (history ++ [(now, .inr c)]) = authorisedCalls history ++ [c] := by
  simp [authorisedCalls, List.filterMap_append]

end

/-- A store in memory holds the values of records under the keys of their kind. -/
def Holds (store : MemoryStore) (type : RecordType α) (held : String → Option α) : Prop :=
  ∀ key, store.documents.get? (type.fullKey key) = (held key).map fun r => (type.toJson r).sorted

/-- A call on a store in memory does what it says under its own key and nothing else. -/
theorem Holds.call {store : MemoryStore} {held : String → Option α} (H : Holds store type held)
    (now : Instant) (c : Call α) : ∃ store', (memory store).call type now c = some (memory store') ∧
      Holds store' type (fun key => c.leave key (held key)) ∧
      ∀ full, (∀ key, type.fullKey key ≠ full) →
        store'.documents.get? full = store.documents.get? full := by
  cases c with
  | put key record ttl =>
    refine ⟨_, rfl, fun key' => ?_, fun full hfull => ?_⟩
    · simp only [MemoryStore.put, SortedMap.get?_insert, Call.leave]
      by_cases hk : key = key'
      · rw [if_pos (congrArg _ hk.symm), if_pos hk, Option.map_some]
      · rw [if_neg fun h => hk (RecordType.fullKey_inj h).symm, if_neg hk, H key']
    · rw [MemoryStore.put, SortedMap.get?_insert, if_neg fun h => hfull key h.symm]
  | get key => exact ⟨store, rfl, H, fun _ _ => rfl⟩
  | delete key =>
    refine ⟨_, rfl, fun key' => ?_, fun full hfull => ?_⟩
    · simp only [MemoryStore.delete, SortedMap.get?_erase, Call.leave]
      by_cases hk : key = key'
      · rw [if_pos (congrArg _ hk.symm), if_pos hk, Option.map_none]
      · rw [if_neg fun h => hk (RecordType.fullKey_inj h).symm, if_neg hk, H key']
    · rw [MemoryStore.delete, SortedMap.get?_erase, if_neg fun h => hfull key h.symm]

/-- What a store in memory holds is read as far as it is decoded. -/
theorem Holds.get {store : MemoryStore} {held : String → Option α} (H : Holds store type held)
    {f : α → α} {key : String}
    (hf : ∀ r, held key = some r → type.ofJson (type.toJson r).sorted = some (f r))
    (now : Instant) : ((memory store).get type now key).1 = .ok ((held key).map f) := by
  simp only [Store.get, MemoryStore.get, H key]
  cases hr : held key with
  | none => rfl
  | some r =>
    simp only [Option.map_some, hf r hr]

/-- Every sequence of calls on a store in memory goes through. Each kind of records is held as the
calls on that kind have left it. -/
theorem holds_calls (history : List (Instant × SharedCall)) : ∃ store,
    (memory .empty).calls history = some (memory store) ∧
    Holds store TokenOffset.recordType (fun key => Call.latest key (offsetCalls history)) ∧
    Holds store AuthorisedRequest.recordType
      (fun key => Call.latest key (authorisedCalls history)) := by
  induction history using List.reverseRecOn with
  | nil => exact ⟨_, rfl, fun _ => rfl, fun _ => rfl⟩
  | append_singleton history c ih =>
    obtain ⟨store, hs, ho, ha⟩ := ih
    obtain ⟨now, c | c⟩ := c
    · obtain ⟨store', hc, ho', hsame⟩ := ho.call now c
      refine ⟨store', (calls_concat history now hs _).trans hc, ?_, fun key => ?_⟩
      · simpa only [offsetCalls_concat_inl, Call.latest_concat] using ho'
      · rw [hsame _ fun key' => apart key' key, authorisedCalls_concat_inl, ha key]
    · obtain ⟨store', hc, ha', hsame⟩ := ha.call now c
      refine ⟨store', (calls_concat history now hs _).trans hc, fun key => ?_, ?_⟩
      · rw [hsame _ fun key' h => apart key key' h.symm, offsetCalls_concat_inr, ho key]
      · simpa only [authorisedCalls_concat_inr, Call.latest_concat] using ha'

/-- An authorisation comes back with its rules in the order of their ids. -/
theorem Holds.get_authorised {store : MemoryStore} {held : String → Option AuthorisedRequest}
    (H : Holds store AuthorisedRequest.recordType held) (now : Instant) (key : String) :
    ((memory store).get AuthorisedRequest.recordType now key).1 =
      .ok ((held key).map fun a => a.mapRules .byId) :=
  H.get (fun a _ => a.ofJson_toJson) now

theorem Holds.get_authorised_iff {store : MemoryStore} {held : String → Option AuthorisedRequest}
    (H : Holds store AuthorisedRequest.recordType held) (now : Instant) {key : String}
    {a : AuthorisedRequest} (ha : held key = some a) :
    ((memory store).get AuthorisedRequest.recordType now key).1 = .ok (some a) ↔ a.IsOrdered := by
  rw [H.get_authorised, ha, ← a.mapRules_byId_eq_self_iff]
  simp

/-- A store in memory is a map of token offsets and a map of authorisations that know nothing of
each other. Of an authorisation it keeps all but the order of the rules. -/
theorem memory_remembers (history : List (Instant × SharedCall))
    (h : ∀ key o ttl, .put key o ttl ∈ offsetCalls history → TokenOffset.IsInt64 o) :
    ∃ store, (memory .empty).calls history = some (memory store) ∧
      (∀ now key, ((memory store).get TokenOffset.recordType now key).1 =
        .ok (Call.latest key (offsetCalls history))) ∧
      (∀ now key, ((memory store).get AuthorisedRequest.recordType now key).1 =
        .ok ((Call.latest key (authorisedCalls history)).map fun a => a.mapRules .byId)) ∧
      ∀ now key a, Call.latest key (authorisedCalls history) = some a →
        (((memory store).get AuthorisedRequest.recordType now key).1 = .ok (some a) ↔
          a.IsOrdered) := by
  obtain ⟨store, hs, ho, ha⟩ := holds_calls history
  refine ⟨store, hs, fun now key => ?_, ha.get_authorised, fun now _ _ => ha.get_authorised_iff now⟩
  refine (ho.get (fun r hr => ?_) now).trans (congrArg _ Option.map_id_apply)
  obtain ⟨before, ttl, after, hcalls, -⟩ := Call.latest_eq_some_iff.1 hr
  refine TokenOffset.ofJson_toJson (h key r ttl ?_)
  rw [hcalls]
  exact List.mem_append_right _ List.mem_cons_self

/-- The same key is used for both kinds, and deleted for one of them. -/
theorem memory_remembers_shared_key : ∃ store,
    (memory .empty).calls [(⟨0⟩, .inl (.put "a:b" ⟨⟨"t"⟩, 7⟩ (some ⟨1⟩))),
      (⟨1⟩, .inr (.put "a:b" ⟨⟨"t"⟩, ⟨"r"⟩, .ofId ⟨"u"⟩, .empty, none⟩ none)),
      (⟨2⟩, .inl (.get "a:b")), (⟨3⟩, .inr (.delete "a:b"))] = some (memory store) ∧
    ((memory store).get TokenOffset.recordType ⟨9⟩ "a:b").1 = .ok (some ⟨⟨"t"⟩, 7⟩) ∧
    ((memory store).get AuthorisedRequest.recordType ⟨9⟩ "a:b").1 = .ok none := by
  obtain ⟨store, hs, ho, ha, -⟩ := memory_remembers
    [(⟨0⟩, .inl (.put "a:b" ⟨⟨"t"⟩, 7⟩ (some ⟨1⟩))),
      (⟨1⟩, .inr (.put "a:b" ⟨⟨"t"⟩, ⟨"r"⟩, .ofId ⟨"u"⟩, .empty, none⟩ none)),
      (⟨2⟩, .inl (.get "a:b")), (⟨3⟩, .inr (.delete "a:b"))]
    (by simp +contextual [offsetCalls, TokenOffset.IsInt64])
  exact ⟨store, hs, ho ⟨9⟩ "a:b", ha ⟨9⟩ "a:b"⟩

/-- Two rules that were declared against the order of their ids do not come back as they were. -/
theorem memory_reorders_rules : ∃ a : AuthorisedRequest,
    a = ⟨⟨"t"⟩, ⟨"r"⟩, .ofId ⟨"u"⟩, .empty,
      some ⟨"m", .ofList [("z", "pass_through"), ("a", "deny_all")]⟩⟩ ∧
    ∃ store, (memory .empty).calls [(⟨0⟩, .inr (.put "k" a none))] = some (memory store) ∧
      ∀ now, ((memory store).get AuthorisedRequest.recordType now "k").1 ≠ .ok (some a) := by
  refine ⟨_, rfl, ?_⟩
  obtain ⟨store, hs, -, ha⟩ := holds_calls [(⟨0⟩, .inr (.put "k" ⟨⟨"t"⟩, ⟨"r"⟩, .ofId ⟨"u"⟩, .empty,
    some ⟨"m", .ofList [("z", "pass_through"), ("a", "deny_all")]⟩⟩ none))]
  refine ⟨store, hs, fun now hget => ?_⟩
  have hordered := (ha.get_authorised_iff now (by rfl)).1 hget _ rfl
  revert hordered
  decide

end Store

end PolicyGate
