import PolicyGate.Policy.Document
import PolicyGate.Proofs.Store.Remembered

/-!
Everything that travels as JSON text: tokens, users, rules, policies, requests and what is granted.
Main statement: the compact text of a value is read back as this value, with its rules in their
order, and what was read from any text is written as a text that reading and writing leave as it is
(`messages_read_back`).
-/

namespace PolicyGate

namespace Json

/-! ## What a reader is told -/

namespace Reads

variable {D : Type} {r : Wire.Reader Option D} {document : Json → D}

theorem resource {arrange : RuleMap → RuleMap} (R : Reads r document arrange) (x : Resource) :
    Resource.decode r (document x.toJson) = some x := by
  rw [Resource.decode, Resource.toJson, R.parts _ _ (by simp)]
  simp [Wire.Fields.required, Wire.Fields.withDefault, Wire.Fields.at?, SortedMap.lookup,
    R.resourceId, R.text, SortedMap.decodeTexts, R.texts, SortedMap.ofList_entries]

theorem dataRequest {arrange : RuleMap → RuleMap} (R : Reads r document arrange)
    (q : DataRequest) : DataRequest.decode r (document q.toJson) = some q := by
  rw [DataRequest.decode, DataRequest.toJson, R.parts _ _ (by simp)]
  simp [Wire.Fields.required, Wire.Fields.at?, SortedMap.lookup, R.userId, R.resourceId, R.context]

theorem authorisedResource (R : Reads r document id) (a : AuthorisedResource) :
    AuthorisedResource.decode r (document a.toJson) = some a := by
  rw [AuthorisedResource.decode, AuthorisedResource.toJson, R.parts _ _ (by simp)]
  simp [Wire.Fields.required, Wire.Fields.omissible, Wire.Fields.at?, SortedMap.lookup, R.user,
    R.context, R.resource, R.ruleSet?]

theorem policyEntry (R : Reads r document id) (e : PolicyEntry) :
    PolicyEntry.decode r (document e.toJson) = some e := by
  rw [PolicyEntry.decode, PolicyEntry.toJson, R.parts _ _ (by simp)]
  simp [Wire.Fields.required, Wire.Fields.withDefault, Wire.Fields.at?, SortedMap.lookup,
    R.resourceId, R.ruleSet?]

theorem policyDocument (R : Reads r document id) (d : PolicyDocument) :
    PolicyDocument.decode r (document d.toJson) = some d := by
  have hentries : (d.policies.map fun e => document e.toJson).mapM (PolicyEntry.decode r) =
      some d.policies := by
    induction d.policies with
    | nil => rfl
    | cons e rest ih => simp [List.mapM_cons, R.policyEntry, ih]
  rw [PolicyDocument.decode, PolicyDocument.toJson, R.parts _ _ (by simp)]
  simp [Wire.Fields.withDefault, Wire.Fields.at?, SortedMap.lookup, Wire.Reader.items, R.list,
    Function.comp_def, hentries]

end Reads

/-- A whole number that was read has 64 bits with a sign. -/
theorem Form.int_bounds {form : Form} {n : Int} (h : Form.reader.int form = some n) :
    -9223372036854775808 ≤ n ∧ n ≤ 9223372036854775807 := by
  cases form with
  | number text =>
    simp only [reader] at h
    split at h
    · next m hm =>
      split at h
      · next hle =>
        cases h
        refine ⟨?_, hle⟩
        unfold NumberText.value? at hm
        simp only at hm
        split at hm
        · cases hm; omega
        · split at hm
          · next hlow => cases hm; simp at hlow; omega
          · obtain ⟨_, _, he⟩ := Option.map_eq_some_iff.1 hm
            cases he
      · cases h
    · cases h
  | null | bool | string | array | object => cases h

end Json

theorem Wire.Fields.exists_of_required {D α : Type} {fields : Fields D} {place : Nat}
    {decode : D → Option α} {a : α} (h : fields.required place decode = some a) :
    ∃ d, decode d = some a := by
  unfold required at h
  split at h
  · next d _ => exact ⟨d, h⟩
  · cases h

theorem TokenOffset.isInt64_of_decode {form : Json.Form} {o : TokenOffset}
    (h : decode Json.Form.reader form = some o) : o.IsInt64 := by
  simp only [decode, Option.bind_eq_bind, Option.bind_eq_some_iff, Option.pure_def,
    Option.some.injEq] at h
  obtain ⟨_, _, _, _, n, hn, rfl⟩ := h
  obtain ⟨_, hn⟩ := Wire.Fields.exists_of_required hn
  exact Json.Form.int_bounds hn

/-! ## Texts without floating-point numbers -/

theorem RuleMap.isWhole_toJson (m : RuleMap) : m.toJson.isWhole := Json.haveWhole_strings _

theorem Resource.isWhole_toJson (x : Resource) : x.toJson.isWhole := by
  have hattributes : (Json.ofTexts x.attributes).isWhole := Json.haveWhole_strings _
  simp [toJson, ResourceId.toJson, Json.isWhole, Json.haveWhole, hattributes]

theorem DataRequest.isWhole_toJson (q : DataRequest) : q.toJson.isWhole := by
  simp [toJson, UserId.toJson, ResourceId.toJson, Json.isWhole, Json.haveWhole,
    Context.isWhole_toJson]

theorem AuthorisedResource.isWhole_toJson (a : AuthorisedResource) : a.toJson.isWhole := by
  simp [toJson, Json.isWhole, Json.haveWhole, User.isWhole_toJson, Context.isWhole_toJson,
    Resource.isWhole_toJson, RuleSet.isWhole_toJson]

theorem PolicyEntry.isWhole_toJson (e : PolicyEntry) : e.toJson.isWhole := by
  simp [toJson, ResourceId.toJson, Json.isWhole, Json.haveWhole, RuleSet.isWhole_toJson]

theorem PolicyDocument.isWhole_toJson (d : PolicyDocument) : d.toJson.isWhole := by
  have hentries : Json.areWhole (d.policies.map PolicyEntry.toJson) := by
    induction d.policies with
    | nil => rfl
    | cons e rest ih => simpa [Json.areWhole, e.isWhole_toJson] using ih
  simpa [toJson, Json.isWhole, Json.haveWhole] using hentries

/-! ## Reading back -/

/-- Every value of a type is read back from its compact text, and what was read from any text is a
value of the type whose compact text is not changed by reading and writing it. -/
structure RoundTripsOn {α : Type} (Valid : α → Prop) (toJson : α → Json)
    (decode : Json.Form → Option α) : Prop where
  read : ∀ a, Valid a → Json.decode? decode (toJson a).render = some a
  settled : ∀ text a, Json.decode? decode text = some a → Valid a ∧
    (Json.decode? decode (toJson a).render).map (fun b => (toJson b).render) =
      some (toJson a).render

/-- All values are read back from their compact texts. -/
abbrev RoundTrips {α : Type} : (α → Json) → (Json.Form → Option α) → Prop :=
  RoundTripsOn fun _ => True

/-- Values round-trip if their forms are read back and all that is read is valid. -/
theorem roundTripsOn_of_form {α : Type} {Valid : α → Prop} {toJson : α → Json}
    {decode : Json.Form → Option α} (hwhole : ∀ a, (toJson a).isWhole)
    (hread : ∀ a, Valid a → decode (toJson a).form = some a)
    (hvalid : ∀ form a, decode form = some a → Valid a) : RoundTripsOn Valid toJson decode := by
  have hback : ∀ a, Valid a → Json.decode? decode (toJson a).render = some a := fun a ha =>
    (Json.Form.decode?_render (hwhole a) decode).trans (hread a ha)
  refine ⟨hback, fun text a h => ?_⟩
  obtain ⟨form, -, hform⟩ := Option.bind_eq_some_iff.1 h
  have ha := hvalid form a hform
  exact ⟨ha, by rw [hback a ha, Option.map_some]⟩

theorem roundTrips_of_form {α : Type} {toJson : α → Json} {decode : Json.Form → Option α}
    (hwhole : ∀ a, (toJson a).isWhole) (hread : ∀ a, decode (toJson a).form = some a) :
    RoundTrips toJson decode :=
  roundTripsOn_of_form hwhole (fun a _ => hread a) fun _ _ _ => trivial

theorem RuleSet.roundTrips (kind : RuleKind) :
    RoundTrips (fun s : RuleSet kind => s.toJson) (RuleSet.decode Json.Form.reader) :=
  roundTrips_of_form (fun s => RuleSet.isWhole_toJson (some s)) Json.Form.reads_reader.ruleSet

theorem TokenOffset.roundTrips :
    RoundTripsOn IsInt64 toJson (decode Json.Form.reader) := by
  refine roundTripsOn_of_form (fun _ => rfl) (fun o ho => ?_) fun _ _ => isInt64_of_decode
  rw [decode_form_toJson, Json.Form.int_form_int, if_pos ⟨ho.1, ho.2⟩, Option.map_some]

/-- Whatever travels as JSON text is read back from it as it was, and a text that was written anew
after reading stays as it is. -/
theorem messages_read_back :
    RoundTrips Token.toJson (Token.decode Json.Form.reader) ∧
    RoundTrips UserId.toJson (UserId.decode Json.Form.reader) ∧
    RoundTrips ResourceId.toJson (ResourceId.decode Json.Form.reader) ∧
    RoundTrips User.toJson (User.decode Json.Form.reader) ∧
    RoundTrips Context.toJson (Context.decode Json.Form.reader) ∧
    RoundTripsOn TokenOffset.IsInt64 TokenOffset.toJson (TokenOffset.decode Json.Form.reader) ∧
    RoundTrips RuleMap.toJson (RuleMap.decode Json.Form.reader) ∧
    RoundTrips (fun s : ResourceRules => s.toJson) (RuleSet.decode Json.Form.reader) ∧
    RoundTrips (fun s : RecordRules => s.toJson) (RuleSet.decode Json.Form.reader) ∧
    RoundTrips Resource.toJson (Resource.decode Json.Form.reader) ∧
    RoundTrips PolicyDocument.toJson (PolicyDocument.decode Json.Form.reader) ∧
    RoundTrips DataRequest.toJson (DataRequest.decode Json.Form.reader) ∧
    RoundTrips AuthorisedResource.toJson (AuthorisedResource.decode Json.Form.reader) ∧
    RoundTrips AuthorisedRequest.toJson (AuthorisedRequest.decode Json.Form.reader) := by
  have R := Json.Form.reads_reader
  exact ⟨roundTrips_of_form (fun _ => rfl) R.token, roundTrips_of_form (fun _ => rfl) R.userId,
    roundTrips_of_form (fun _ => rfl) R.resourceId, roundTrips_of_form User.isWhole_toJson R.user,
    roundTrips_of_form Context.isWhole_toJson R.context, TokenOffset.roundTrips,
    roundTrips_of_form RuleMap.isWhole_toJson R.ruleMap, RuleSet.roundTrips .resource,
    RuleSet.roundTrips .record, roundTrips_of_form Resource.isWhole_toJson R.resource,
    roundTrips_of_form PolicyDocument.isWhole_toJson R.policyDocument,
    roundTrips_of_form DataRequest.isWhole_toJson R.dataRequest,
    roundTrips_of_form AuthorisedResource.isWhole_toJson R.authorisedResource,
    roundTrips_of_form AuthorisedRequest.isWhole_toJson fun a =>
      (R.authorisedRequest a).trans (congrArg some a.mapRules_id)⟩

end PolicyGate
