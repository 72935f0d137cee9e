import Mathlib.Data.List.Basic
import PolicyGate.Proofs.Json.Reading
import PolicyGate.Proofs.Store.Kept
import PolicyGate.Subject.Fresh

/-!
Authorisations in a store. Main statements: every kind of store gives back an authorisation as it
was put, except that a store in memory brings its rules into the order of their ids
(`readBack_authorised`), and two pairs of a token and a resource have one key exactly if they are
equal or a part of the resource has gone over to the token (`key_eq_iff`), which takes a token with
a colon (`Confused.colon_mem`). Fresh tokens have none (`Token.colon_not_mem_ofOctets`).
-/

namespace PolicyGate

/-! ## The forms of an authorisation -/

theorem User.isWhole_toJson (u : User) : u.toJson.isWhole := by
  simp [toJson, UserId.toJson, SortedSet.toJson, Json.isWhole, Json.haveWhole,
    Json.areWhole_strings]

theorem Context.isWhole_toJson (c : Context) : c.toJson.isWhole := Json.haveWhole_strings _

theorem RuleSet.isWhole_toJson {kind : RuleKind} (s : Option (RuleSet kind)) :
    (Json.ofOption RuleSet.toJson s).isWhole := by
  cases s with
  | none => rfl
  | some s =>
    simp [Json.ofOption, toJson, RuleMap.toJson, Json.isWhole, Json.haveWhole,
      Json.haveWhole_strings]

theorem FlatFields.jsonField_render {α : Type} {fields : FlatFields} {name : String} {j : Json}
    {decoder : Json.Form → Option α} {a : α} (h : fields.get? name = some j.render)
    (hj : j.isWhole) (hd : decoder j.form = some a) : fields.jsonField name decoder = .ok a := by
  simp [jsonField, field, h, Json.Form.decode?_render hj, hd, bind, Except.bind, pure, Except.pure]

namespace AuthorisedRequest

theorem isWhole_toJson (a : AuthorisedRequest) : a.toJson.isWhole := by
  simp [toJson, Token.toJson, ResourceId.toJson, Json.isWhole, Json.haveWhole,
    User.isWhole_toJson, Context.isWhole_toJson, RuleSet.isWhole_toJson]

theorem ofJson_toJson (a : AuthorisedRequest) :
    recordType.ofJson (recordType.toJson a).sorted = some (a.mapRules .byId) :=
  Json.reads_reader.authorisedRequest a

theorem ofText_render (a : AuthorisedRequest) :
    recordType.ofText (recordType.toJson a).render = some a := by
  refine (Json.Form.decode?_render a.isWhole_toJson _).trans ?_
  rw [Json.Form.reads_reader.authorisedRequest, mapRules_id]

/-- The flat fields of an authorisation read back. -/
theorem ofFields_toFields (a : AuthorisedRequest) : ofFields a.toFields = .ok a := by
  have hget (name : String) : a.toFields.get? name = SortedMap.lookup name
      [("token", a.token.text), ("resource_id", a.resource.text), ("user", a.user.toJson.render),
        ("context", a.context.toJson.render),
        ("record_rules", (Json.ofOption RuleSet.toJson a.recordRules).render)] :=
    SortedMap.get?_ofList (by simp)
  have huser := FlatFields.jsonField_render (hget "user") a.user.isWhole_toJson
    (Json.Form.reads_reader.user a.user)
  have hcontext := FlatFields.jsonField_render (hget "context") a.context.isWhole_toJson
    (Json.Form.reads_reader.context a.context)
  have hrules := FlatFields.jsonField_render (hget "record_rules")
    (RuleSet.isWhole_toJson a.recordRules) (Json.Form.reads_reader.ruleSet? a.recordRules)
  have htoken : a.toFields.field "token" = .ok a.token.text := by
    rw [FlatFields.field, hget]; rfl
  have hresource : a.toFields.field "resource_id" = .ok a.resource.text := by
    rw [FlatFields.field, hget]; rfl
  simp only [ofFields, htoken, hresource, huser, hcontext, hrules, bind, Except.bind, pure,
    Except.pure]
  cases a
  simp

end AuthorisedRequest

namespace Store

/-- What a store makes of the rules of an authorisation. -/
def arrange : Store → RuleMap → RuleMap
  | memory _ => .byId
  | _ => id

/-- A store gives an authorisation back with its rules arranged its own way. -/
theorem readBack_authorised (s : Store) (a : AuthorisedRequest) :
    s.readBack AuthorisedRequest.recordType a = some (a.mapRules s.arrange) := by
  cases s with
  | memory => exact a.ofJson_toJson
  | timed =>
    refine (congrArg Except.toOption a.ofFields_toFields).trans ?_
    exact congrArg some a.mapRules_id.symm
  | table => exact a.ofText_render.trans (congrArg some a.mapRules_id.symm)

theorem arrange_put {α : Type} {type : RecordType α} {s s' : Store} {now : Instant} {key : String}
    {r : α} {ttl : Option Duration} (hp : s.put type now key r ttl = .ok s') :
    s'.arrange = s.arrange := by
  cases written_of_put hp <;> rfl

@[simp] theorem arrange_advance (s : Store) (now : Instant) (elapsed : Duration) :
    (s.advance now elapsed).arrange = s.arrange := by
  cases s <;> rfl

end Store

/-! ## Keys -/

/-- Two texts joined by a mark can be told apart unless the mark stands in one of the first. -/
theorem Text.append_cons_eq {sep : Char} {a b a' b' : List Char}
    (h : a ++ sep :: b = a' ++ sep :: b') : a = a' ∧ b = b' ∨
      (∃ part, a' = a ++ sep :: part ∧ b = part ++ sep :: b') ∨
      ∃ part, a = a' ++ sep :: part ∧ b' = part ++ sep :: b := by
  rcases List.append_eq_append_iff.1 h with ⟨part, ha, hb⟩ | ⟨part, ha, hb⟩
  · cases part with
    | nil =>
      rw [List.append_nil] at ha
      exact .inl ⟨ha.symm, (List.cons.inj hb).2⟩
    | cons c part =>
      obtain ⟨rfl, htail⟩ := List.cons.inj hb
      exact .inr (.inl ⟨part, ha, htail⟩)
  · cases part with
    | nil =>
      rw [List.append_nil] at ha
      exact .inl ⟨ha, (List.cons.inj hb).2.symm⟩
    | cons c part =>
      obtain ⟨rfl, htail⟩ := List.cons.inj hb
      exact .inr (.inr ⟨part, ha, htail⟩)

namespace AuthorisedRequest

variable {token token' : Token} {resource resource' : ResourceId}

/-- A part of the resource of the first pair stands at the end of the token of the second. -/
def Shifted (token : Token) (resource : ResourceId) (token' : Token) (resource' : ResourceId) :
    Prop :=
  ∃ part, token'.text = token.text ++ ":" ++ part ∧ resource.text = part ++ ":" ++ resource'.text

theorem Shifted.colon_mem (h : Shifted token resource token' resource') :
    ':' ∈ token'.text.toList := by
  obtain ⟨part, ht, -⟩ := h
  simp [ht]

theorem Shifted.key_eq (h : Shifted token resource token' resource') :
    key token resource = key token' resource' := by
  obtain ⟨part, ht, hr⟩ := h
  simp only [key, ht, hr, String.append_assoc]

theorem Shifted.of_toList {part : List Char}
    (ht : token'.text.toList = token.text.toList ++ ':' :: part)
    (hr : resource.text.toList = part ++ ':' :: resource'.text.toList) :
    Shifted token resource token' resource' := by
  refine ⟨String.ofList part, ?_, ?_⟩ <;> apply String.toList_injective
  · simpa using ht
  · simpa using hr

/-- One of two pairs is the other with a part of the resource gone over to the token. -/
def Confused (token : Token) (resource : ResourceId) (token' : Token) (resource' : ResourceId) :
    Prop :=
  Shifted token resource token' resource' ∨ Shifted token' resource' token resource

theorem Confused.colon_mem (h : Confused token resource token' resource') :
    ':' ∈ token.text.toList ∨ ':' ∈ token'.text.toList :=
  h.elim (fun h => .inr h.colon_mem) fun h => .inl h.colon_mem

/-- The key tells two pairs apart unless they are confused. -/
theorem key_eq_iff : key token resource = key token' resource' ↔
    token = token' ∧ resource = resource' ∨ Confused token resource token' resource' := by
  constructor
  · intro h
    have hl : token.text.toList ++ ':' :: resource.text.toList =
        token'.text.toList ++ ':' :: resource'.text.toList := by
      simpa [key] using congrArg String.toList h
    rcases Text.append_cons_eq hl with ⟨ht, hr⟩ | ⟨part, ht, hr⟩ | ⟨part, ht, hr⟩
    · left
      cases token; cases token'; cases resource; cases resource'
      exact ⟨congrArg _ (String.toList_injective ht), congrArg _ (String.toList_injective hr)⟩
    · exact .inr (.inl (.of_toList ht hr))
    · exact .inr (.inr (.of_toList ht hr))
  · rintro (⟨rfl, rfl⟩ | h | h)
    · rfl
    · exact h.key_eq
    · exact h.key_eq.symm

end AuthorisedRequest

/-! ## Fresh tokens -/

namespace Token

theorem colon_not_mem_octetDigits (octet : UInt8) : ':' ∉ octetDigits octet := by
  have h : ∀ n < 256, ':' ∉ octetDigits (UInt8.ofNat n) := by decide +kernel
  simpa using h octet.toNat octet.toNat_lt

theorem mem_of_mem_pieces {sizes : List Nat} {cs : List Char} {c : Char} {piece : String}
    (hp : piece ∈ pieces sizes cs) (hc : c ∈ piece.toList) : c ∈ cs := by
  induction sizes generalizing cs with
  | nil => cases hp
  | cons size sizes ih =>
    rcases List.mem_cons.1 hp with rfl | hp
    · rw [String.toList_ofList] at hc
      exact List.mem_of_mem_take hc
    · exact List.mem_of_mem_drop (ih hp)

theorem mem_of_mem_intercalate {sep : List Char} {parts : List (List Char)} {c : Char}
    (h : c ∈ sep.intercalate parts) : c ∈ sep ∨ ∃ part ∈ parts, c ∈ part := by
  induction parts with
  | nil => simp [List.intercalate] at h
  | cons part rest ih =>
    cases rest with
    | nil => exact .inr ⟨part, List.mem_cons_self, by simpa [List.intercalate] using h⟩
    | cons next rest =>
      simp only [List.intercalate, List.intersperse, List.flatten_cons, List.mem_append] at h
      rcases h with h | h | h
      · exact .inr ⟨part, List.mem_cons_self, h⟩
      · exact .inl h
      · refine (ih h).imp_right fun ⟨part, hp, hc⟩ => ⟨part, List.mem_cons_of_mem _ hp, hc⟩

/-- A fresh token has no colon. -/
theorem colon_not_mem_ofOctets (octets : List UInt8) : ':' ∉ (ofOctets octets).text.toList := by
  intro h
  rw [ofOctets, String.toList_intercalate] at h
  rcases mem_of_mem_intercalate h with h | ⟨part, hp, hc⟩
  · revert h
    decide
  · obtain ⟨piece, hpiece, rfl⟩ := List.mem_map.1 hp
    obtain ⟨octet, -, hdigit⟩ := List.mem_flatMap.1 (mem_of_mem_pieces hpiece hc)
    exact colon_not_mem_octetDigits octet hdigit

end Token

/-- The pairs of fresh tokens are told apart by their keys. -/
theorem AuthorisedRequest.key_ofOctets_inj {octets octets' : List UInt8}
    {resource resource' : ResourceId}
    (h : key (.ofOctets octets) resource = key (.ofOctets octets') resource') :
    Token.ofOctets octets = Token.ofOctets octets' ∧ resource = resource' := by
  rcases key_eq_iff.1 h with h | h
  · exact h
  · rcases h.colon_mem with h | h
    · exact absurd h (Token.colon_not_mem_ofOctets octets)
    · exact absurd h (Token.colon_not_mem_ofOctets octets')

end PolicyGate
