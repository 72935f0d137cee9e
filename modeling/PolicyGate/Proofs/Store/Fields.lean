import PolicyGate.Proofs.Store.Lifetime
import PolicyGate.Proofs.Wire.Messages

/-!
The flat form of records. Each field has a format of its own: a text as it is, a number in decimal,
or a JSON text in which null may stand for a missing part. Main statement: the flat form of both
kinds of records loses nothing, and reading accepts exactly the fields whose texts are in their
formats (`fields_lose_nothing`).
-/

namespace PolicyGate

theorem bind_eq_ok_iff {ε α β : Type} {x : Except ε α} {f : α → Except ε β} {b : β} :
    (x >>= f) = .ok b ↔ ∃ a, x = .ok a ∧ f a = .ok b := by
  cases x <;> simp [bind, Except.bind]

namespace FlatFields

variable {fields fields' : FlatFields} {name : String} {α : Type} {decoder : Json.Form → Option α}

theorem field_eq_ok_iff {text : String} :
    fields.field name = .ok text ↔ fields.get? name = some text := by
  unfold field
  cases fields.get? name <;> simp

theorem jsonField_eq_ok_iff {a : α} : fields.jsonField name decoder = .ok a ↔
    ∃ text, fields.get? name = some text ∧ Json.decode? decoder text = some a := by
  unfold jsonField field
  cases fields.get? name with
  | none => simp [bind, Except.bind]
  | some text =>
    cases hd : Json.decode? decoder text <;>
      simp [hd, bind, Except.bind, pure, Except.pure]

theorem field_congr (h : fields.get? name = fields'.get? name) :
    fields.field name = fields'.field name := by
  rw [field, field, h]

theorem jsonField_congr (h : fields.get? name = fields'.get? name) :
    fields.jsonField name decoder = fields'.jsonField name decoder := by
  rw [jsonField, jsonField, field_congr h]

end FlatFields

/-! ## Formats -/

/-- A JSON text says what a part is that may be missing; the missing part is null. -/
def Json.SaysOptional {β : Type} (decoder : Form → Option β) (text : String) : Option β → Prop
  | none => Form.parse text = some .null
  | some b => decode? decoder text = some b

theorem Json.Form.isNull_iff {form : Form} : form.isNull = true ↔ form = .null := by
  cases form <;> simp [isNull]

theorem Json.Form.optional_reader {β : Type} (decoder : Form → Option β) (form : Form) :
    reader.optional decoder form =
      if form.isNull then some none else (decoder form).map some := by
  simp only [Wire.Reader.optional, reader]
  split
  · rfl
  · change ((decoder form).bind fun b => some (some b)) = _
    cases decoder form <;> rfl

theorem Json.decode?_optional_eq_some_iff {β : Type} {decoder : Form → Option β} {text : String}
    {part : Option β} (hnull : decoder .null = none) :
    decode? (Form.reader.optional decoder) text = some part ↔ SaysOptional decoder text part := by
  unfold decode?
  cases hparse : Form.parse text with
  | none => cases part <;> simp [SaysOptional, decode?, hparse]
  | some form =>
    rw [Option.bind_some, Form.optional_reader]
    split
    · next hform =>
      cases Form.isNull_iff.1 hform
      cases part <;> simp [SaysOptional, decode?, hparse, hnull]
    · next hform =>
      rw [Form.isNull_iff] at hform
      cases part <;> simp [SaysOptional, decode?, hparse, hform]

/-- A field of a kind of records: its name, and when a text says what a record has there. -/
structure FieldFormat (α : Type) where
  name : String
  Says : String → α → Prop

namespace FieldFormat

variable {α β : Type}

/-- A part that is a text stands there as it is. -/
def verbatim (name : String) (part : α → String) : FieldFormat α where
  name := name
  Says text r := text = part r

/-- A number of 64 bits stands there in decimal. -/
def decimal (name : String) (part : α → Int) : FieldFormat α where
  name := name
  Says text r := Int64Text.Spells text (part r)

/-- A part stands there as JSON. -/
def json (name : String) (decoder : Json.Form → Option β) (part : α → β) : FieldFormat α where
  name := name
  Says text r := Json.decode? decoder text = some (part r)

/-- A part that may be missing stands there as JSON. -/
def optionalJson (name : String) (decoder : Json.Form → Option β) (part : α → Option β) :
    FieldFormat α where
  name := name
  Says text r := Json.SaysOptional decoder text (part r)

/-- The field is there and says what the record has there. -/
def Reads (φ : FieldFormat α) (fields : FlatFields) (r : α) : Prop :=
  ∃ text, fields.get? φ.name = some text ∧ φ.Says text r

end FieldFormat

def TokenOffset.formats : List (FieldFormat TokenOffset) :=
  [.verbatim "token" fun o => o.token.text, .decimal "offset" fun o => o.offset]

def AuthorisedRequest.formats : List (FieldFormat AuthorisedRequest) :=
  [.verbatim "token" fun a => a.token.text, .verbatim "resource_id" fun a => a.resource.text,
    .json "user" (User.decode Json.Form.reader) fun a => a.user,
    .json "context" (Context.decode Json.Form.reader) fun a => a.context,
    .optionalJson "record_rules" (RuleSet.decode Json.Form.reader) fun a => a.recordRules]

/-! ## Reading -/

/-- The flat form of a kind of records with its formats: every record of the kind is read back from
its own fields, and fields are read exactly if all are there with texts in their formats. What is
read can be written and read again, and it depends on the fields of the kind alone. -/
structure RecordType.LosesNothing {α : Type} (type : RecordType α) (formats : List (FieldFormat α))
    (Valid : α → Prop) : Prop where
  read_back : ∀ r, Valid r → type.ofFields (type.toFields r) = .ok r
  reads : ∀ fields r, type.ofFields fields = .ok r ↔ ∀ φ ∈ formats, φ.Reads fields r
  succeeds : ∀ fields, (∃ r, type.ofFields fields = .ok r) ↔
    ∀ φ ∈ formats, ∃ r, φ.Reads fields r
  settled : ∀ fields r, type.ofFields fields = .ok r →
    Valid r ∧ type.ofFields (type.toFields r) = .ok r
  named : ∀ fields fields', (∀ φ ∈ formats, fields.get? φ.name = fields'.get? φ.name) →
    type.ofFields fields = type.ofFields fields'

namespace TokenOffset

variable {fields fields' : FlatFields} {o : TokenOffset}

/-- The fields that are accepted as a token offset. -/
theorem ofFields_eq_ok_iff : ofFields fields = .ok o ↔ fields.get? "token" = some o.token.text ∧
    ∃ text, fields.get? "offset" = some text ∧ Int64Text.Spells text o.offset := by
  simp only [ofFields, bind_eq_ok_iff, FlatFields.field_eq_ok_iff, ← Int64Text.parse_eq_ok_iff]
  constructor
  · rintro ⟨token, htoken, text, htext, h⟩
    split at h
    · next n hn =>
      cases h
      exact ⟨htoken, text, htext, hn⟩
    · cases h
  · rintro ⟨htoken, text, htext, hn⟩
    exact ⟨_, htoken, text, htext, by rw [hn]; rfl⟩

theorem forall_formats {P : FieldFormat TokenOffset → Prop} : (∀ φ ∈ formats, P φ) ↔
    P (.verbatim "token" fun o => o.token.text) ∧ P (.decimal "offset" fun o => o.offset) := by
  simp [formats]

theorem ofFields_congr (htoken : fields.get? "token" = fields'.get? "token")
    (hoffset : fields.get? "offset" = fields'.get? "offset") :
    ofFields fields = ofFields fields' := by
  rw [ofFields, ofFields, FlatFields.field_congr htoken, FlatFields.field_congr hoffset]

theorem losesNothing : recordType.LosesNothing formats IsInt64 where
  read_back _ := ofFields_of_isInt64
  reads fields o := by
    refine ofFields_eq_ok_iff.trans ?_
    simp [forall_formats, FieldFormat.Reads, FieldFormat.verbatim, FieldFormat.decimal]
  succeeds fields := by
    rw [forall_formats]
    constructor
    · rintro ⟨o, h⟩
      obtain ⟨htoken, hoffset⟩ := ofFields_eq_ok_iff.1 h
      exact ⟨⟨o, o.token.text, htoken, rfl⟩, o, hoffset⟩
    · rintro ⟨⟨-, token, htoken, -⟩, o, hoffset⟩
      exact ⟨⟨⟨token⟩, o.offset⟩, ofFields_eq_ok_iff.2 ⟨htoken, hoffset⟩⟩
  settled fields o h := by
    obtain ⟨-, text, -, hspells⟩ := ofFields_eq_ok_iff.1 h
    have ho : o.IsInt64 := hspells.bounds
    exact ⟨ho, ofFields_of_isInt64 ho⟩
  named fields fields' h := by
    obtain ⟨htoken, hoffset⟩ := forall_formats.1 h
    exact ofFields_congr htoken hoffset

/-- A sign and zeros that are never written are read, and fields of other names are passed over. -/
example : ofFields (.ofList [("token", "t"), ("offset", "+007"), ("ttl", "1")]) =
    .ok ⟨⟨"t"⟩, 7⟩ := by
  decide +kernel

end TokenOffset

namespace AuthorisedRequest

variable {fields fields' : FlatFields} {a : AuthorisedRequest}

/-- The fields that are accepted as an authorisation. -/
theorem ofFields_eq_ok_iff : ofFields fields = .ok a ↔
    fields.get? "token" = some a.token.text ∧ fields.get? "resource_id" = some a.resource.text ∧
    fields.jsonField "user" (User.decode Json.Form.reader) = .ok a.user ∧
    fields.jsonField "context" (Context.decode Json.Form.reader) = .ok a.context ∧
    fields.jsonField "record_rules" (Json.Form.reader.optional (RuleSet.decode Json.Form.reader)) =
      .ok a.recordRules := by
  simp only [ofFields, bind_eq_ok_iff, FlatFields.field_eq_ok_iff]
  constructor
  · rintro ⟨token, htoken, resource, hresource, user, huser, context, hcontext, rules, hrules, h⟩
    cases h
    exact ⟨htoken, hresource, huser, hcontext, hrules⟩
  · rintro ⟨htoken, hresource, huser, hcontext, hrules⟩
    exact ⟨_, htoken, _, hresource, _, huser, _, hcontext, _, hrules, rfl⟩

theorem forall_formats {P : FieldFormat AuthorisedRequest → Prop} : (∀ φ ∈ formats, P φ) ↔
    P (.verbatim "token" fun a => a.token.text) ∧
    P (.verbatim "resource_id" fun a => a.resource.text) ∧
    P (.json "user" (User.decode Json.Form.reader) fun a => a.user) ∧
    P (.json "context" (Context.decode Json.Form.reader) fun a => a.context) ∧
    P (.optionalJson "record_rules" (RuleSet.decode Json.Form.reader) fun a => a.recordRules) := by
  simp [formats]

theorem reads_iff : ofFields fields = .ok a ↔ ∀ φ ∈ formats, φ.Reads fields a := by
  have hnull : RuleSet.decode Json.Form.reader .null = (none : Option RecordRules) := rfl
  rw [ofFields_eq_ok_iff, forall_formats]
  simp only [FlatFields.jsonField_eq_ok_iff, FieldFormat.Reads, FieldFormat.verbatim,
    FieldFormat.json, FieldFormat.optionalJson, exists_eq_right,
    Json.decode?_optional_eq_some_iff hnull]

theorem ofFields_congr (htoken : fields.get? "token" = fields'.get? "token")
    (hresource : fields.get? "resource_id" = fields'.get? "resource_id")
    (huser : fields.get? "user" = fields'.get? "user")
    (hcontext : fields.get? "context" = fields'.get? "context")
    (hrules : fields.get? "record_rules" = fields'.get? "record_rules") :
    ofFields fields = ofFields fields' := by
  rw [ofFields, ofFields, FlatFields.field_congr htoken, FlatFields.field_congr hresource,
    FlatFields.jsonField_congr huser, FlatFields.jsonField_congr hcontext,
    FlatFields.jsonField_congr hrules]

theorem losesNothing : recordType.LosesNothing formats fun _ => True where
  read_back a _ := a.ofFields_toFields
  reads fields a := reads_iff
  succeeds fields := by
    constructor
    · rintro ⟨a, h⟩ φ hφ
      exact ⟨a, reads_iff.1 h φ hφ⟩
    · intro h
      obtain ⟨⟨a, htoken⟩, ⟨b, hresource⟩, ⟨c, huser⟩, ⟨d, hcontext⟩, e, hrules⟩ :=
        forall_formats.1 h
      exact ⟨⟨a.token, b.resource, c.user, d.context, e.recordRules⟩,
        reads_iff.2 (forall_formats.2 ⟨htoken, hresource, huser, hcontext, hrules⟩)⟩
  settled fields a _ := ⟨trivial, a.ofFields_toFields⟩
  named fields fields' h := by
    obtain ⟨htoken, hresource, huser, hcontext, hrules⟩ := forall_formats.1 h
    exact ofFields_congr htoken hresource huser hcontext hrules

end AuthorisedRequest

/-- The flat form of token offsets, with every number of 64 bits, and the one of authorisations,
with their rules in any order, lose nothing. -/
theorem fields_lose_nothing :
    TokenOffset.recordType.LosesNothing TokenOffset.formats TokenOffset.IsInt64 ∧
    AuthorisedRequest.recordType.LosesNothing AuthorisedRequest.formats fun _ => True :=
  ⟨TokenOffset.losesNothing, AuthorisedRequest.losesNothing⟩

end PolicyGate
