import PolicyGate.Proofs.Json.Formed
import PolicyGate.Proofs.Rule.Merge
import PolicyGate.Proofs.Sorted.Map
import PolicyGate.Stage.Request

/-!
Reading back what was written. A reader reads the documents of a format if it finds in each of them
what the JSON value says that the document stands for; the rules of a map may come in an order of
the format's own. Main statements: whoever reads a format is told just what was written of a user,
a context and an authorisation, with its rules in the order of the format
(`Reads.authorisedRequest`). JSON text keeps every order (`Form.reads_reader`), and JSON values with
their members ordered by key bring the rules into the order of their ids (`reads_reader`).
-/

namespace PolicyGate

/-- The parts of a structure are found by their names. -/
theorem Wire.fieldsOfEntries_of_nodup {D : Type} (names : List String) {entries : List (String × D)}
    (h : (entries.map Prod.fst).Nodup) : fieldsOfEntries names entries =
      some ⟨names.map fun name => SortedMap.lookup name entries, false⟩ := by
  have hn : ((entries.filter fun entry => names.contains entry.1).map Prod.fst).Nodup :=
    h.sublist (List.filter_sublist.map Prod.fst)
  simp only [fieldsOfEntries, hn, if_true, Option.some.injEq, Fields.mk.injEq, and_true]
  refine List.map_congr_left fun name hm => ?_
  rw [SortedMap.lookup, List.find?_filter]
  congr 2
  funext entry
  by_cases he : entry.1 = name
  · simp [he, hm]
  · simp [he]

/-! ## Rules in the order of their ids -/

namespace RuleMap

variable {m : RuleMap}

/-- The same rules in the order of their ids. -/
def byId (m : RuleMap) : RuleMap :=
  ⟨(SortedMap.ofList m.entries).entries, (SortedMap.ofList m.entries).nodup_keys⟩

theorem get?_byId (m : RuleMap) (id : String) : m.byId.get? id = m.get? id :=
  SortedMap.get?_ofList m.distinct

/-- Only rules that stand in the order of their ids come back as they were. -/
theorem byId_eq_self_iff : m.byId = m ↔ m.entries.Pairwise fun a b => a.1 < b.1 :=
  ⟨fun h => h ▸ (SortedMap.ofList m.entries).ordered, fun h => ext (SortedMap.entries_ofList h)⟩

end RuleMap

namespace AuthorisedRequest

/-- The authorisation with another map of rules. -/
def mapRules (f : RuleMap → RuleMap) (a : AuthorisedRequest) : AuthorisedRequest :=
  { a with recordRules := a.recordRules.map fun set => { set with rules := f set.rules } }

@[simp] theorem mapRules_id (a : AuthorisedRequest) : a.mapRules id = a := by
  cases a
  simp [mapRules]

end AuthorisedRequest

namespace Json

/-- A reader finds in the documents of a format what is said by the JSON values that they stand for;
the format may arrange the rules of a map anew. -/
structure Reads {D : Type} (r : Wire.Reader Option D) (document : Json → D)
    (arrange : RuleMap → RuleMap) : Prop where
  text : ∀ s, r.text (document (.string s)) = some s
  list : ∀ items, r.list (document (.array items)) = some (items.map document)
  parts : ∀ names members, (members.map Prod.fst).Nodup →
    r.fields names (document (.object members)) =
      some ⟨names.map fun name => (SortedMap.lookup name members).map document, false⟩
  texts : ∀ m, r.mapEntries r.text (document (.ofTexts m)) = some m.entries
  rules : ∀ m : RuleMap, r.mapEntries r.text (document m.toJson) = some (arrange m).entries
  absent : r.present (document .null) = some none
  present : ∀ members, r.present (document (.object members)) =
    some (some (document (.object members)))

/-- The entries of an object of texts. -/
theorem mapEntries_text {D : Type} {r : Wire.Reader Option D} (document : Json → D) {d : D}
    {entries : List (String × String)} (ht : ∀ s, r.text (document (.string s)) = some s)
    (he : r.entries d = some (entries.map fun e => (e.1, document (.string e.2)))) :
    r.mapEntries r.text d = some entries := by
  rw [Wire.Reader.mapEntries, he]
  clear he
  induction entries with
  | nil => rfl
  | cons e rest ih =>
    simp only [Option.bind_eq_bind, Option.bind_some] at ih ⊢
    rw [List.map_cons, List.mapM_cons, ih, ht]
    rfl

/-- An object of texts is read entry by entry, also where a key comes again. -/
theorem Form.mapEntries_form_texts (entries : List (String × String)) :
    Form.reader.mapEntries Form.reader.text
      (form (.object (entries.map fun e => (e.1, .string e.2)))) = some entries :=
  mapEntries_text form text_form_string <|
    (members?_form_object _).trans (by rw [List.map_map]; rfl)

/-- JSON text keeps every order. -/
theorem Form.reads_reader : Reads Form.reader form id where
  text := text_form_string
  list items := by
    simp only [reader, form, Option.some.injEq]
    induction items with
    | nil => rfl
    | cons item rest ih => rw [itemForms, ih, List.map_cons]
  parts names members h := by
    rw [fields_form_object, Wire.fieldsOfEntries_of_nodup]
    · simp only [SortedMap.lookup_map form]
    · simpa [Function.comp_def] using h
  texts m := mapEntries_form_texts m.entries
  rules m := mapEntries_form_texts m.entries
  absent := rfl
  present _ := rfl

/-! ## Values whose members are ordered by key -/

theorem sorted_object {members : List (String × Json)} :
    sorted (.object members) =
      .object (SortedMap.ofList (members.map fun e => (e.1, e.2.sorted))).entries := by
  rw [sorted, sortedMembers_eq_map]
  rfl

/-- Ordering an object of texts orders its entries. -/
theorem sorted_object_texts {entries : List (String × String)} (h : (entries.map Prod.fst).Nodup) :
    sorted (.object (entries.map fun e => (e.1, .string e.2))) =
      .object ((SortedMap.ofList entries).entries.map fun e => (e.1, .string e.2)) := by
  rw [sorted_object, List.map_map, ← SortedMap.entries_mapValues, ← SortedMap.ofList_map _ h]
  rfl

theorem sorted_ofTexts (m : SortedMap String) : sorted (.ofTexts m) = .ofTexts m := by
  rw [ofTexts, SortedMap.toList, sorted_object_texts m.nodup_keys, SortedMap.ofList_entries]

theorem sorted_ruleMap (m : RuleMap) : m.toJson.sorted = m.byId.toJson :=
  sorted_object_texts m.distinct

/-- Values that are ordered by key bring the rules into the order of their ids. -/
theorem reads_reader : Reads reader sorted RuleMap.byId where
  text _ := rfl
  list items := by rw [sorted, sortedItems_eq_map]; rfl
  parts names members h := by
    have hk : ((members.map fun e => (e.1, e.2.sorted)).map Prod.fst).Nodup := by
      simpa [Function.comp_def] using h
    rw [sorted_object]
    refine (Wire.fieldsOfEntries_of_nodup names (SortedMap.nodup_keys _)).trans ?_
    congr 3
    funext name
    exact (SortedMap.get?_ofList hk).trans (SortedMap.lookup_map _ _ _)
  texts m := by
    rw [sorted_ofTexts]
    exact mapEntries_text id (fun _ => rfl) rfl
  rules m := by
    rw [sorted_ruleMap]
    exact mapEntries_text id (fun _ => rfl) rfl
  absent := rfl
  present members := by rw [sorted_object]; rfl

/-! ## What a reader is told -/

namespace Reads

variable {D : Type} {r : Wire.Reader Option D} {document : Json → D} {arrange : RuleMap → RuleMap}

theorem token (R : Reads r document arrange) (t : PolicyGate.Token) :
    PolicyGate.Token.decode r (document t.toJson) = some t := by
  simp [PolicyGate.Token.decode, PolicyGate.Token.toJson, R.text]

theorem userId (R : Reads r document arrange) (u : UserId) :
    UserId.decode r (document u.toJson) = some u := by
  simp [UserId.decode, UserId.toJson, R.text]

theorem resourceId (R : Reads r document arrange) (id : ResourceId) :
    ResourceId.decode r (document id.toJson) = some id := by
  simp [ResourceId.decode, ResourceId.toJson, R.text]

/-- A set of texts reads back. -/
theorem set (R : Reads r document arrange) (s : SortedSet) :
    SortedSet.decode r (document s.toJson) = some s := by
  have hm : (s.texts.map fun t => document (.string t)).mapM r.text = some s.texts := by
    induction s.texts with
    | nil => rfl
    | cons t rest ih => simp [List.mapM_cons, R.text, ih]
  have hs : SortedSet.ofTexts s.texts = s := by
    rw [SortedSet.ofTexts, SortedSet.texts, SortedMap.keys, List.map_map]
    exact (congrArg SortedMap.ofList (List.map_id _)).trans s.ofList_entries
  simp [SortedSet.decode, SortedSet.toJson, Wire.Reader.items, R.list, Function.comp_def, hm, hs]

theorem context (R : Reads r document arrange) (c : Context) :
    Context.decode r (document c.toJson) = some c := by
  simp [Context.decode, Context.toJson, SortedMap.decodeTexts, R.texts, SortedMap.ofList_entries]

theorem user (R : Reads r document arrange) (u : User) :
    User.decode r (document u.toJson) = some u := by
  rw [User.decode, User.toJson, R.parts _ _ (by simp)]
  simp [Wire.Fields.required, Wire.Fields.withDefault, Wire.Fields.at?, SortedMap.lookup,
    R.userId, R.set]

theorem ruleMap (R : Reads r document arrange) (m : RuleMap) :
    RuleMap.decode r (document m.toJson) = some (arrange m) := by
  simp [RuleMap.decode, R.rules, RuleMap.ofList_entries]

theorem ruleSet {kind : RuleKind} (R : Reads r document arrange) (s : RuleSet kind) :
    (RuleSet.decode r (document s.toJson) : Option (RuleSet kind)) =
      some { s with rules := arrange s.rules } := by
  rw [RuleSet.decode, RuleSet.toJson, R.parts _ _ (by simp)]
  simp [Wire.Fields.withDefault, Wire.Fields.at?, SortedMap.lookup, R.text, R.ruleMap]

/-- Rules that may be missing. -/
theorem ruleSet? {kind : RuleKind} (R : Reads r document arrange) (s : Option (RuleSet kind)) :
    (r.optional (RuleSet.decode r) (document (.ofOption RuleSet.toJson s)) :
      Option (Option (RuleSet kind))) =
        some (s.map fun s => { s with rules := arrange s.rules }) := by
  cases s with
  | none => simp [Json.ofOption, Wire.Reader.optional, R.absent]
  | some s =>
    have hp := R.ruleSet s
    simp only [RuleSet.toJson] at hp
    simp [Json.ofOption, Wire.Reader.optional, RuleSet.toJson, R.present, hp]

theorem authorisedRequest (R : Reads r document arrange) (a : AuthorisedRequest) :
    AuthorisedRequest.decode r (document a.toJson) = some (a.mapRules arrange) := by
  rw [AuthorisedRequest.decode, AuthorisedRequest.toJson, R.parts _ _ (by simp)]
  simp [Wire.Fields.required, Wire.Fields.omissible, Wire.Fields.at?, SortedMap.lookup,
    R.token, R.resourceId, R.user, R.context, R.ruleSet?, AuthorisedRequest.mapRules]

end Reads

end Json

end PolicyGate
