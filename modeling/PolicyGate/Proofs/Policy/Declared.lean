import PolicyGate.Proofs.Policy.Inherited
import PolicyGate.Proofs.Policy.Reached

/-!
Policies as declarations, one by one. Main statements: a document is loaded as if its declarations
were made in order, and a declaration reaches the rules of its kind below its node and nothing else
(`loaded_one_by_one`). The rules in force are merged from the latest declarations on the chain of a
resource, and compile whenever there are any (`compiled_of_declared`).
-/

namespace PolicyGate

/-- What the rules of a kind are applied to. -/
abbrev RuleKind.Item : RuleKind → Type
  | .resource => Resource
  | .record => Record

/-- The registry for the rules of a kind. -/
def Catalog.registry (catalog : Catalog) : (kind : RuleKind) → Registry kind.Item
  | .resource => catalog.resource
  | .record => catalog.record

/-- A rule set for a node of the hierarchy. -/
structure Declaration where
  kind : RuleKind
  node : ResourceId
  rules : RuleSet kind

namespace Declaration

/-- The rules that a declaration has for a node. -/
def rulesAt (d : Declaration) (kind : RuleKind) (node : ResourceId) : Option (RuleSet kind) :=
  if h : d.kind = kind ∧ d.node = node then some (h.1 ▸ d.rules) else none

/-- The rules that were declared last for a node. -/
def latest (kind : RuleKind) (history : List Declaration) (node : ResourceId) :
    Option (RuleSet kind) :=
  history.reverse.findSome? fun d => d.rulesAt kind node

theorem latest_eq_none_iff {kind : RuleKind} {history : List Declaration} {node : ResourceId} :
    latest kind history node = none ↔ ∀ d ∈ history, d.kind = kind → d.node ≠ node := by
  simp [latest, rulesAt]

theorem latest_append (kind : RuleKind) (history history' : List Declaration) (node : ResourceId) :
    latest kind (history ++ history') node =
      (latest kind history' node).or (latest kind history node) := by
  rw [latest, List.reverse_append, List.findSome?_append]
  rfl

theorem latest_singleton (kind : RuleKind) (d : Declaration) (node : ResourceId) :
    latest kind [d] node = d.rulesAt kind node := by
  cases hd : d.rulesAt kind node <;> simp [latest, hd]

end Declaration

/-- The declarations of an entry, the rules for access first. -/
def PolicyEntry.declarations (entry : PolicyEntry) : List Declaration :=
  (entry.resourceRules.map fun rules => ⟨.resource, entry.resource, rules⟩).toList ++
    (entry.recordRules.map fun rules => ⟨.record, entry.resource, rules⟩).toList

/-- The declarations of all entries. -/
def PolicyDocument.declarations (document : PolicyDocument) : List Declaration :=
  document.policies.flatMap PolicyEntry.declarations

/-- Declares rules of either kind. -/
def PolicyTable.declare (table : PolicyTable) : Declaration → PolicyTable
  | ⟨.resource, node, rules⟩ => { table with resource := table.resource.declare node rules }
  | ⟨.record, node, rules⟩ => { table with record := table.record.declare node rules }

namespace PolicyService

/-- Declares rules of either kind, once they compile: the outcome, and the service after it. -/
def declare (s : PolicyService) : Declaration → Except RuleError Unit × PolicyService
  | ⟨.resource, node, rules⟩ => s.setResourceRules node rules
  | ⟨.record, node, rules⟩ => s.setRecordRules node rules

/-- What a declaration makes of a service, be it accepted or rejected. -/
def attempt (s : PolicyService) (d : Declaration) : PolicyService := (s.declare d).2

/-- What a declaration makes of a service, provided that it is accepted. -/
def accepted (s : PolicyService) (d : Declaration) : Except RuleError PolicyService :=
  (s.declare d).1.map fun _ => s.attempt d

/-- Makes declarations in order, up to the first that is rejected. -/
def declareAll (s : PolicyService) (ds : List Declaration) : Except RuleError PolicyService :=
  ds.foldlM accepted s

/-- The compiled rules of one kind that are in force for a resource. -/
def compiled (s : PolicyService) :
    (kind : RuleKind) → ResourceId → Except RuleError (CompiledRules kind.Item)
  | .resource, id => s.compiledResourceRules id
  | .record, id => s.compiledRecordRules id

/-- Two services answer alike about the rules of one kind for a resource. -/
structure Alike (s s' : PolicyService) (kind : RuleKind) (id : ResourceId) : Prop where
  rules : s.rules? kind id = s'.rules? kind id
  compiled : s.compiled kind id = s'.compiled kind id

variable {catalog : Catalog} {table : PolicyTable} {s s' : PolicyService} {d : Declaration}
  {kind : RuleKind} {id : ResourceId}

/-! ## One declaration -/

/-- A declaration compiles and is kept, or changes nothing. -/
theorem declare_declared (catalog : Catalog) (table : PolicyTable) (d : Declaration) :
    (declared catalog table).declare d = match (catalog.registry d.kind).compile d.rules with
      | .ok _ => (.ok (), .declared catalog (table.declare d))
      | .error e => (.error e, .declared catalog table) := by
  obtain ⟨kind, node, rules⟩ := d
  cases kind with
  | resource =>
    simp only [declare, setResourceRules, Catalog.registry]
    cases catalog.resource.compile rules <;> rfl
  | record =>
    simp only [declare, setRecordRules, Catalog.registry]
    cases catalog.record.compile rules <;> rfl

theorem accepted_declared (catalog : Catalog) (table : PolicyTable) (d : Declaration) :
    (declared catalog table).accepted d = ((catalog.registry d.kind).compile d.rules).map fun _ =>
      .declared catalog (table.declare d) := by
  rw [accepted, attempt, declare_declared]
  cases (catalog.registry d.kind).compile d.rules <;> rfl

theorem accepted_eq_ok_iff :
    s.accepted d = .ok s' ↔ (s.declare d).1 = .ok () ∧ s.attempt d = s' := by
  rw [accepted]
  cases (s.declare d).1 <;> simp [Except.map]

theorem accepted_eq_error_iff {e : RuleError} :
    s.accepted d = .error e ↔ (s.declare d).1 = .error e := by
  rw [accepted]
  cases (s.declare d).1 <;> simp [Except.map]

/-- An accepted declaration compiles, unless the service is silent anyway. -/
theorem attempt_of_ok (h : (s.declare d).1 = .ok ()) : s = .silent ∧ s.attempt d = .silent ∨
    ∃ catalog table, s = .declared catalog table ∧
      s.attempt d = .declared catalog (table.declare d) ∧
      ∃ compiled, (catalog.registry d.kind).compile d.rules = .ok compiled := by
  cases s with
  | silent =>
    obtain ⟨kind, node, rules⟩ := d
    cases kind <;> exact .inl ⟨rfl, rfl⟩
  | declared catalog table =>
    rw [attempt]
    rw [declare_declared] at h ⊢
    cases hc : (catalog.registry d.kind).compile d.rules with
    | error e => rw [hc] at h; cases h
    | ok compiled => exact .inr ⟨catalog, table, rfl, rfl, compiled, hc⟩

/-- A rejected declaration changes nothing. -/
theorem attempt_of_error {e : RuleError} (h : (s.declare d).1 = .error e) : s.attempt d = s := by
  obtain ⟨kind, node, rules⟩ := d
  cases kind with
  | resource => exact setResourceRules_of_error h
  | record => exact setRecordRules_of_error h

theorem declarations_declare (catalog : Catalog) (table : PolicyTable) (d : Declaration) :
    (declared catalog (table.declare d)).declarations d.kind =
      ((declared catalog table).declarations d.kind).declare d.node d.rules := by
  obtain ⟨kind, node, rules⟩ := d
  cases kind <;> rfl

theorem declarations_declare_of_ne (h : kind ≠ d.kind) :
    (declared catalog (table.declare d)).declarations kind =
      (declared catalog table).declarations kind := by
  obtain ⟨kind', node, rules⟩ := d
  cases kind <;> cases kind' <;> first | rfl | exact absurd rfl h

theorem get?_declarations_declare (catalog : Catalog) (table : PolicyTable) (d : Declaration)
    (kind : RuleKind) (node : ResourceId) :
    ((declared catalog (table.declare d)).declarations kind).get? node.text =
      (d.rulesAt kind node).or (((declared catalog table).declarations kind).get? node.text) := by
  obtain ⟨kind', node', rules⟩ := d
  by_cases hk : kind' = kind
  · subst hk
    rw [declarations_declare, Declarations.declare, SortedMap.get?_insert]
    by_cases hn : node' = node
    · subst hn
      simp [Declaration.rulesAt]
    · have hne : node.text ≠ node'.text := fun h => hn (congrArg ResourceId.mk h).symm
      simp [Declaration.rulesAt, hn, hne]
  · rw [declarations_declare_of_ne (Ne.symm hk)]
    simp [Declaration.rulesAt, hk]

/-- What is compiled are the rules in force; without any there is no policy. -/
theorem compiled_declared (catalog : Catalog) (table : PolicyTable) (kind : RuleKind)
    (id : ResourceId) : (declared catalog table).compiled kind id =
      match (declared catalog table).rules? kind id with
      | some rules => (catalog.registry kind).compile rules
      | none => .error (.noPolicy id.text) := by
  cases kind with
  | resource =>
    simp only [compiled, compiledResourceRules, rules?, resourceRules?]
    cases table.resource.lookup id <;> rfl
  | record =>
    simp only [compiled, compiledRecordRules, rules?, recordRules?]
    cases table.record.lookup id <;> rfl

theorem Alike.of_rules {table' : PolicyTable}
    (h : (declared catalog table).rules? kind id = (declared catalog table').rules? kind id) :
    (declared catalog table).Alike (declared catalog table') kind id where
  rules := h
  compiled := by rw [compiled_declared, compiled_declared, h]

theorem alike_attempt_of_ne (h : (s.declare d).1 = .ok ()) (hk : kind ≠ d.kind)
    (id : ResourceId) : (s.attempt d).Alike s kind id := by
  rcases attempt_of_ok h with ⟨rfl, ha⟩ | ⟨catalog, table, rfl, ha, -⟩ <;> rw [ha]
  · exact ⟨rfl, rfl⟩
  · apply Alike.of_rules
    rw [rules?_eq_lookup, rules?_eq_lookup, declarations_declare_of_ne hk]

/-- A declaration for a node that is not above an id leaves the id as it was. -/
theorem alike_attempt_of_not_mem (h : (s.declare d).1 = .ok ()) (hid : d.node ∉ id.ancestors)
    (kind : RuleKind) : (s.attempt d).Alike s kind id := by
  by_cases hk : kind = d.kind
  · subst hk
    rcases attempt_of_ok h with ⟨rfl, ha⟩ | ⟨catalog, table, rfl, ha, -⟩ <;> rw [ha]
    · exact ⟨rfl, rfl⟩
    · apply Alike.of_rules
      rw [rules?_eq_lookup, rules?_eq_lookup, declarations_declare]
      exact Declarations.lookup_declare_of_not_mem hid d.rules
  · exact alike_attempt_of_ne h hk id

/-! ## Many declarations -/

theorem declareAll_cons (s : PolicyService) (d : Declaration) (ds : List Declaration) :
    s.declareAll (d :: ds) = (s.accepted d).bind fun s' => s'.declareAll ds :=
  List.foldlM_cons

theorem declareAll_singleton (s : PolicyService) (d : Declaration) :
    s.declareAll [d] = s.accepted d := by
  rw [declareAll_cons]
  cases s.accepted d <;> rfl

theorem declareAll_append (s : PolicyService) (ds ds' : List Declaration) :
    s.declareAll (ds ++ ds') = (s.declareAll ds).bind fun s' => s'.declareAll ds' :=
  List.foldlM_append

/-- The first declaration that is refused gives its error. -/
theorem declareAll_eq_error {ds : List Declaration} {e : RuleError}
    (h : s.declareAll ds = .error e) : ∃ before d after s', ds = before ++ d :: after ∧
      s.declareAll before = .ok s' ∧ (s'.declare d).1 = .error e := by
  induction ds generalizing s with
  | nil => cases h
  | cons first rest ih =>
    rw [declareAll_cons] at h
    cases hf : s.accepted first with
    | error e' =>
      rw [hf] at h
      cases h
      exact ⟨[], first, rest, s, rfl, rfl, accepted_eq_error_iff.1 hf⟩
    | ok next =>
      rw [hf] at h
      obtain ⟨before, d, after, s', rfl, hs', hd⟩ := ih h
      refine ⟨first :: before, d, after, s', rfl, ?_, hd⟩
      rw [declareAll_cons, hf]
      exact hs'

theorem map_addEntry_record (catalog : Catalog) (table : PolicyTable) (node : ResourceId)
    (record : Option RecordRules) :
    (addEntry catalog table ⟨node, none, record⟩).map (declared catalog) =
      (declared catalog table).declareAll
        (record.map fun rules => ⟨.record, node, rules⟩).toList := by
  cases record with
  | none => rfl
  | some rules =>
    rw [Option.map_some, Option.toList_some, declareAll_singleton, accepted_declared]
    simp only [addEntry, Catalog.registry]
    cases catalog.record.compile rules <;> rfl

/-- An entry of a document is the declarations that it makes. -/
theorem map_addEntry (catalog : Catalog) (table : PolicyTable) (entry : PolicyEntry) :
    (addEntry catalog table entry).map (declared catalog) =
      (declared catalog table).declareAll entry.declarations := by
  obtain ⟨node, resource, record⟩ := entry
  cases resource with
  | none => exact map_addEntry_record catalog table node record
  | some rules =>
    rw [PolicyEntry.declarations, Option.map_some, Option.toList_some, List.singleton_append,
      declareAll_cons, accepted_declared]
    cases hc : catalog.resource.compile rules with
    | error e => simp [addEntry, Catalog.registry, hc, bind, Except.bind, Except.map]
    | ok compiled =>
      -- what remains is an entry without rules for access, on the table that has them
      have hrest := map_addEntry_record catalog (table.declare ⟨.resource, node, rules⟩) node record
      simp only [Catalog.registry, hc, Except.map, Except.bind]
      rw [← hrest]
      simp only [addEntry, hc, bind, Except.bind, PolicyTable.declare, Except.map, pure,
        Except.pure]

/-- A document is loaded by making its declarations in order. -/
theorem ofDocument_eq_declareAll (catalog : Catalog) (document : PolicyDocument) :
    ofDocument catalog document = (new catalog).declareAll document.declarations := by
  unfold ofDocument new PolicyDocument.declarations
  generalize PolicyTable.empty = table
  induction document.policies generalizing table with
  | nil => rfl
  | cons entry rest ih =>
    rw [List.foldlM_cons, List.flatMap_cons, declareAll_append, ← map_addEntry]
    cases addEntry catalog table entry with
    | error e => rfl
    | ok next => exact ih next

/-- After declarations that were all accepted, a node has the rules that were declared for it last.
-/
theorem get?_declareAll {ds : List Declaration}
    (h : (declared catalog table).declareAll ds = .ok s) : ∃ table', s = .declared catalog table' ∧
      ∀ kind node, (s.declarations kind).get? node.text = (Declaration.latest kind ds node).or
        (((declared catalog table).declarations kind).get? node.text) := by
  induction ds generalizing table with
  | nil =>
    cases h
    exact ⟨table, rfl, fun _ _ => rfl⟩
  | cons d rest ih =>
    rw [declareAll_cons, accepted_declared] at h
    cases hc : (catalog.registry d.kind).compile d.rules with
    | error e => rw [hc] at h; cases h
    | ok compiled =>
      rw [hc] at h
      obtain ⟨table', rfl, hget⟩ := ih h
      refine ⟨table', rfl, fun kind node => ?_⟩
      -- the first declaration counts where none of the others is for the node
      have hlatest : Declaration.latest kind (d :: rest) node =
          (Declaration.latest kind rest node).or (d.rulesAt kind node) := by
        rw [← List.singleton_append, Declaration.latest_append, Declaration.latest_singleton]
      rw [hget, get?_declarations_declare, hlatest, Option.or_assoc]

/-- A document is loaded as if its declarations were made one by one, up to the first that is
rejected. A rejected declaration changes no answer, and an accepted one changes answers about rules
of its kind below its node alone. -/
theorem loaded_one_by_one (catalog : Catalog) (document : PolicyDocument) :
    ((∃ s, ofDocument catalog document = .ok s) ↔
      ∃ s, (new catalog).declareAll document.declarations = .ok s) ∧
    (∀ s s', ofDocument catalog document = .ok s →
      (new catalog).declareAll document.declarations = .ok s' → ∀ kind id, s.Alike s' kind id) ∧
    (∀ e, ofDocument catalog document = .error e → ∃ before d after s,
      document.declarations = before ++ d :: after ∧
      (new catalog).declareAll before = .ok s ∧ (s.declare d).1 = .error e) ∧
    (∀ (s : PolicyService) (d : Declaration) (e : RuleError), (s.declare d).1 = .error e →
      ∀ kind id, (s.attempt d).Alike s kind id) ∧
    ∀ (s : PolicyService) (d : Declaration), (s.declare d).1 = .ok () →
      (∀ kind ≠ d.kind, ∀ id, (s.attempt d).Alike s kind id) ∧
      ∀ id, d.node ∉ id.ancestors → ∀ kind, (s.attempt d).Alike s kind id := by
  rw [ofDocument_eq_declareAll]
  refine ⟨.rfl, ?_, fun e => declareAll_eq_error, ?_, ?_⟩
  · intro s s' hs hs' kind id
    cases hs.symm.trans hs'
    exact ⟨rfl, rfl⟩
  · intro s d e h kind id
    rw [attempt_of_error h]
    exact ⟨rfl, rfl⟩
  · intro s d h
    exact ⟨fun kind hk id => alike_attempt_of_ne h hk id,
      fun id hid kind => alike_attempt_of_not_mem h hid kind⟩

/-- The first entry is accepted, and the second one names a rule that is not known. -/
theorem loaded_one_by_one_rejected : ∃ before d after s,
    PolicyDocument.declarations
      ⟨[⟨⟨"s3:b/"⟩, some ⟨"closed", .ofList [("lock", "deny_all")]⟩, none⟩,
        ⟨⟨"s3:b/x"⟩, none, some ⟨"open", .ofList [("lock", "unlock")]⟩⟩]⟩ = before ++ d :: after ∧
    (new .builtins).declareAll before = .ok s ∧
    (s.declare d).1 = .error (.unknownRule "unlock (rule id \x60lock\x60)") :=
  (loaded_one_by_one .builtins _).2.2.1 _ rfl

/-! ## The rules in force -/

/-- A service that comes of accepted declarations, the latest last. Rejected ones may come in
between. -/
inductive Declared (catalog : Catalog) : List Declaration → PolicyService → Prop
  | new : Declared catalog [] (.new catalog)
  | document {document s} : ofDocument catalog document = .ok s →
    Declared catalog document.declarations s
  | accept {history s d} : Declared catalog history s → (s.declare d).1 = .ok () →
    Declared catalog (history ++ [d]) (s.attempt d)
  | reject {history s d e} : Declared catalog history s → (s.declare d).1 = .error e →
    Declared catalog history (s.attempt d)

namespace Declared

variable {history : List Declaration}

theorem reached (h : Declared catalog history s) : Reached catalog s := by
  induction h with
  | new => exact .new
  | document h => exact .document h
  | @accept _ s d _ _ ih | @reject _ s d _ _ _ ih =>
    obtain ⟨kind, node, rules⟩ := d
    cases kind with
    | resource => exact .resource ih node rules
    | record => exact .record ih node rules

theorem get?_declarations (h : Declared catalog history s) : ∃ table, s = .declared catalog table ∧
    ∀ kind node, (s.declarations kind).get? node.text = Declaration.latest kind history node := by
  induction h with
  | new =>
    refine ⟨_, rfl, fun kind node => ?_⟩
    cases kind <;> rfl
  | document h =>
    rw [ofDocument_eq_declareAll] at h
    obtain ⟨table, rfl, hget⟩ := get?_declareAll h
    refine ⟨table, rfl, fun kind node => ?_⟩
    rw [hget]
    cases kind <;> exact Option.or_none
  | @accept history s d _ h ih =>
    obtain ⟨table, rfl, hold⟩ := ih
    have hone := (declareAll_singleton _ d).trans (accepted_eq_ok_iff.2 ⟨h, rfl⟩)
    obtain ⟨table', hs, hget⟩ := get?_declareAll hone
    refine ⟨table', hs, fun kind node => ?_⟩
    rw [hget, hold, Declaration.latest_append]
  | reject _ h ih =>
    rw [attempt_of_error h]
    exact ih

theorem rules?_eq (h : Declared catalog history s) (kind : RuleKind) (id : ResourceId) :
    s.rules? kind id =
      RuleSet.mergeHierarchy (id.ancestors.filterMap (Declaration.latest kind history)) := by
  obtain ⟨table, rfl, hget⟩ := h.get?_declarations
  rw [rules?_eq_lookup, Declarations.lookup, Declarations.levels]
  simp only [hget]

/-- No rules are in force just if none were declared on the way to the id. -/
theorem rules?_eq_none_iff (h : Declared catalog history s) :
    s.rules? kind id = none ↔ ∀ d ∈ history, d.kind = kind → d.node ∉ id.ancestors := by
  rw [h.rules?_eq, RuleSet.mergeHierarchy_eq_none_iff, List.filterMap_eq_nil_iff]
  simp only [Declaration.latest_eq_none_iff]
  constructor
  · intro hnone d hd hk hn
    exact hnone d.node hn d hd hk rfl
  · rintro hnone node hn d hd hk rfl
    exact hnone d hd hk hn

/-- The rules in force compile, since each set was compiled when it was declared. -/
theorem compiled_eq (h : Declared catalog history s) (kind : RuleKind) (id : ResourceId) :
    (s.rules? kind id = none ∧ s.compiled kind id = .error (.noPolicy id.text)) ∨
      ∃ set compiled, s.rules? kind id = some set ∧
        (catalog.registry kind).compile set = .ok compiled ∧ s.compiled kind id = .ok compiled := by
  obtain ⟨table, rfl, H⟩ := h.reached.resolved
  rw [compiled_declared]
  cases hr : (declared catalog table).rules? kind id with
  | none => exact .inl ⟨rfl, rfl⟩
  | some set =>
    have hcompiles : ∃ compiled, (catalog.registry kind).compile set = .ok compiled := by
      cases kind with
      | resource => exact Registry.compile_eq_ok_iff.2 (H.resource.lookup hr)
      | record => exact Registry.compile_eq_ok_iff.2 (H.record.lookup hr)
    obtain ⟨compiled, hc⟩ := hcompiles
    exact .inr ⟨set, compiled, rfl, hc, hc⟩

end Declared

/-- A request meets no mistake of the configuration. It finds no policy exactly if nothing was
accepted for the chain of its resource, and otherwise the rules merged from what was accepted there
last, with their ids in order. -/
theorem compiled_of_declared {history : List Declaration} (h : Declared catalog history s)
    (kind : RuleKind) (id : ResourceId) :
    (∀ e, s.compiled kind id = .error e → e = .noPolicy id.text ∧ e.isConfiguration = false) ∧
    (s.compiled kind id = .error (.noPolicy id.text) ↔
      ∀ d ∈ history, d.kind = kind → d.node ∉ id.ancestors) ∧
    ∀ compiled, s.compiled kind id = .ok compiled → ∃ set, s.rules? kind id = some set ∧
      RuleSet.mergeHierarchy (id.ancestors.filterMap (Declaration.latest kind history)) = some set ∧
      (catalog.registry kind).compile set = .ok compiled ∧ compiled.ids = set.rules.ids := by
  rw [← h.rules?_eq_none_iff]
  rcases h.compiled_eq kind id with ⟨hr, hc⟩ | ⟨set, compiled, hr, hset, hc⟩
  · refine ⟨fun e he => ?_, ⟨fun _ => hr, fun _ => hc⟩, fun compiled hok => ?_⟩
    · cases hc.symm.trans he
      exact ⟨rfl, rfl⟩
    · cases hc.symm.trans hok
  · refine ⟨fun e he => ?_, ⟨fun he => ?_, fun hnone => ?_⟩, fun compiled' hok => ?_⟩
    · cases hc.symm.trans he
    · cases hc.symm.trans he
    · cases hr.symm.trans hnone
    · cases hc.symm.trans hok
      refine ⟨set, hr, ?_, hset, Registry.ids_of_compile hset⟩
      rw [← h.rules?_eq, hr]

/-- A folder is locked, a set with an unknown rule is rejected further down, and another set opens
the lock there. -/
theorem compiled_of_declared_opened : ∃ history s, Declared .builtins history s ∧
    (∃ compiled, s.compiled .resource ⟨"s3:b/x"⟩ = .ok compiled ∧
      compiled.ids = ["lock", "note"]) ∧
    s.compiled .record ⟨"s3:b/x"⟩ = .error (.noPolicy "s3:b/x") := by
  have hlocked : Declared .builtins (PolicyDocument.declarations
      ⟨[⟨⟨"s3:b/"⟩, some ⟨"no rules set", .ofList [("lock", "deny_all")]⟩, none⟩]⟩) _ :=
    .document rfl
  have hrejected := hlocked.reject
    (d := ⟨.resource, ⟨"s3:b/x"⟩, ⟨"odd", .ofList [("lock", "unlock")]⟩⟩) rfl
  have hopened := hrejected.accept (d := ⟨.resource, ⟨"s3:b/x"⟩,
    ⟨"open", .ofList [("note", "pass_through"), ("lock", "pass_through")]⟩⟩) rfl
  have hresource := compiled_of_declared hopened .resource ⟨"s3:b/x"⟩
  have hrecord := compiled_of_declared hopened .record ⟨"s3:b/x"⟩
  refine ⟨_, _, hopened, ?_, hrecord.2.1.2 (by decide)⟩
  obtain ⟨herror, hnone, hok⟩ := hresource
  generalize PolicyService.compiled _ _ _ = result at herror hnone hok ⊢
  cases result with
  | error e =>
    obtain ⟨rfl, -⟩ := herror e rfl
    exact absurd (hnone.1 rfl) (by decide)
  | ok compiled =>
    obtain ⟨set, -, hset, -, hids⟩ := hok compiled rfl
    refine ⟨compiled, rfl, hids.trans ?_⟩
    have hmerged : set = ⟨"open",
        .ofList [("lock", "pass_through"), ("note", "pass_through")]⟩ :=
      Option.some.inj (hset.symm.trans (by decide))
    rw [hmerged]
    decide

end PolicyService

end PolicyGate
