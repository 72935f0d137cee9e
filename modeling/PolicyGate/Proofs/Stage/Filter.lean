import PolicyGate.Proofs.Rule.Hierarchy
import PolicyGate.Proofs.Rule.Records
import PolicyGate.Proofs.Store.Authorised
import PolicyGate.Stage.Records

/-!
Filtering records by an authorisation that a store has given back. The store may have brought the
rules into another order; built-in rules do the same in any order. Main statement: the filter keeps
of each record what the rules of the authorisation keep as it was stored (`filterRecords_arranged`).
-/

namespace PolicyGate

/-- Where the rules give a result for each record, the records that they keep are collected in
order. -/
theorem keepRecords_eq {rules : Option (CompiledRules Record)} {user : User} {context : Context}
    {kept : Record → Option Record}
    (h : ∀ record, CompiledRules.apply rules record user context = .ok (kept record))
    (records : List Record) : keepRecords rules user context records =
      .ok (records.filterMap kept) := by
  induction records with
  | nil => rfl
  | cons record rest ih =>
    rw [keepRecords, h, ih, List.filterMap_cons]
    cases kept record <;> rfl

/-- Built-in rules that were compiled give a result for every record. -/
theorem exists_kept {set : RecordRules} {compiled : CompiledRules Record}
    (h : Registry.recordBuiltins.compile set = .ok compiled) (user : User) (context : Context) :
    ∃ kept : Record → Option Record, ∀ record,
      CompiledRules.apply (some compiled) record user context = .ok (kept record) := by
  have htotal := fun record => Registry.total_recordBuiltins h record user context
  exact ⟨fun record => (htotal record).choose, fun record => (htotal record).choose_spec⟩

namespace Store

/-- A store arranges the rules of a map anew, and leaves each its name. -/
theorem get?_arrange (s : Store) (m : RuleMap) (id : String) :
    (s.arrange m).get? id = m.get? id := by
  cases s with
  | memory => exact m.get?_byId id
  | timed | table => rfl

theorem mem_names_arrange (s : Store) (set : RecordRules) (name : String) :
    name ∈ (⟨set.message, s.arrange set.rules⟩ : RecordRules).names ↔ name ∈ set.names := by
  simp only [RuleSet.names, RuleMap.mem_names_iff, get?_arrange]

end Store

variable {a : AuthorisedRequest}

/-- Without rules the records are given out as they are. -/
theorem filterRecords_arranged_none (s : Store) (h : a.recordRules = none) (catalog : Catalog)
    (key : String) (records : List Record) :
    filterRecords catalog key (.ok (some (a.mapRules s.arrange))) records = .ok records := by
  have hrules : (a.mapRules s.arrange).compileRecordRules catalog = .ok none := by
    simp [AuthorisedRequest.compileRecordRules, AuthorisedRequest.mapRules, h]
  have hkeep : ∀ user context, keepRecords none user context records = .ok records := by
    intro user context
    have hsome : ∀ record : Record,
        CompiledRules.apply none record user context = .ok (some record) :=
      fun _ => rfl
    rw [keepRecords_eq hsome, List.filterMap_some]
  simp [filterRecords, hrules, hkeep, Except.mapError]

/-- The records are given out as the rules keep them that were stored, in whatever order they come
back. -/
theorem filterRecords_arranged (s : Store) {set : RecordRules} {compiled : CompiledRules Record}
    {kept : Record → Option Record} (h : a.recordRules = some set)
    (hc : Registry.recordBuiltins.compile set = .ok compiled)
    (hkept : ∀ record, CompiledRules.apply (some compiled) record a.user a.context =
      .ok (kept record)) (key : String) (records : List Record) :
    filterRecords .builtins key (.ok (some (a.mapRules s.arrange))) records =
      .ok (records.filterMap kept) := by
  have hresolves : ∀ name ∈ (⟨set.message, s.arrange set.rules⟩ : RecordRules).names,
      Registry.recordBuiltins.Resolves name := fun name hn =>
    Registry.compile_eq_ok_iff.1 ⟨compiled, hc⟩ name ((s.mem_names_arrange set name).1 hn)
  obtain ⟨compiled', hc'⟩ := Registry.compile_eq_ok_iff.2 hresolves
  have hkept' : ∀ record, CompiledRules.apply (some compiled') record a.user a.context =
      .ok (kept record) := by
    intro record
    rw [Registry.apply_recordBuiltins_congr hc' hc (s.mem_names_arrange set) rfl, hkept]
  have hrules : (a.mapRules s.arrange).compileRecordRules .builtins = .ok (some compiled') := by
    have hbuiltins : Catalog.builtins.record.compile
        (⟨set.message, s.arrange set.rules⟩ : RecordRules) = .ok compiled' := hc'
    simp [AuthorisedRequest.compileRecordRules, AuthorisedRequest.mapRules, h, hbuiltins,
      Except.map]
  simp only [filterRecords, hrules]
  exact congrArg (Except.mapError StageError.rule) (keepRecords_eq hkept' records)

end PolicyGate
