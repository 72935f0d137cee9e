import PolicyGate.Policy.Service
import PolicyGate.Proofs.Rule.Name

/-!
The policy services that can come about: a new one, one of a document, and what declarations make of
these, be they accepted or rejected. Main statements: whatever rules such a service has in force for
a resource, they compile (`Reached.compiledResourceRules_eq`, `Reached.compiledRecordRules_eq`).
-/

namespace PolicyGate

namespace Declarations

variable {α : Type} {kind : RuleKind} {d : Declarations kind} {r : Registry α}

/-- Every declared set consists of names that resolve. -/
def Resolved (r : Registry α) (d : Declarations kind) : Prop :=
  ∀ key set, d.get? key = some set → ∀ name ∈ set.names, r.Resolves name

theorem resolved_empty : Resolved r (∅ : Declarations kind) := fun _ _ h => nomatch h

/-- A table whose sets resolve goes on to do so with one more that compiles. -/
theorem Resolved.declare (H : d.Resolved r) {set : RuleSet kind} {compiled : CompiledRules α}
    (h : r.compile set = .ok compiled) (id : ResourceId) : (d.declare id set).Resolved r := by
  intro key other ho
  rw [Declarations.declare, SortedMap.get?_insert] at ho
  split at ho
  · cases ho
    exact Registry.compile_eq_ok_iff.1 ⟨compiled, h⟩
  · exact H key other ho

/-- The names that a look-up merges resolve as well. -/
theorem Resolved.lookup (H : d.Resolved r) {id : ResourceId} {set : RuleSet kind}
    (h : d.lookup id = some set) : ∀ name ∈ set.names, r.Resolves name := by
  intro name hn
  obtain ⟨level, hl, hn⟩ := RuleSet.exists_of_mem_names h hn
  obtain ⟨ancestor, -, ha⟩ := List.mem_filterMap.1 hl
  exact H _ level ha name hn

end Declarations

/-- Both kinds of declarations consist of names that resolve. -/
structure PolicyTable.Resolved (catalog : Catalog) (table : PolicyTable) : Prop where
  resource : table.resource.Resolved catalog.resource
  record : table.record.Resolved catalog.record

namespace PolicyService

/-- A service that comes of declarations, some of which may be rejected. -/
inductive Reached (c : Catalog) : PolicyService → Prop
  | new : Reached c (.new c)
  | document {document s} : ofDocument c document = .ok s → Reached c s
  | resource {s} (h : Reached c s) (id : ResourceId) (set : ResourceRules) :
    Reached c (s.setResourceRules id set).2
  | record {s} (h : Reached c s) (id : ResourceId) (set : RecordRules) :
    Reached c (s.setRecordRules id set).2

variable {catalog : Catalog} {s : PolicyService}

/-- Both parts of an entry declare a set that compiles, or nothing. -/
theorem addEntry_eq_ok {table table' : PolicyTable} {entry : PolicyEntry}
    (h : addEntry catalog table entry = .ok table') :
    (entry.resourceRules = none ∧ table'.resource = table.resource ∨
      ∃ set compiled, entry.resourceRules = some set ∧
        catalog.resource.compile set = .ok compiled ∧
        table'.resource = table.resource.declare entry.resource set) ∧
    (entry.recordRules = none ∧ table'.record = table.record ∨
      ∃ set compiled, entry.recordRules = some set ∧
        catalog.record.compile set = .ok compiled ∧
        table'.record = table.record.declare entry.resource set) := by
  simp only [addEntry, bind, Except.bind, pure, Except.pure] at h
  split at h
  · next hn =>
    split at h
    · next hn' => cases h; exact ⟨.inl ⟨hn, rfl⟩, .inl ⟨hn', rfl⟩⟩
    · next set' hs' =>
      split at h
      · cases h
      · next compiled' hc' =>
        cases h
        exact ⟨.inl ⟨hn, rfl⟩, .inr ⟨set', compiled', hs', hc', rfl⟩⟩
  · next set hs =>
    split at h
    · cases h
    next compiled hc =>
    split at h
    · next hn' => cases h; exact ⟨.inr ⟨set, compiled, hs, hc, rfl⟩, .inl ⟨hn', rfl⟩⟩
    · next set' hs' =>
      split at h
      · cases h
      · next compiled' hc' =>
        cases h
        exact ⟨.inr ⟨set, compiled, hs, hc, rfl⟩, .inr ⟨set', compiled', hs', hc', rfl⟩⟩

theorem resolved_addEntry {table table' : PolicyTable} {entry : PolicyEntry}
    (H : table.Resolved catalog) (h : addEntry catalog table entry = .ok table') :
    table'.Resolved catalog := by
  obtain ⟨h₁, h₂⟩ := addEntry_eq_ok h
  constructor
  · rcases h₁ with ⟨-, he⟩ | ⟨_, _, -, hc, he⟩ <;> rw [he]
    · exact H.resource
    · exact H.resource.declare hc _
  · rcases h₂ with ⟨-, he⟩ | ⟨_, _, -, hc, he⟩ <;> rw [he]
    · exact H.record
    · exact H.record.declare hc _

theorem resolved_foldlM {entries : List PolicyEntry} {table table' : PolicyTable}
    (H : table.Resolved catalog) (h : entries.foldlM (addEntry catalog) table = .ok table') :
    table'.Resolved catalog := by
  induction entries generalizing table with
  | nil => cases h; exact H
  | cons entry rest ih =>
    rw [List.foldlM_cons] at h
    cases ha : addEntry catalog table entry with
    | error e => rw [ha] at h; cases h
    | ok next =>
      rw [ha] at h
      exact ih (resolved_addEntry H ha) h

/-- Whatever was declared, the sets of the table resolve. -/
theorem Reached.resolved (h : Reached catalog s) :
    ∃ table, s = .declared catalog table ∧ table.Resolved catalog := by
  induction h with
  | new => exact ⟨_, rfl, Declarations.resolved_empty, Declarations.resolved_empty⟩
  | @document document _ h =>
    unfold ofDocument at h
    cases hf : document.policies.foldlM (addEntry catalog) .empty with
    | error e => rw [hf] at h; cases h
    | ok table =>
      rw [hf] at h
      cases h
      exact ⟨table, rfl,
        resolved_foldlM ⟨Declarations.resolved_empty, Declarations.resolved_empty⟩ hf⟩
  | resource _ id set ih =>
    obtain ⟨table, rfl, H⟩ := ih
    cases hc : catalog.resource.compile set with
    | error => exact ⟨table, by rw [setResourceRules, hc], H⟩
    | ok =>
      refine ⟨{ table with resource := table.resource.declare id set }, ?_,
        H.resource.declare hc id, H.record⟩
      rw [setResourceRules, hc]
  | record _ id set ih =>
    obtain ⟨table, rfl, H⟩ := ih
    cases hc : catalog.record.compile set with
    | error => exact ⟨table, by rw [setRecordRules, hc], H⟩
    | ok =>
      refine ⟨{ table with record := table.record.declare id set }, ?_,
        H.resource, H.record.declare hc id⟩
      rw [setRecordRules, hc]

/-- The rules in force for a resource compile. -/
theorem Reached.compiledResourceRules_eq (h : Reached catalog s) {id : ResourceId}
    {set : ResourceRules} (hs : s.resourceRules? id = some set) :
    ∃ rules, catalog.resource.resolveAll set.rules.toList = .ok rules ∧
      s.compiledResourceRules id = .ok ⟨set.message, rules⟩ := by
  obtain ⟨table, rfl, H⟩ := h.resolved
  obtain ⟨rules, hr⟩ := Registry.resolveAll_eq_ok_iff.2
    (List.forall_mem_map.1 (H.resource.lookup hs))
  refine ⟨rules, hr, ?_⟩
  rw [resourceRules?] at hs
  simp [compiledResourceRules, hs, Registry.compile, hr, Except.map]

/-- The rules in force for the records of a resource compile. -/
theorem Reached.compiledRecordRules_eq (h : Reached catalog s) {id : ResourceId}
    {set : RecordRules} (hs : s.recordRules? id = some set) :
    ∃ compiled, catalog.record.compile set = .ok compiled ∧
      s.compiledRecordRules id = .ok compiled := by
  obtain ⟨table, rfl, H⟩ := h.resolved
  obtain ⟨compiled, hc⟩ := Registry.compile_eq_ok_iff.2 (H.record.lookup hs)
  rw [recordRules?] at hs
  exact ⟨compiled, hc, by simp [compiledRecordRules, hs, hc]⟩

theorem compiledResourceRules_of_none (id : ResourceId) (h : s.resourceRules? id = none) :
    s.compiledResourceRules id = .error (.noPolicy id.text) := by
  cases s with
  | declared => rw [resourceRules?] at h; simp [compiledResourceRules, h]
  | silent => rfl

end PolicyService

end PolicyGate
