import PolicyGate.Resource.Id
import PolicyGate.Rule.Set
import PolicyGate.Sorted.Map

/-!
Policy tables: the rule sets declared for the nodes of the resource hierarchy. A look-up merges the
sets along the chain of a resource, from the root down. Main statements: a look-up finds nothing
exactly if no node of the chain declares rules, and a declaration reaches only chains that it is on.
-/

namespace PolicyGate

/-- The rule sets of one kind, by the text of the resource id that declares them. -/
abbrev Declarations (kind : RuleKind) := SortedMap (RuleSet kind)

namespace Declarations

variable {kind : RuleKind}

/-- The rule sets on the chain of a resource, from the root down. -/
def levels (d : Declarations kind) (id : ResourceId) : List (RuleSet kind) :=
  id.ancestors.filterMap fun ancestor => d.get? ancestor.text

/-- The rules in force for a resource. -/
def lookup (d : Declarations kind) (id : ResourceId) : Option (RuleSet kind) :=
  RuleSet.mergeHierarchy (d.levels id)

/-- Declares the rules of a node, in place of those it had. -/
def declare (d : Declarations kind) (id : ResourceId) (rules : RuleSet kind) : Declarations kind :=
  d.insert id.text rules

theorem lookup_eq_none_iff {d : Declarations kind} {id : ResourceId} :
    d.lookup id = none ↔ ∀ ancestor ∈ id.ancestors, d.get? ancestor.text = none := by
  simp [lookup, RuleSet.mergeHierarchy_eq_none_iff, levels, List.filterMap_eq_nil_iff]

/-- A declaration for a node that is not on the way to an id leaves its levels alone. -/
theorem levels_declare_of_not_mem {d : Declarations kind} {id node : ResourceId}
    (h : node ∉ id.ancestors) (rules : RuleSet kind) :
    (d.declare node rules).levels id = d.levels id := by
  unfold levels
  generalize id.ancestors = chain at h
  induction chain with
  | nil => rfl
  | cons ancestor rest ih =>
    have ne : ancestor.text ≠ node.text := fun e =>
      h (by cases ancestor; cases node; cases e; exact List.mem_cons_self)
    have same : (d.declare node rules).get? ancestor.text = d.get? ancestor.text := by
      simp [declare, SortedMap.get?_insert, ne]
    simp only [List.filterMap_cons, same, ih fun hm => h (List.mem_cons_of_mem _ hm)]

theorem lookup_declare_of_not_mem {d : Declarations kind} {id node : ResourceId}
    (h : node ∉ id.ancestors) (rules : RuleSet kind) :
    (d.declare node rules).lookup id = d.lookup id := by
  simp only [lookup, levels_declare_of_not_mem h]

end Declarations

/-- The rules declared for resources and for records. -/
structure PolicyTable where
  resource : Declarations .resource
  record : Declarations .record

namespace PolicyTable

def empty : PolicyTable := ⟨∅, ∅⟩

instance : Inhabited PolicyTable := ⟨empty⟩

end PolicyTable

end PolicyGate
