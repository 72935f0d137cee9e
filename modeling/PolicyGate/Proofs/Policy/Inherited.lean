import PolicyGate.Proofs.Resource.Chain
import PolicyGate.Proofs.Rule.Hierarchy

/-!
What a resource inherits. The chain of an id above a resource starts the chain of the resource, so
the rules in force there are inherited as a whole. Main statement: they come first, in their order,
and the sets declared further down are merged into them (`inherited_along_chain`).
-/

namespace PolicyGate

namespace RuleSet

variable {kind : RuleKind}

/-- What the rules in force at a level become under the sets declared further down. -/
structure Inherits (inherited : RuleSet kind) (lower : List (RuleSet kind))
    (inForce : RuleSet kind) : Prop where
  unchanged : lower = [] → inForce = inherited
  merged : ∀ below, mergeHierarchy lower = some below → inForce = inherited.merge below
  first : inherited.rules.ids <+: inForce.rules.ids
  takesPart : inherited.TakesPart lower inForce

theorem ids_prefix_foldl (inherited : RuleSet kind) (lower : List (RuleSet kind)) :
    inherited.rules.ids <+: (lower.foldl merge inherited).rules.ids := by
  induction lower generalizing inherited with
  | nil => exact List.prefix_rfl
  | cons level rest ih => exact (ids_prefix_merge inherited level).trans (ih _)

/-- Merging lower sets keeps what a set hands down. -/
theorem inherits_foldl (inherited : RuleSet kind) (lower : List (RuleSet kind)) :
    inherited.Inherits lower (lower.foldl merge inherited) where
  unchanged := by rintro rfl; rfl
  merged := by
    intro below h
    cases lower with
    | nil => cases h
    | cons level rest =>
      cases h
      rw [List.foldl_cons, foldl_merge]
  first := ids_prefix_foldl inherited lower
  takesPart := ⟨fun _ hid => mem_ids_foldl lower hid, fun _ _ hno => get?_foldl hno⟩

end RuleSet

namespace Declarations

variable {kind : RuleKind} {declared : Declarations kind} {x a : ResourceId}
  {above below : List ResourceId}

/-- The rule sets declared for some ids. -/
def along (declared : Declarations kind) (ids : List ResourceId) : List (RuleSet kind) :=
  ids.filterMap fun node => declared.get? node.text

theorem levels_of_split (h : x.ancestors = above ++ a :: below) :
    declared.levels x = declared.levels a ++ declared.along below := by
  rw [levels, levels, ResourceId.ancestors_of_split h, h, along, ← List.filterMap_append,
    List.append_assoc, List.singleton_append]

theorem lookup_of_split (h : x.ancestors = above ++ a :: below) :
    declared.lookup x =
      (declared.lookup a).merge RuleSet.merge (RuleSet.mergeHierarchy (declared.along below)) := by
  rw [lookup, lookup, levels_of_split h, RuleSet.mergeHierarchy_append]

/-- The rules in force below a node inherit those in force at the node. -/
theorem inherits_of_split (h : x.ancestors = above ++ a :: below) {inherited : RuleSet kind}
    (ha : declared.lookup a = some inherited) : ∃ inForce,
      declared.lookup x = some inForce ∧ inherited.Inherits (declared.along below) inForce := by
  refine ⟨_, ?_, RuleSet.inherits_foldl inherited (declared.along below)⟩
  rw [lookup] at ha ⊢
  rw [levels_of_split h]
  cases hl : declared.levels a with
  | nil => rw [hl] at ha; cases ha
  | cons level rest =>
    rw [hl] at ha
    cases ha
    exact congrArg some List.foldl_append

end Declarations

namespace PolicyService

/-- The rule sets of one kind that a service has. -/
def declarations (s : PolicyService) (kind : RuleKind) : Declarations kind :=
  match s, kind with
  | .declared _ table, .resource => table.resource
  | .declared _ table, .record => table.record
  | .silent, _ => ∅

/-- The rules of one kind that are in force for a resource. -/
def rules? (s : PolicyService) : (kind : RuleKind) → ResourceId → Option (RuleSet kind)
  | .resource, id => s.resourceRules? id
  | .record, id => s.recordRules? id

theorem rules?_eq_lookup (s : PolicyService) (kind : RuleKind) (id : ResourceId) :
    s.rules? kind id = (s.declarations kind).lookup id := by
  have hsilent : ∀ kind, (∅ : Declarations kind).lookup id = none :=
    fun _ => Declarations.lookup_eq_none_iff.2 fun _ _ => rfl
  cases s with
  | declared => cases kind <;> rfl
  | silent => cases kind <;> exact (hsilent _).symm

/-- The rules in force for an id on the chain of a resource are those in force for the resource up
to there: the sets declared further down are merged into them, behind their ids, and without rules
up to there only these sets count. No set on the chain is dropped. -/
theorem inherited_along_chain (s : PolicyService) (kind : RuleKind) {x a : ResourceId}
    {above below : List ResourceId} (h : x.ancestors = above ++ a :: below) :
    a.ancestors = above ++ [a] ∧
    (∀ inherited, s.rules? kind a = some inherited → ∃ inForce, s.rules? kind x = some inForce ∧
      inherited.Inherits ((s.declarations kind).along below) inForce) ∧
    (s.rules? kind a = none →
      s.rules? kind x = RuleSet.mergeHierarchy ((s.declarations kind).along below)) ∧
    ∀ node ∈ x.ancestors, (s.declarations kind).Reaches node x (s.rules? kind x) := by
  simp only [rules?_eq_lookup]
  refine ⟨ResourceId.ancestors_of_split h, fun inherited ha => ?_, fun ha => ?_, fun node hn => ?_⟩
  · exact Declarations.inherits_of_split h ha
  · rw [Declarations.lookup_of_split h, ha]
    cases RuleSet.mergeHierarchy ((s.declarations kind).along below) <;> rfl
  · exact Declarations.reaches_of_mem hn

/-- A folder locks its resources without a message, and one of them, under an odd spelling, opens
its lock and adds a rule of its own. -/
def lockedFolder : PolicyTable :=
  ⟨((∅ : Declarations .resource).declare ⟨"s3:b/"⟩
    ⟨"no rules set", .ofList [("lock", "deny_all")]⟩).declare ⟨"s3:b//x"⟩
    ⟨"open", .ofList [("note", "pass_through"), ("lock", "pass_through")]⟩, ∅⟩

/-- The lock is inherited through the plain spelling, under which nothing is declared. It stays
first, with its new name. -/
theorem inherited_along_chain_odd_spelling : ∃ inForce,
    (PolicyService.declared .builtins lockedFolder).rules? .resource ⟨"s3:b//x"⟩ = some inForce ∧
    inForce.message = "open" ∧ ["lock"] <+: inForce.rules.ids ∧
    inForce.rules.get? "lock" = some "pass_through" := by
  have hsplit : (⟨"s3:b//x"⟩ : ResourceId).ancestors =
      [⟨"s3:b/"⟩] ++ ⟨"s3:b/x"⟩ :: [⟨"s3:b//x"⟩] := by decide
  have hfolder : (PolicyService.declared .builtins lockedFolder).rules? .resource ⟨"s3:b/x"⟩ =
      some ⟨"no rules set", .ofList [("lock", "deny_all")]⟩ := by decide
  have hbelow : RuleSet.mergeHierarchy
      (((PolicyService.declared .builtins lockedFolder).declarations .resource).along
        [⟨"s3:b//x"⟩]) =
      some ⟨"open", .ofList [("note", "pass_through"), ("lock", "pass_through")]⟩ := by decide
  obtain ⟨-, hinherits, -, -⟩ :=
    inherited_along_chain (.declared .builtins lockedFolder) .resource hsplit
  obtain ⟨inForce, hx, hi⟩ := hinherits _ hfolder
  have hmerged := hi.merged _ hbelow
  exact ⟨inForce, hx, by rw [hmerged]; decide, hi.first, by rw [hmerged]; decide⟩

end PolicyService

end PolicyGate
