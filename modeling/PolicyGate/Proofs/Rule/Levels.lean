import Mathlib.Data.List.Induction
import PolicyGate.Proofs.Rule.Hierarchy

/-!
What the merge of some levels is, said of the levels alone: their messages that say something,
joined; their rule ids, each at the place of its first declaration; and for each id the name of its
last declaration. Main statement: merging is associative, a hierarchy is the merge of its two parts
wherever it is cut, and the fold over its levels has this closed form (`mergeHierarchy_closed`).
-/

namespace PolicyGate

namespace RuleSet

variable {kind : RuleKind}

/-- The messages that say something, in the order of their levels. -/
def messages (levels : List (RuleSet kind)) : List String :=
  (levels.map RuleSet.message).filter fun message => message ≠ "" && message ≠ unsetMessage

/-- The rule ids in the order of their first declaration. -/
def declaredIds (levels : List (RuleSet kind)) : List String :=
  (levels.flatMap fun level => level.rules.ids).eraseDups

/-- The name that the last level to declare an id gives it. -/
def lastName? (levels : List (RuleSet kind)) (id : String) : Option String :=
  levels.reverse.findSome? fun level => level.rules.get? id

/-- What the levels of a hierarchy are merged into. -/
structure IsMergeOf (merged : RuleSet kind) (levels : List (RuleSet kind)) : Prop where
  message : merged.message = String.intercalate "," (messages levels)
  distinct : merged.rules.ids.Nodup
  order : merged.rules.ids = declaredIds levels
  names : ∀ id, merged.rules.get? id = lastName? levels id

variable {a first level : RuleSet kind} {levels rest : List (RuleSet kind)}

/-! ## Messages -/

theorem messages_cons (level : RuleSet kind) (levels : List (RuleSet kind)) :
    messages (level :: levels) =
      if level.hasMessage then level.message :: messages levels else messages levels :=
  List.filter_cons

theorem messages_ne_nil_iff : messages levels ≠ [] ↔ levels.any hasMessage := by
  simp [messages, hasMessage]

theorem hasMessage_foldl (first : RuleSet kind) (rest : List (RuleSet kind)) :
    (rest.foldl merge first).hasMessage = (first :: rest).any hasMessage := by
  induction rest generalizing first with
  | nil => simp
  | cons level rest ih => simp [ih, hasMessage_merge, Bool.or_assoc]

/-- A message goes before those that are joined already. -/
theorem message_merge_of_eq {below : RuleSet kind} (hhas : below.hasMessage = levels.any hasMessage)
    (h : below.hasMessage → below.message = String.intercalate "," (messages levels)) :
    (a.merge below).message = String.intercalate "," (messages (a :: levels)) := by
  rw [messages_cons]
  unfold merge mergedMessage
  cases hb : below.hasMessage with
  | false =>
    have hnone : messages levels = [] := by
      by_contra hsome
      have hany := messages_ne_nil_iff.1 hsome
      rw [← hhas, hb] at hany
      cases hany
    cases a.hasMessage <;> simp [hnone]
  | true =>
    obtain ⟨next, more, hsome⟩ := List.exists_cons_of_ne_nil
      (messages_ne_nil_iff.2 (hhas.symm.trans hb))
    cases a.hasMessage with
    | false => exact h hb
    | true => simp only [h hb, hsome, if_true, String.intercalate_cons_cons]

/-- From the second level on, the messages are those that say something, joined. -/
theorem message_merge_foldl (a first : RuleSet kind) (rest : List (RuleSet kind)) :
    (a.merge (rest.foldl merge first)).message =
      String.intercalate "," (messages (a :: first :: rest)) := by
  induction rest generalizing a first with
  | nil =>
    refine message_merge_of_eq (by simp) fun (hf : first.hasMessage) => ?_
    have hnil : messages ([] : List (RuleSet kind)) = [] := rfl
    rw [messages_cons, if_pos hf, hnil, String.intercalate_singleton]
    rfl
  | cons level rest ih =>
    refine message_merge_of_eq (hasMessage_foldl _ _) fun _ => ?_
    rw [List.foldl_cons, foldl_merge, ih]

/-! ## Rules -/

theorem eraseDups_of_nodup {ids : List String} (h : ids.Nodup) : ids.eraseDups = ids := by
  induction ids with
  | nil => rfl
  | cons id rest ih =>
    rw [List.nodup_cons] at h
    have hfilter : rest.filter (fun other => !other == id) = rest :=
      List.filter_eq_self.2 fun other ho => by
        simpa using fun e : other = id => h.1 (e ▸ ho)
    rw [List.eraseDups_cons, hfilter, ih h.2]

theorem mem_declaredIds {id : String} :
    id ∈ declaredIds levels ↔ id ∈ levels.flatMap fun level => level.rules.ids :=
  List.mem_eraseDups

/-- Of the ids that a further level declares, those that are new come last. -/
theorem declaredIds_concat (levels : List (RuleSet kind)) (level : RuleSet kind) :
    declaredIds (levels ++ [level]) =
      declaredIds levels ++ level.rules.ids.filter (· ∉ declaredIds levels) := by
  have hnew : (level.rules.ids.filter (· ∉ declaredIds levels)).Nodup :=
    List.Nodup.filter _ level.rules.distinct
  rw [← eraseDups_of_nodup hnew, declaredIds, List.flatMap_append, List.eraseDups_append,
    List.flatMap_singleton, List.removeAll]
  congr 2
  refine List.filter_congr fun id _ => ?_
  simp only [mem_declaredIds, List.elem_eq_mem, decide_not]

/-- Merging levels keeps the ids in the order of their first declaration. -/
theorem ids_foldl (first : RuleSet kind) (rest : List (RuleSet kind)) :
    (rest.foldl merge first).rules.ids = declaredIds (first :: rest) := by
  induction rest using List.reverseRecOn with
  | nil =>
    have hfirst : first.rules.ids.Nodup := first.rules.distinct
    rw [declaredIds, List.flatMap_singleton, eraseDups_of_nodup hfirst]
    rfl
  | append_singleton rest level ih =>
    rw [List.foldl_concat, rules_merge, RuleMap.ids_extend, ih, ← List.cons_append,
      declaredIds_concat]

theorem lastName?_cons (level : RuleSet kind) (levels : List (RuleSet kind)) (id : String) :
    lastName? (level :: levels) id = (lastName? levels id).or (level.rules.get? id) := by
  rw [lastName?, List.reverse_cons, List.findSome?_append, List.findSome?_singleton]
  rfl

theorem get?_foldl_eq (first : RuleSet kind) (rest : List (RuleSet kind)) (id : String) :
    (rest.foldl merge first).rules.get? id = lastName? (first :: rest) id := by
  induction rest generalizing first with
  | nil => simp [lastName?]
  | cons level rest ih =>
    rw [List.foldl_cons, ih, lastName?_cons, lastName?_cons, lastName?_cons, rules_merge,
      RuleMap.get?_extend, Option.or_assoc]

/-! ## Hierarchies -/

theorem isMergeOf_foldl (first second : RuleSet kind) (rest : List (RuleSet kind)) :
    ((second :: rest).foldl merge first).IsMergeOf (first :: second :: rest) where
  message := by rw [List.foldl_cons, foldl_merge, message_merge_foldl]
  distinct := RuleMap.distinct _
  order := ids_foldl _ _
  names := get?_foldl_eq _ _

/-- Merging is associative, a hierarchy is the merge of its two parts wherever it is cut, and two
levels or more are merged into their messages that say something, joined by commas, and their rules,
each at the place of its first declaration and under the name of its last one. -/
theorem mergeHierarchy_closed (kind : RuleKind) :
    (∀ a b c : RuleSet kind, (a.merge b).merge c = a.merge (b.merge c)) ∧
    (∀ (first : RuleSet kind) rest next more, ∃ above below,
      mergeHierarchy (first :: rest) = some above ∧ mergeHierarchy (next :: more) = some below ∧
      mergeHierarchy (first :: rest ++ next :: more) = some (above.merge below)) ∧
    ∀ (first : RuleSet kind) second rest, ∃ merged,
      mergeHierarchy (first :: second :: rest) = some merged ∧
      merged.IsMergeOf (first :: second :: rest) := by
  refine ⟨merge_assoc, fun first rest next more => ⟨_, _, rfl, rfl, ?_⟩, fun first second rest =>
    ⟨_, rfl, isMergeOf_foldl first second rest⟩⟩
  rw [mergeHierarchy_append]
  rfl

end RuleSet

end PolicyGate
