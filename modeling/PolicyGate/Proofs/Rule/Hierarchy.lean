import Mathlib.Data.List.Nodup
import PolicyGate.Proofs.Rule.Merge

/-!
The fold of a hierarchy. Merging is associative, also in the messages: a message that merges have
joined says something, so it is never taken for that of an unset rule set. Main statement: a
hierarchy can be cut anywhere, and the merges of its two parts are merged (`mergeHierarchy_append`).
-/

namespace PolicyGate

namespace RuleMap

/-- New ids come behind those that a map has. -/
theorem ids_insertMany (m : RuleMap) {entries : List (String × String)}
    (h : (entries.map Prod.fst).Nodup) :
    (m.insertMany entries).ids = m.ids ++ (entries.map Prod.fst).filter (· ∉ m.ids) := by
  induction entries generalizing m with
  | nil => exact (List.append_nil _).symm
  | cons entry rest ih =>
    rw [List.map_cons, List.nodup_cons] at h
    rw [insertMany, List.foldl_cons, ← insertMany, ih (m.insert entry.1 entry.2) h.2, ids_insert,
      List.map_cons]
    by_cases hm : entry.1 ∈ m.ids
    · rw [if_pos hm, List.filter_cons_of_neg (by simpa using hm)]
    · rw [if_neg hm, List.filter_cons_of_pos (by simpa using hm), List.append_assoc,
        List.singleton_append]
      congr 2
      refine List.filter_congr fun id hid => ?_
      -- the id that is new with this entry is not declared again behind it
      have hne : id ≠ entry.1 := fun e => h.1 (e ▸ hid)
      simp [hne]

/-- The ids of the map that is added follow those that were there. -/
theorem ids_extend (m other : RuleMap) :
    (m.extend other).ids = m.ids ++ other.ids.filter (· ∉ m.ids) :=
  ids_insertMany m other.distinct

theorem get?_eq_of_mem {m : RuleMap} {entry : String × String} (h : entry ∈ m.entries) :
    m.get? entry.1 = some entry.2 := by
  have hsome : (m.entries.find? fun other => other.1 = entry.1).isSome := by
    rw [List.find?_isSome]
    exact ⟨entry, h, by simp⟩
  obtain ⟨other, ho⟩ := Option.isSome_iff_exists.1 hsome
  have hid : other.1 = entry.1 := by simpa using List.find?_some ho
  have heq : other = entry :=
    List.inj_on_of_nodup_map m.distinct (List.mem_of_find?_eq_some ho) h hid
  rw [get?, ho, heq, Option.map_some]

/-- The names of a map are those that it gives under some id. -/
theorem mem_names_iff {m : RuleMap} {name : String} :
    name ∈ m.toList.map Prod.snd ↔ ∃ id, m.get? id = some name := by
  constructor
  · intro h
    obtain ⟨entry, he, rfl⟩ := List.mem_map.1 h
    exact ⟨entry.1, get?_eq_of_mem he⟩
  · rintro ⟨id, h⟩
    obtain ⟨entry, hf, rfl⟩ := Option.map_eq_some_iff.1 h
    exact List.mem_map_of_mem (List.mem_of_find?_eq_some hf)

theorem entries_eq (m : RuleMap) : m.entries = m.ids.map fun id => (id, (m.get? id).getD "") := by
  rw [ids, List.map_map]
  refine (List.map_id _).symm.trans (List.map_congr_left fun entry he => ?_)
  simp [get?_eq_of_mem he]

/-- A map is determined by its order of ids and by the name of each. -/
theorem eq_of_ids_of_get? {m other : RuleMap} (hids : m.ids = other.ids)
    (hget : ∀ id, m.get? id = other.get? id) : m = other := by
  apply ext
  rw [entries_eq, entries_eq, hids]
  simp only [hget]

/-- Extending maps is associative, in their order too. -/
theorem extend_assoc (a b c : RuleMap) : (a.extend b).extend c = a.extend (b.extend c) := by
  refine eq_of_ids_of_get? ?_ fun id => ?_
  · simp only [ids_extend, List.filter_append, List.append_assoc, List.filter_filter]
    congr 2
    refine List.filter_congr fun id _ => ?_
    by_cases ha : id ∈ a.ids <;> simp [ha]
  · simp only [get?_extend, Option.or_assoc]

end RuleMap

namespace RuleSet

variable {kind : RuleKind} {a b : RuleSet kind}

/-- Messages that are joined say something. -/
theorem hasMessage_merge : (a.merge b).hasMessage = (a.hasMessage || b.hasMessage) := by
  have hjoined : (⟨a.message ++ "," ++ b.message, ∅⟩ : RuleSet kind).hasMessage := by
    have hcomma : ',' ∈ (a.message ++ "," ++ b.message).toList := by simp
    have hne : ∀ text : String, ',' ∉ text.toList → a.message ++ "," ++ b.message ≠ text :=
      fun text hno e => hno (e ▸ hcomma)
    simp [hasMessage, hne "" (by decide), hne unsetMessage (by decide)]
  have hnone : (⟨"", ∅⟩ : RuleSet kind).hasMessage = false := rfl
  unfold merge mergedMessage
  cases ha : a.hasMessage <;> cases hb : b.hasMessage
  · exact hnone
  · exact hb
  · exact ha
  · exact hjoined

/-- Merging sets of rules is associative. -/
theorem merge_assoc (a b c : RuleSet kind) : (a.merge b).merge c = a.merge (b.merge c) := by
  have hmessage : mergedMessage (a.merge b) c = mergedMessage a (b.merge c) := by
    unfold mergedMessage
    rw [hasMessage_merge, hasMessage_merge]
    unfold merge mergedMessage
    cases a.hasMessage <;> cases b.hasMessage <;> cases c.hasMessage <;> simp [String.append_assoc]
  have hrules := RuleMap.extend_assoc a.rules b.rules c.rules
  unfold merge at hmessage ⊢
  rw [hmessage, hrules]

theorem foldl_merge (a b : RuleSet kind) (levels : List (RuleSet kind)) :
    levels.foldl merge (a.merge b) = a.merge (levels.foldl merge b) := by
  induction levels generalizing b with
  | nil => rfl
  | cons level rest ih => rw [List.foldl_cons, List.foldl_cons, merge_assoc, ih]

/-- A hierarchy can be cut anywhere: the merges of its two parts are merged. -/
theorem mergeHierarchy_append (above below : List (RuleSet kind)) :
    mergeHierarchy (above ++ below) =
      (mergeHierarchy above).merge merge (mergeHierarchy below) := by
  cases above with
  | nil => cases below <;> rfl
  | cons first rest =>
    cases below with
    | nil => rw [List.append_nil]; rfl
    | cons next more =>
      have hcut := foldl_merge (rest.foldl merge first) next more
      simpa [mergeHierarchy, List.foldl_append, Option.merge] using hcut

/-- The ids of an inherited set come first. -/
theorem ids_prefix_merge (a b : RuleSet kind) : a.rules.ids <+: (a.merge b).rules.ids := by
  rw [rules_merge, RuleMap.ids_extend]
  exact List.prefix_append _ _

end RuleSet

end PolicyGate
