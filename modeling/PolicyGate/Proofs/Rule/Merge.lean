import PolicyGate.Rule.Set

/-!
What a merge makes of the sets on a path. Main statements: after `extend` the names of the second
map count before those of the first (`get?_extend`), and each set of a hierarchy takes part in the
merge: its rules are there, under its names unless a set further down names them anew
(`mergeHierarchy_takesPart`).
-/

namespace PolicyGate

namespace RuleMap

variable {m other : RuleMap} {id : String}

theorem mem_ids_iff : id ∈ m.ids ↔ (m.get? id).isSome := by
  simp [ids, get?, List.find?_isSome, List.mem_map]

theorem insertEntry_of_not_mem {name : String} {entries : List (String × String)}
    (h : id ∉ entries.map Prod.fst) : insertEntry id name entries = entries ++ [(id, name)] := by
  induction entries with
  | nil => rfl
  | cons entry rest ih =>
    rw [List.map_cons, List.mem_cons, not_or] at h
    rw [insertEntry, if_neg (Ne.symm h.1), ih h.2, List.cons_append]

theorem entries_insertMany (m : RuleMap) {entries : List (String × String)}
    (h : ((m.entries ++ entries).map Prod.fst).Nodup) :
    (m.insertMany entries).entries = m.entries ++ entries := by
  induction entries generalizing m with
  | nil => exact (List.append_nil _).symm
  | cons entry rest ih =>
    have hnew : entry.1 ∉ m.entries.map Prod.fst := by
      rw [List.map_append, List.map_cons] at h
      exact fun hm => (List.nodup_append.1 h).2.2 _ hm _ List.mem_cons_self rfl
    have hm : (m.insert entry.1 entry.2).entries = m.entries ++ [entry] :=
      insertEntry_of_not_mem hnew
    rw [insertMany, List.foldl_cons, ← insertMany, ih _ (by simpa [hm] using h), hm,
      List.append_assoc]
    rfl

/-- A map is read back from its entries. -/
theorem ofList_entries (m : RuleMap) : ofList m.entries = m :=
  ext (entries_insertMany empty m.distinct)

/-- Of two declarations of an id, the later one counts. -/
theorem get?_insertMany (m : RuleMap) (id : String) {entries : List (String × String)}
    (h : (entries.map Prod.fst).Nodup) : (m.insertMany entries).get? id =
      ((entries.find? fun entry => entry.1 = id).map Prod.snd).or (m.get? id) := by
  induction entries generalizing m with
  | nil => rfl
  | cons entry rest ih =>
    rw [List.map_cons, List.nodup_cons] at h
    rw [insertMany, List.foldl_cons, ← insertMany, ih (m.insert entry.1 entry.2) h.2, get?_insert]
    by_cases he : entry.1 = id
    · -- the id is not declared again behind this entry
      have hrest : rest.find? (fun entry => entry.1 = id) = none := by
        rw [List.find?_eq_none]
        intro other ho heq
        exact h.1 (List.mem_map.2 ⟨other, ho, (of_decide_eq_true heq).trans he.symm⟩)
      simp [hrest, he]
    · simp [he, Ne.symm he]

/-- The names of the map that is added count before those that were there. -/
theorem get?_extend (m other : RuleMap) (id : String) :
    (m.extend other).get? id = (other.get? id).or (m.get? id) :=
  get?_insertMany m id other.distinct

theorem mem_ids_extend : id ∈ (m.extend other).ids ↔ id ∈ m.ids ∨ id ∈ other.ids := by
  rw [mem_ids_iff, mem_ids_iff, mem_ids_iff, get?_extend]
  cases other.get? id <;> simp

theorem get?_extend_of_not_mem (h : id ∉ other.ids) : (m.extend other).get? id = m.get? id := by
  rw [mem_ids_iff, Option.not_isSome_iff_eq_none] at h
  rw [get?_extend, h, Option.none_or]

theorem get?_extend_of_mem (h : id ∈ other.ids) : (m.extend other).get? id = other.get? id := by
  rw [mem_ids_iff, Option.isSome_iff_exists] at h
  obtain ⟨name, h⟩ := h
  rw [get?_extend, h, Option.some_or]

end RuleMap

namespace RuleSet

variable {kind : RuleKind} {set merged : RuleSet kind} {above below : List (RuleSet kind)}

/-- The rules of a set are among those in force, and each has the name that the set gives it unless
a set further down gives it another one. -/
structure TakesPart (set : RuleSet kind) (below : List (RuleSet kind)) (merged : RuleSet kind) :
    Prop where
  declared : ∀ id ∈ set.rules.ids, id ∈ merged.rules.ids
  named : ∀ id ∈ set.rules.ids, (∀ level ∈ below, id ∉ level.rules.ids) →
    merged.rules.get? id = set.rules.get? id

/-- A rule stays in force below. -/
theorem mem_ids_foldl {id : String} (below : List (RuleSet kind)) (h : id ∈ merged.rules.ids) :
    id ∈ (below.foldl merge merged).rules.ids := by
  induction below generalizing merged with
  | nil => exact h
  | cons level rest ih => exact ih (RuleMap.mem_ids_extend.2 (.inl h))

/-- A rule keeps its name where no set gives it another one. -/
theorem get?_foldl {id : String} (h : ∀ level ∈ below, id ∉ level.rules.ids) :
    (below.foldl merge merged).rules.get? id = merged.rules.get? id := by
  induction below generalizing merged with
  | nil => rfl
  | cons level rest ih =>
    rw [List.foldl_cons, ih fun other ho => h other (List.mem_cons_of_mem _ ho), rules_merge,
      RuleMap.get?_extend_of_not_mem (h level List.mem_cons_self)]

/-- Every set of a hierarchy takes part in the merge. -/
theorem mergeHierarchy_takesPart (above : List (RuleSet kind)) (set : RuleSet kind)
    (below : List (RuleSet kind)) : ∃ merged,
      mergeHierarchy (above ++ set :: below) = some merged ∧ set.TakesPart below merged := by
  cases above with
  | nil => exact ⟨_, rfl, fun _ hid => mem_ids_foldl below hid, fun _ _ hno => get?_foldl hno⟩
  | cons first rest =>
    refine ⟨_, rfl, fun id hid => ?_, fun id hid hno => ?_⟩
    · rw [List.append_eq, List.foldl_append, List.foldl_cons]
      exact mem_ids_foldl below (RuleMap.mem_ids_extend.2 (.inr hid))
    · rw [List.append_eq, List.foldl_append, List.foldl_cons, get?_foldl hno, rules_merge,
        RuleMap.get?_extend_of_mem hid]

end RuleSet

end PolicyGate
