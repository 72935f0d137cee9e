import PolicyGate.Sorted.Map

/-!
What the entries of a sorted map say about its look-ups, and the other way round. Main statements: a
map is read back from the list of its entries (`ofList_entries`), and two maps that answer every
look-up alike are equal (`eq_of_get?`).
-/

namespace PolicyGate.SortedMap

variable {V : Type u} {m m' : SortedMap V} {key : String} {value : V}

theorem nodup_keys (m : SortedMap V) : m.keys.Nodup :=
  List.pairwise_map.2 (m.ordered.imp fun {a b} h e => by
    rw [e] at h
    exact String.lt_irrefl _ h)

theorem lookup_of_mem {entries : List (String × V)} (h : entries.Pairwise fun a b => a.1 < b.1)
    (hm : (key, value) ∈ entries) : lookup key entries = some value := by
  induction entries with
  | nil => cases hm
  | cons entry rest ih =>
    rw [List.pairwise_cons] at h
    rcases List.mem_cons.1 hm with rfl | hm
    · simp [lookup]
    · have hne : entry.1 ≠ key := fun e => by
        have hlt := h.1 _ hm
        rw [e] at hlt
        exact String.lt_irrefl _ hlt
      simpa [lookup, hne] using ih h.2 hm

theorem mem_entries_iff : (key, value) ∈ m.entries ↔ m.get? key = some value := by
  refine ⟨lookup_of_mem m.ordered, fun h => ?_⟩
  obtain ⟨⟨key', value'⟩, hf, rfl⟩ := Option.map_eq_some_iff.1 h
  have hkey : key' = key := by simpa using List.find?_some hf
  exact hkey ▸ List.mem_of_find?_eq_some hf

theorem mem_keys_iff : key ∈ m.keys ↔ m.contains key := by
  rw [contains, Option.isSome_iff_exists, keys, List.mem_map]
  constructor
  · rintro ⟨⟨_, value⟩, h, rfl⟩
    exact ⟨value, mem_entries_iff.1 h⟩
  · rintro ⟨value, h⟩
    exact ⟨_, mem_entries_iff.2 h, rfl⟩

/-- A key behind all others comes in at the end. -/
theorem insertEntry_of_lt {entries : List (String × V)} (h : ∀ e ∈ entries, e.1 < key) :
    insertEntry key value entries = entries ++ [(key, value)] := by
  induction entries with
  | nil => rfl
  | cons entry rest ih =>
    have hlt := h entry List.mem_cons_self
    have hne : key ≠ entry.1 := fun e => String.lt_irrefl _ (e ▸ hlt)
    rw [insertEntry, if_neg (fun h' => String.lt_irrefl _ (String.lt_trans hlt h')), if_neg hne,
      ih fun e he => h e (List.mem_cons_of_mem _ he), List.cons_append]

/-- A list in order is kept as it is. -/
theorem entries_ofList {entries : List (String × V)}
    (h : entries.Pairwise fun a b => a.1 < b.1) : (ofList entries).entries = entries := by
  suffices ∀ (rest : List (String × V)) (m : SortedMap V),
      ((m.entries ++ rest).Pairwise fun a b => a.1 < b.1) →
      (rest.foldl (fun m entry => m.insert entry.1 entry.2) m).entries = m.entries ++ rest from
    this entries empty h
  intro rest
  induction rest with
  | nil => exact fun m _ => (List.append_nil _).symm
  | cons entry rest ih =>
    intro m hm
    have hlt : ∀ e ∈ m.entries, e.1 < entry.1 := fun e he =>
      (List.pairwise_append.1 hm).2.2 e he entry List.mem_cons_self
    have hi : (m.insert entry.1 entry.2).entries = m.entries ++ [entry] := insertEntry_of_lt hlt
    rw [List.foldl_cons, ih _ (by rwa [hi, List.append_assoc]), hi, List.append_assoc]
    rfl

theorem lookup_map {W : Type v} (f : V → W) (key : String) (entries : List (String × V)) :
    lookup key (entries.map fun entry => (entry.1, f entry.2)) = (lookup key entries).map f := by
  induction entries with
  | nil => rfl
  | cons entry rest ih =>
    by_cases he : entry.1 = key
    · simp [lookup, he]
    · simpa [lookup, he] using ih

/-- A map is read back from its entries. -/
theorem ofList_entries (m : SortedMap V) : ofList m.entries = m := ext (entries_ofList m.ordered)

/-- A map is known by what it answers. -/
theorem eq_of_get? (h : ∀ key, m.get? key = m'.get? key) : m = m' := by
  have nodup (m : SortedMap V) : m.entries.Nodup :=
    m.ordered.imp fun {a b} hlt (he : a = b) => String.lt_irrefl _ (he ▸ hlt)
  have hp : m.entries.Perm m'.entries :=
    (List.perm_ext_iff_of_nodup (nodup m) (nodup m')).2 fun ⟨key, value⟩ => by
      rw [mem_entries_iff, mem_entries_iff, h]
  refine ext (hp.eq_of_pairwise (fun a b _ _ hab hba => ?_) m.ordered m'.ordered)
  exact absurd (String.lt_trans hab hba) (String.lt_irrefl _)

/-- A list without repeated keys is looked up in its own order. -/
theorem get?_ofList {entries : List (String × V)} (h : (entries.map Prod.fst).Nodup) :
    (ofList entries).get? key = lookup key entries := by
  suffices ∀ (rest : List (String × V)) (m : SortedMap V), (rest.map Prod.fst).Nodup →
      (rest.foldl (fun m entry => m.insert entry.1 entry.2) m).get? key =
        (lookup key rest).or (m.get? key) by
    simpa [ofList] using this entries empty h
  intro rest
  induction rest with
  | nil => exact fun m _ => rfl
  | cons entry rest ih =>
    intro m hd
    rw [List.map_cons, List.nodup_cons] at hd
    rw [List.foldl_cons, ih _ hd.2, get?_insert]
    by_cases he : entry.1 = key
    · -- the key does not come again behind this entry
      have hrest : lookup key rest = none := by
        simp only [lookup, Option.map_eq_none_iff, List.find?_eq_none, decide_eq_true_eq]
        exact fun e hm heq => hd.1 (List.mem_map.2 ⟨e, hm, heq.trans he.symm⟩)
      rw [hrest]
      simp [lookup, he]
    · simp [lookup, he, Ne.symm he]

theorem entries_mapValues {W : Type v} (f : V → W) (m : SortedMap V) :
    (m.mapValues f).entries = m.entries.map fun entry => (entry.1, f entry.2) := rfl

theorem ofList_map {W : Type v} (f : V → W) {entries : List (String × V)}
    (h : (entries.map Prod.fst).Nodup) :
    ofList (entries.map fun entry => (entry.1, f entry.2)) = (ofList entries).mapValues f :=
  eq_of_get? fun key => by
    have hk : ((entries.map fun entry => (entry.1, f entry.2)).map Prod.fst).Nodup := by
      simpa [Function.comp_def] using h
    rw [get?_ofList hk, lookup_map, ← get?_ofList h]
    exact (lookup_map f key (ofList entries).entries).symm

end PolicyGate.SortedMap
