import Mathlib.Data.Finset.Card
import PolicyGate.Proofs.Json.Reading
import PolicyGate.Proofs.Rule.Hierarchy
import PolicyGate.Wire.Format

/-!
Rule maps and what went into them. A map is made from the empty one by declaring rules one at a
time, by adding other maps, out of lists of pairs and by reading; the pairs that went into it, in
their order and with repeated ids, are its history. Main statements: made in whatever way, a map has
the ids of its history once each, in the order of their first declaration and under their last names
(`Made.represents`); adding maps is associative and adding the same again changes nothing, and what
a map is written as is read as this map (`keeps_history`).
-/

namespace PolicyGate.RuleMap

/-- The pairs that a text holds, in their order and with repeated ids. -/
def pairs? (f : Format) (text : String) : Option (List (String × String)) :=
  f.decode? (fun r => r.mapEntries r.text) text

/-- The maps that are made from the empty one, each behind its history. A map that is read may come
from any source of values or from a text in either format. -/
inductive Made : List (String × String) → RuleMap → Prop
  | empty : Made [] ∅
  | insert {log : List (String × String)} {m : RuleMap} (id name : String) :
    Made log m → Made (log ++ [(id, name)]) (m.insert id name)
  | extend {log log' : List (String × String)} {m other : RuleMap} :
    Made log m → Made log' other → Made (log ++ log') (m.extend other)
  | collect (pairs : List (String × String)) : Made pairs (ofList pairs)
  | read {D : Type} {r : Wire.Reader Option D} {d : D} {pairs : List (String × String)}
    {m : RuleMap} : r.mapEntries r.text d = some pairs → decode r d = some m → Made pairs m
  | readText {f : Format} {text : String} {pairs : List (String × String)} {m : RuleMap} :
    pairs? f text = some pairs → f.decode? decode text = some m → Made pairs m

/-- The first declaration of one id comes before that of another one. -/
def FirstBefore (log : List (String × String)) (a b : String) : Prop :=
  (log.map Prod.fst).idxOf a < (log.map Prod.fst).idxOf b

/-- What a map keeps of its history. -/
structure Represents (m : RuleMap) (log : List (String × String)) : Prop where
  distinct : m.ids.Nodup
  declared : ∀ id, id ∈ m.ids ↔ id ∈ log.map Prod.fst
  order : m.ids.Pairwise (FirstBefore log)
  /-- of the names under an id the last one counts -/
  names : ∀ id, m.get? id = log.reverse.lookup id
  absent : ∀ id, m.get? id = none ↔ id ∉ log.map Prod.fst
  size : m.size = (log.map Prod.fst).toFinset.card

variable {m other : RuleMap} {log log' : List (String × String)} {id a b : String}

/-! ## Order of first declarations -/

theorem FirstBefore.append (h : FirstBefore log a b) (ha : a ∈ log.map Prod.fst)
    (hb : b ∈ log.map Prod.fst) : FirstBefore (log ++ log') a b := by
  rwa [FirstBefore, List.map_append, List.idxOf_append_of_mem ha, List.idxOf_append_of_mem hb]

theorem FirstBefore.prepend (h : FirstBefore log' a b) (ha : a ∉ log.map Prod.fst)
    (hb : b ∉ log.map Prod.fst) : FirstBefore (log ++ log') a b := by
  rw [FirstBefore, List.map_append, List.idxOf_append_of_notMem ha,
    List.idxOf_append_of_notMem hb]
  exact Nat.add_lt_add_left h _

theorem firstBefore_append (ha : a ∈ log.map Prod.fst) (hb : b ∉ log.map Prod.fst) :
    FirstBefore (log ++ log') a b := by
  rw [FirstBefore, List.map_append, List.idxOf_append_of_mem ha, List.idxOf_append_of_notMem hb]
  exact Nat.lt_add_right _ (List.idxOf_lt_length_of_mem ha)

/-! ## Histories -/

theorem lookup_reverse_eq_none_iff : log.reverse.lookup id = none ↔ id ∉ log.map Prod.fst := by
  simp only [List.lookup_eq_none_iff, List.mem_reverse, bne_iff_ne, List.mem_map, not_exists,
    not_and]
  exact ⟨fun h entry he e => h entry he e.symm, fun h entry he e => h entry he e.symm⟩

namespace Represents

/-- The order of its ids and their names are all there is to a map. -/
theorem of_names (order : m.ids.Pairwise (FirstBefore log))
    (names : ∀ id, m.get? id = log.reverse.lookup id) : m.Represents log := by
  have distinct : m.ids.Nodup := by
    apply order.imp
    rintro a _ hab rfl
    exact Nat.lt_irrefl _ hab
  have absent (id : String) : m.get? id = none ↔ id ∉ log.map Prod.fst := by
    rw [names, lookup_reverse_eq_none_iff]
  have declared (id : String) : id ∈ m.ids ↔ id ∈ log.map Prod.fst := by
    rw [mem_ids_iff, ← not_iff_not, Option.not_isSome_iff_eq_none, absent]
  have size : m.size = (log.map Prod.fst).toFinset.card := by
    have hids : (log.map Prod.fst).toFinset = m.ids.toFinset := by
      ext id
      rw [List.mem_toFinset, List.mem_toFinset, declared]
    rw [hids, List.toFinset_card_of_nodup distinct, ids, List.length_map, RuleMap.size]
  exact ⟨distinct, declared, order, names, absent, size⟩

theorem empty : Represents ∅ [] := of_names .nil fun _ => rfl

/-- Behind the ids that were there come the new ones, in their own order. -/
theorem order_append (h : m.Represents log) {new : List String} (hnew : ∀ id ∈ new, id ∉ m.ids)
    (horder : new.Pairwise (FirstBefore log')) :
    (m.ids ++ new).Pairwise (FirstBefore (log ++ log')) := by
  have hold : ∀ id ∈ m.ids, id ∈ log.map Prod.fst := fun id => (h.declared id).1
  have hnew : ∀ id ∈ new, id ∉ log.map Prod.fst := fun id hid => (h.declared id).not.1 (hnew id hid)
  rw [List.pairwise_append]
  refine ⟨?_, ?_, ?_⟩
  · apply h.order.imp_of_mem
    intro a b ha hb hab
    exact hab.append (hold a ha) (hold b hb)
  · apply horder.imp_of_mem
    intro a b ha hb hab
    exact hab.prepend (hnew a ha) (hnew b hb)
  · intro a ha b hb
    exact firstBefore_append (hold a ha) (hnew b hb)

/-- A map that is added brings in its whole history: the earlier names that it has lost do not count
behind any other history either. -/
theorem extend (h : m.Represents log) (h' : other.Represents log') :
    (m.extend other).Represents (log ++ log') := by
  have hnew : ∀ id ∈ other.ids.filter (· ∉ m.ids), id ∉ m.ids := by
    intro id hid
    simpa using (List.mem_filter.1 hid).2
  refine of_names ?_ fun id => ?_
  · rw [ids_extend]
    exact h.order_append hnew (h'.order.filter _)
  · rw [get?_extend, h.names, h'.names, List.reverse_append, List.lookup_append]

theorem singleton (id name : String) : (RuleMap.empty.insert id name).Represents [(id, name)] := by
  refine of_names (List.pairwise_singleton ..) fun id' => ?_
  rw [get?_insert]
  by_cases he : id' = id
  · simp [he]
  · have hne : (id' == id) = false := beq_false_of_ne he
    simp only [if_neg he, List.reverse_singleton, List.lookup_cons, hne]
    rfl

/-- Declaring a rule is adding the map of this rule alone. -/
theorem insert (h : m.Represents log) (id name : String) :
    (m.insert id name).Represents (log ++ [(id, name)]) := h.extend (singleton id name)

theorem insertMany (h : m.Represents log) (pairs : List (String × String)) :
    (m.insertMany pairs).Represents (log ++ pairs) := by
  induction pairs generalizing m log with
  | nil => rwa [List.append_nil]
  | cons pair rest ih =>
    have hrest := ih (h.insert pair.1 pair.2)
    rwa [List.append_assoc, List.singleton_append] at hrest

theorem ofList (pairs : List (String × String)) : (RuleMap.ofList pairs).Represents pairs :=
  empty.insertMany pairs

end Represents

/-! ## Adding a map again -/

theorem extend_self (m : RuleMap) : m.extend m = m := by
  refine eq_of_ids_of_get? ?_ fun id => ?_
  · simp [ids_extend]
  · rw [get?_extend, Option.or_self]

theorem extend_extend_self (m other : RuleMap) :
    (m.extend other).extend other = m.extend other := by
  rw [extend_assoc, extend_self]

/-! ## Reading -/

theorem decode_eq_map {D : Type} (r : Wire.Reader Option D) (d : D) :
    decode r d = (r.mapEntries r.text d).map ofList := rfl

/-- Reading a text collects its pairs, and fails only where they cannot be read. -/
theorem decode?_eq_map (f : Format) (text : String) :
    f.decode? decode text = (pairs? f text).map ofList := by
  cases f with
  | json =>
    show (Json.Form.parse text).bind _ = ((Json.Form.parse text).bind _).map _
    rw [Option.map_bind]
    rfl
  | yaml =>
    show (Yaml.Classic.parse text).bind _ = ((Yaml.Classic.parse text).bind _).map _
    rw [Option.map_bind]
    refine congrArg _ (funext fun tree => ?_)
    -- how many aliases are left behind the pairs is dropped on both sides
    simp only [Function.comp_apply, StateT.run'_eq, decode, StateT.run_map, Option.map_eq_map,
      Option.map_map]
    rfl

/-- Every list of pairs stands in a text, also with repeated ids. -/
theorem pairs?_render (pairs : List (String × String)) :
    pairs? .json (Json.object (pairs.map fun (id, name) => (id, .string name))).render =
      some pairs := by
  have hwhole : (Json.object (pairs.map fun (id, name) => (id, .string name))).isWhole :=
    Json.haveWhole_strings pairs
  exact (Json.Form.decode?_render hwhole _).trans (Json.Form.mapEntries_form_texts pairs)

/-- A text with the pairs of a map is read as this map. -/
theorem decode?_of_pairs? {f : Format} {text : String} (h : pairs? f text = some m.toList) :
    f.decode? decode text = some m := by
  rw [decode?_eq_map, h, Option.map_some]
  exact congrArg some m.ofList_entries

/-! ## Maps and their histories -/

/-- However a map was made, it represents its declarations. -/
theorem Made.represents (h : Made log m) : m.Represents log := by
  induction h with
  | empty => exact .empty
  | insert id name _ ih => exact ih.insert id name
  | extend _ _ ih ih' => exact ih.extend ih'
  | collect pairs => exact .ofList pairs
  | read hpairs hm =>
    rw [decode_eq_map, hpairs] at hm
    cases hm
    exact .ofList _
  | readText hpairs hm =>
    rw [decode?_eq_map, hpairs] at hm
    cases hm
    exact .ofList _

/-- A map that is made in any way has the ids of its history once each, in the order of their first
declaration and under their last names. Adding a map declares its rules one by one; it is
associative, and adding the same again changes nothing. Reading collects the pairs of a text, which
may be any pairs, and the pairs that a map is written as are read as this map. -/
theorem keeps_history :
    (∀ log m, Made log m → m.Represents log) ∧
    (∀ m other : RuleMap,
      m.extend other = other.toList.foldl (fun m pair => m.insert pair.1 pair.2) m ∧
      m.extend m = m ∧ (m.extend other).extend other = m.extend other) ∧
    (∀ a b c : RuleMap, (a.extend b).extend c = a.extend (b.extend c)) ∧
    (∀ f text, f.decode? decode text = (pairs? f text).map ofList) ∧
    (∀ pairs : List (String × String),
      pairs? .json (Json.object (pairs.map fun (id, name) => (id, .string name))).render =
        some pairs) ∧
    ∀ m : RuleMap, pairs? .json m.toJson.render = some m.toList ∧
      Format.json.decode? decode m.toJson.render = some m ∧
      ∀ f text, pairs? f text = some m.toList → f.decode? decode text = some m := by
  refine ⟨fun _ _ => Made.represents,
    fun m other => ⟨rfl, m.extend_self, m.extend_extend_self other⟩,
    extend_assoc, decode?_eq_map, pairs?_render, fun m => ?_⟩
  have hwritten : pairs? .json m.toJson.render = some m.toList := pairs?_render m.toList
  exact ⟨hwritten, decode?_of_pairs? hwritten, fun _ _ => decode?_of_pairs?⟩

/-- Ids that come again, in a list, alone and in a text, keep their places and take new names. -/
theorem keeps_history_repeated_ids :
    ∃ other m : RuleMap,
      Format.json.decode? decode
        "\x7b\"b\":\"deny_all\",\"z\":\"fresh\",\"b\":\"open\"\x7d" = some other ∧
      m = ((ofList [("z", "deny_all"), ("a", "open"), ("z", "open")]).insert "a" "deny_all").extend
        other ∧
      Made [("z", "deny_all"), ("a", "open"), ("z", "open"), ("a", "deny_all"), ("b", "deny_all"),
        ("z", "fresh"), ("b", "open")] m ∧
      m.Represents [("z", "deny_all"), ("a", "open"), ("z", "open"), ("a", "deny_all"),
        ("b", "deny_all"), ("z", "fresh"), ("b", "open")] ∧
      m.toList = [("z", "fresh"), ("a", "deny_all"), ("b", "open")] ∧
      pairs? .json "\x7b \"z\": \"fresh\", \"a\": \"deny_all\", \"b\": \"open\" \x7d" =
        some m.toList ∧
      Format.json.decode? decode
        "\x7b \"z\": \"fresh\", \"a\": \"deny_all\", \"b\": \"open\" \x7d" = some m := by
  have hadded : pairs? .json
      "\x7b\"b\":\"deny_all\",\"z\":\"fresh\",\"b\":\"open\"\x7d" =
        some [("b", "deny_all"), ("z", "fresh"), ("b", "open")] := by decide +kernel
  have hread : Format.json.decode? decode
      "\x7b\"b\":\"deny_all\",\"z\":\"fresh\",\"b\":\"open\"\x7d" =
        some (ofList [("b", "deny_all"), ("z", "fresh"), ("b", "open")]) := by decide +kernel
  have hmade := Made.extend
    (.insert "a" "deny_all" (.collect [("z", "deny_all"), ("a", "open"), ("z", "open")]))
    (.readText hadded hread)
  have hpairs : pairs? .json
      "\x7b \"z\": \"fresh\", \"a\": \"deny_all\", \"b\": \"open\" \x7d" =
        some [("z", "fresh"), ("a", "deny_all"), ("b", "open")] := by decide +kernel
  refine ⟨_, _, hread, rfl, hmade, keeps_history.1 _ _ hmade, by decide, hpairs, ?_⟩
  exact (keeps_history.2.2.2.2.2 _).2.2 .json _ hpairs

end PolicyGate.RuleMap
