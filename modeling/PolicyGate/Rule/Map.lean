/-!
Rule maps: rule ids with the names of their rules, in the order in which the ids were first
declared. Main statements: what `get?` answers after an insertion, and that an insertion keeps the
order of the ids already there.
-/

namespace PolicyGate

/-- An ordered list of rule ids, each with the name of its rule. -/
structure RuleMap where
  entries : List (String × String)
  distinct : (entries.map Prod.fst).Nodup

namespace RuleMap

@[ext] theorem ext {a b : RuleMap} (h : a.entries = b.entries) : a = b := by
  cases a; cases b; cases h; rfl

instance : DecidableEq RuleMap := fun a b =>
  if h : a.entries = b.entries then isTrue (ext h) else isFalse fun e => h (e ▸ rfl)

/-- Puts a name under an id: an id already there keeps its place, a new one goes to the end. -/
def insertEntry (id name : String) : List (String × String) → List (String × String)
  | [] => [(id, name)]
  | entry :: rest =>
    if entry.1 = id then (id, name) :: rest else entry :: insertEntry id name rest

/-- A new id comes last, and a known one keeps its place. -/
theorem map_fst_insertEntry (id name : String) (entries : List (String × String)) :
    (insertEntry id name entries).map Prod.fst =
      if id ∈ entries.map Prod.fst then entries.map Prod.fst else entries.map Prod.fst ++ [id] := by
  induction entries with
  | nil => simp [insertEntry]
  | cons entry rest ih =>
    simp only [insertEntry]
    split
    · next h => simp [h]
    · next h =>
      simp only [List.map_cons, ih, List.mem_cons, Ne.symm h, false_or]
      split <;> simp

theorem insertEntry_distinct {id name : String} {entries : List (String × String)}
    (h : (entries.map Prod.fst).Nodup) : ((insertEntry id name entries).map Prod.fst).Nodup := by
  rw [map_fst_insertEntry]
  split
  · exact h
  · next hn =>
    refine List.nodup_append.2 ⟨h, by simp, fun a ha b hb => ?_⟩
    rw [List.mem_singleton] at hb
    exact fun e => hn (hb ▸ e ▸ ha)

def empty : RuleMap := ⟨[], .nil⟩

instance : EmptyCollection RuleMap := ⟨empty⟩

instance : Inhabited RuleMap := ⟨empty⟩

/-- Declares a rule: an id already there keeps its place and takes the new name. -/
def insert (m : RuleMap) (id name : String) : RuleMap :=
  ⟨insertEntry id name m.entries, insertEntry_distinct m.distinct⟩

/-- Declares every rule of a list, in order. -/
def insertMany (m : RuleMap) (entries : List (String × String)) : RuleMap :=
  entries.foldl (fun m entry => m.insert entry.1 entry.2) m

/-- The map of a list of declarations. -/
def ofList (entries : List (String × String)) : RuleMap := empty.insertMany entries

/-- Declares every rule of another map, in its order. -/
def extend (m other : RuleMap) : RuleMap := m.insertMany other.entries

def get? (m : RuleMap) (id : String) : Option String :=
  (m.entries.find? fun entry => entry.1 = id).map Prod.snd

def ids (m : RuleMap) : List String := m.entries.map Prod.fst

def toList (m : RuleMap) : List (String × String) := m.entries

def size (m : RuleMap) : Nat := m.entries.length

def isEmpty (m : RuleMap) : Bool := m.entries.isEmpty

theorem ids_insert (m : RuleMap) (id name : String) :
    (m.insert id name).ids = if id ∈ m.ids then m.ids else m.ids ++ [id] :=
  map_fst_insertEntry id name m.entries

theorem find?_insertEntry (id name id' : String) (entries : List (String × String)) :
    ((insertEntry id name entries).find? fun entry => entry.1 = id').map Prod.snd =
      if id' = id then some name
      else (entries.find? fun entry => entry.1 = id').map Prod.snd := by
  induction entries with
  | nil =>
    by_cases h : id' = id
    · simp [insertEntry, h]
    · simp [insertEntry, h, Ne.symm h]
  | cons entry rest ih =>
    simp only [insertEntry]
    split
    · next he =>
      by_cases h : id' = id
      · simp [h]
      · simp [h, Ne.symm h, he]
    · next he =>
      by_cases h : entry.1 = id'
      · have : id' ≠ id := fun e => he (h.trans e)
        simp [h, this]
      · simpa [h] using ih

theorem get?_insert (m : RuleMap) (id name id' : String) :
    (m.insert id name).get? id' = if id' = id then some name else m.get? id' :=
  find?_insertEntry id name id' m.entries

end RuleMap

end PolicyGate
