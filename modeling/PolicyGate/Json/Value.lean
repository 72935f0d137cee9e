import PolicyGate.Number.Layout
import PolicyGate.Sorted.Map

/-!
JSON values. A number is a whole number of 64 bits or a finite floating-point number; the members of
an object are a list of pairs, so that a printed structure keeps its own order. Free-form values
have their members ordered by key: `ofMembers` builds such objects and `sorted` orders a whole
value. Main statement: `sorted` does not change a value without objects.
-/

namespace PolicyGate

inductive JsonNumber where
  | integer (value : Int)
  | float (value : Binary64)
  deriving DecidableEq, Repr

inductive Json where
  | null
  | bool (value : Bool)
  | number (value : JsonNumber)
  | string (value : String)
  | array (items : List Json)
  | object (members : List (String × Json))
  deriving Inhabited

namespace Json

/-- An object whose members are ordered by key; of two members with one key the later one counts. -/
def ofMembers (members : List (String × Json)) : Json :=
  .object (SortedMap.ofList members).toList

def int (n : Int) : Json := .number (.integer n)

def ofOption (f : α → Json) : Option α → Json
  | some a => f a
  | none => .null

/-- An object of texts, ordered by key. -/
def ofTexts (m : SortedMap String) : Json := .object (m.toList.map fun (k, v) => (k, .string v))

/-- The members of an object. -/
def members? : Json → Option (List (String × Json))
  | .object members => some members
  | _ => none

/-- The value of the first member with a key. -/
def get? (j : Json) (key : String) : Option Json :=
  j.members?.bind fun members => SortedMap.lookup key members

mutual

/-- The value with the members of every object ordered by key. -/
def sorted : Json → Json
  | .array items => .array (sortedItems items)
  | .object members => ofMembers (sortedMembers members)
  | .null => .null
  | .bool b => .bool b
  | .number n => .number n
  | .string s => .string s

/-- Orders the members inside every item. -/
def sortedItems : List Json → List Json
  | [] => []
  | item :: rest => item.sorted :: sortedItems rest

/-- Orders the members inside the value of every member. -/
def sortedMembers : List (String × Json) → List (String × Json)
  | [] => []
  | (key, value) :: rest => (key, value.sorted) :: sortedMembers rest

end

theorem sortedItems_eq_map (items : List Json) : sortedItems items = items.map sorted := by
  induction items with
  | nil => simp [sortedItems]
  | cons item rest ih => simp [sortedItems, ih]

theorem sortedMembers_eq_map (members : List (String × Json)) :
    sortedMembers members = members.map fun member => (member.1, member.2.sorted) := by
  induction members with
  | nil => simp [sortedMembers]
  | cons member rest ih => simp [sortedMembers, ih]

end Json

end PolicyGate
