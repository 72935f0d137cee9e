import PolicyGate.Json.Text

/-!
Data records: named fields with JSON values, ordered by name. Main statement: what a field holds
after it was set or removed.
-/

namespace PolicyGate

/-- A record of a resource. -/
structure Record where
  fields : SortedMap Json
  deriving Inhabited

namespace Record

def get? (r : Record) (name : String) : Option Json := r.fields.get? name

/-- Whether the record has a field, whatever its value. -/
def contains (r : Record) (name : String) : Bool := r.fields.contains name

def set (r : Record) (name : String) (value : Json) : Record := ⟨r.fields.insert name value⟩

def remove (r : Record) (name : String) : Record := ⟨r.fields.erase name⟩

def toJson (r : Record) : Json := .object r.fields.toList

/-- The record of a JSON object; any other value is refused with a message that shows it. -/
def ofJson : Json → Except String Record
  | .object members => .ok ⟨.ofList members⟩
  | other => .error ("expected a JSON object record, got " ++ other.render)

theorem get?_set (r : Record) (name name' : String) (value : Json) :
    (r.set name value).get? name' = if name' = name then some value else r.get? name' :=
  SortedMap.get?_insert r.fields name name' value

theorem get?_remove (r : Record) (name name' : String) :
    (r.remove name).get? name' = if name' = name then none else r.get? name' :=
  SortedMap.get?_erase r.fields name name'

end Record

end PolicyGate
