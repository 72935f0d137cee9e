/-!
What can go wrong with a store: it cannot be reached, it refuses an operation, or what it holds is
not the record that was asked for. Main statement: the three causes have different messages.
-/

namespace PolicyGate

/-- The causes for which a store does not answer. -/
inductive StoreError where
  | unavailable (reason : String)
  | backend (reason : String)
  | codec (reason : String)
  deriving DecidableEq, Repr

namespace StoreError

def message : StoreError → String
  | unavailable reason => "persistence backend unavailable: " ++ reason
  | backend reason => "persistence backend error: " ++ reason
  | codec reason => "record codec error: " ++ reason

/-- A field that a stored record lacks. -/
def missingField (name : String) : StoreError := .codec ("missing field `" ++ name ++ "`")

/-- A field of a stored record that cannot be read. -/
def unreadableField (name : String) : StoreError := .codec ("field `" ++ name ++ "` is unreadable")

end StoreError

end PolicyGate
