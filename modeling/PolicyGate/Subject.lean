import PolicyGate.Json.Value
import PolicyGate.Wire.Reader

/-!
Who asks for a resource and in which context: tokens that tie the messages of one request together,
user ids, users with their roles, and contexts. Main statements: what a context answers after an
entry was put into it, and that a role given to a user is one that the user has.
-/

namespace PolicyGate

variable {m : Type → Type} [Wire.Decoding m] {D : Type}

/-- The mark that every message of one client request carries. -/
structure Token where
  text : String
  deriving DecidableEq, Repr, Inhabited

/-- The name of a user. -/
structure UserId where
  text : String
  deriving DecidableEq, Repr, Inhabited

/-- A user with roles and authorisations. -/
structure User where
  id : UserId
  roles : SortedSet
  auths : SortedSet
  deriving DecidableEq, Inhabited

/-- What a client declares about a request, for instance its purpose. -/
structure Context where
  entries : SortedMap String
  deriving DecidableEq, Inhabited

namespace Token

def decode (r : Wire.Reader m D) (d : D) : m Token := .mk <$> r.text d

def toJson (t : Token) : Json := .string t.text

end Token

namespace UserId

def decode (r : Wire.Reader m D) (d : D) : m UserId := .mk <$> r.text d

def toJson (u : UserId) : Json := .string u.text

end UserId

/-- Decodes a set of texts from a list. -/
def SortedSet.decode (r : Wire.Reader m D) (d : D) : m SortedSet :=
  .ofTexts <$> r.items r.text d

def SortedSet.toJson (s : SortedSet) : Json := .array (s.texts.map .string)

def SortedMap.decodeTexts (r : Wire.Reader m D) (d : D) : m (SortedMap String) :=
  .ofList <$> r.mapEntries r.text d

namespace User

def ofId (id : UserId) : User := ⟨id, ∅, ∅⟩

def withRole (u : User) (role : String) : User := { u with roles := u.roles.insert role () }

def hasRole (u : User) (role : String) : Bool := u.roles.contains role

def decode (r : Wire.Reader m D) (d : D) : m User := do
  let fields ← r.fields ["user_id", "roles", "auths"] d
  return {
    id := ← fields.required 0 (UserId.decode r)
    roles := ← fields.withDefault 1 (SortedSet.decode r) ∅
    auths := ← fields.withDefault 2 (SortedSet.decode r) ∅ }

def toJson (u : User) : Json :=
  .object [("user_id", u.id.toJson), ("roles", u.roles.toJson), ("auths", u.auths.toJson)]

theorem hasRole_withRole (u : User) (role : String) : (u.withRole role).hasRole role = true := by
  simp [hasRole, withRole, SortedMap.contains, SortedMap.get?_insert]

end User

namespace Context

def empty : Context := ⟨∅⟩

/-- The key under which a context declares its purpose. -/
def purposeKey : String := "purpose"

def get? (c : Context) (key : String) : Option String := c.entries.get? key

def insert (c : Context) (key value : String) : Context := ⟨c.entries.insert key value⟩

def purpose? (c : Context) : Option String := c.get? purposeKey

def ofPurpose (purpose : String) : Context := empty.insert purposeKey purpose

def decode (r : Wire.Reader m D) (d : D) : m Context :=
  .mk <$> SortedMap.decodeTexts r d

def toJson (c : Context) : Json := .ofTexts c.entries

theorem get?_insert (c : Context) (key key' value : String) :
    (c.insert key value).get? key' = if key' = key then some value else c.get? key' :=
  SortedMap.get?_insert c.entries key key' value

theorem purpose?_ofPurpose (purpose : String) : (ofPurpose purpose).purpose? = some purpose := by
  simp [purpose?, ofPurpose, get?_insert]

end Context

end PolicyGate
