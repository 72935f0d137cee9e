import PolicyGate.Subject

/-!
The directory of users, which gives the users of requests their roles. Main statement: a user who is
not in the directory is one without roles.
-/

namespace PolicyGate

/-- The known users by id. -/
structure UserDirectory where
  users : SortedMap User
  deriving Inhabited

namespace UserDirectory

def empty : UserDirectory := ⟨∅⟩

/-- Adds a user, in place of one with the same id. -/
def add (d : UserDirectory) (user : User) : UserDirectory := ⟨d.users.insert user.id.text user⟩

def ofList (users : List User) : UserDirectory := users.foldl add empty

def get? (d : UserDirectory) (id : UserId) : Option User := d.users.get? id.text

/-- The user with an id, without roles if the directory does not know it. -/
def resolve (d : UserDirectory) (id : UserId) : User := (d.get? id).getD (.ofId id)

def size (d : UserDirectory) : Nat := d.users.size

theorem resolve_of_get?_eq_none {d : UserDirectory} {id : UserId} (h : d.get? id = none) :
    d.resolve id = .ofId id := by
  simp [resolve, h]

theorem resolve_add (d : UserDirectory) (user : User) : (d.add user).resolve user.id = user := by
  simp [resolve, get?, add, SortedMap.get?_insert]

end UserDirectory

end PolicyGate
