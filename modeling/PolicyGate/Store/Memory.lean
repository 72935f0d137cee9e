import PolicyGate.Store.Stored

/-!
The store in memory: JSON values under keys, whose objects are ordered by key. Records of all kinds
share it, each kind in its own keyspace, and stay until they are deleted. Main statement: a deletion
takes away just the key that it names.
-/

namespace PolicyGate

/-- The key of a record among the records of all kinds. -/
def RecordType.fullKey {α : Type} (type : RecordType α) (key : String) : String :=
  type.keyspace ++ ":" ++ key

structure MemoryStore where
  documents : SortedMap Json

namespace MemoryStore

variable {α : Type}

def empty : MemoryStore := ⟨∅⟩

def get (s : MemoryStore) (type : RecordType α) (key : String) : Except StoreError (Option α) :=
  match s.documents.get? (type.fullKey key) with
  | none => .ok none
  | some document =>
    match type.ofJson document with
    | some record => .ok (some record)
    | none => .error (.codec "the document is no record of its kind")

def put (s : MemoryStore) (type : RecordType α) (key : String) (record : α) : MemoryStore :=
  ⟨s.documents.insert (type.fullKey key) (type.toJson record).sorted⟩

def delete (s : MemoryStore) (type : RecordType α) (key : String) : MemoryStore :=
  ⟨s.documents.erase (type.fullKey key)⟩

def size (s : MemoryStore) : Nat := s.documents.size

theorem get_delete_self (s : MemoryStore) (type : RecordType α) (key : String) :
    (s.delete type key).get type key = .ok none := by
  simp [get, delete, SortedMap.get?_erase]

theorem get_delete_of_ne {β : Type} (s : MemoryStore) (type : RecordType α) (other : RecordType β)
    {key key' : String} (h : other.fullKey key' ≠ type.fullKey key) :
    (s.delete type key).get other key' = s.get other key' := by
  simp [get, delete, SortedMap.get?_erase, h]

end MemoryStore

end PolicyGate
