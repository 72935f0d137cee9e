import PolicyGate.Store.Table
import PolicyGate.Store.Timed

/-!
The stores by their kind, with one way to read and write them all. A write to a cache may fail to
happen, when the clock cannot hold the end of the life of the entry. Main statement: reading leaves
a store in memory as it is.
-/

namespace PolicyGate

/-- A store of any kind. -/
inductive Store where
  | memory (store : MemoryStore)
  /-- a cache, with the sweepers that serve it -/
  | timed (swept : SweptCache)
  | table (store : TableStore)

namespace Store

variable {α : Type}

/-- Why a write did not happen. -/
inductive WriteFault where
  | failed (error : StoreError)
  /-- the clock cannot hold the end of the life of the entry -/
  | clockOverflow

/-- The record under a key, and the store after the reading. -/
def get (s : Store) (type : RecordType α) (now : Instant) (key : String) :
    Except StoreError (Option α) × Store :=
  match s with
  | memory store => (store.get type key, s)
  | timed swept =>
    let (answer, cache) := swept.cache.get type now key
    (answer, .timed { swept with cache })
  | table store => (store.get type key, s)

/-- Puts a record under a key. -/
def put (s : Store) (type : RecordType α) (now : Instant) (key : String) (record : α)
    (ttl : Option Duration) : Except WriteFault Store :=
  match s with
  | memory store => .ok (.memory (store.put type key record))
  | timed swept =>
    match swept.cache.put type now key record ttl with
    | some cache => .ok (.timed { swept with cache })
    | none => .error .clockOverflow
  | table store =>
    match store.put type key record with
    | .ok store => .ok (.table store)
    | .error e => .error (.failed e)

/-- Deletes the record under a key. -/
def delete (s : Store) (type : RecordType α) (key : String) : Except StoreError Store :=
  match s with
  | memory store => .ok (.memory (store.delete type key))
  | timed swept => .ok (.timed { swept with cache := swept.cache.delete type key })
  | table store => (store.delete type key).map .table

/-- The number of records, expired ones included. -/
def size : Store → Nat
  | memory store => store.size
  | timed swept => swept.cache.size
  | table store => match store.allRows with
    | .ok rows => rows.length
    | .error _ => 0

/-- The store after some time, in which the sweepers of a cache do their work. -/
def advance (s : Store) (now : Instant) (elapsed : Duration) : Store :=
  match s with
  | timed swept => .timed (swept.advance now elapsed)
  | s => s

/-- The cache without entries and sweepers. -/
def cache (ttl : Duration) : Store := .timed { cache := .new ttl }

theorem get_memory_store (store : MemoryStore) (type : RecordType α) (now : Instant)
    (key : String) : ((memory store).get type now key).2 = memory store := rfl

end Store

end PolicyGate
