import PolicyGate.Store.Address
import PolicyGate.Store.Memory

/-!
The store in a database table: JSON texts under pairs of keyspace and key. It can be closed and
opened again, and its table can get lost. Main statement: a closed store answers nothing but that.
-/

namespace PolicyGate

structure TableStore where
  /-- where the database was opened -/
  address : TableAddress
  /-- the texts by keyspace and key, as long as the table is there -/
  rows : Option (SortedMap (SortedMap String))
  isOpen : Bool

namespace TableStore

variable {α : Type}

/-- The answer of a closed store. -/
def closedError : StoreError := .unavailable "sqlite: the store is closed"

/-- The answer when the table is not there. -/
def missingTableError : StoreError := .backend "sqlite: no such table"

/-- The answer when a database cannot be opened. -/
def unusableError : StoreError := .backend "sqlite: unable to open the database"

/-- The answer to an address that spells nothing. -/
def addressError : StoreError := .backend "invalid database url: unknown option"

/-- The answer to an address whose path cannot be handed over. -/
def pathError : StoreError := .unavailable "sqlite: the path holds a zero"

/-- Opens a database and makes its table. -/
def connect (folder : Folder) (url : String) : Except StoreError TableStore :=
  match TableAddress.parse? url with
  | none => .error addressError
  | some address =>
    if ¬ address.isSpellable then .error pathError
    else match address.target?.filter (·.isUsable folder) with
      | some target => .ok ⟨target, some ∅, true⟩
      | none => .error unusableError

/-- The rows of a store that can answer. -/
def openRows (s : TableStore) : Except StoreError (SortedMap (SortedMap String)) :=
  if ¬ s.isOpen then .error closedError
  else match s.rows with
    | some rows => .ok rows
    | none => .error missingTableError

def text? (rows : SortedMap (SortedMap String)) (keyspace key : String) : Option String :=
  (rows.get? keyspace).bind fun texts => texts.get? key

def write (s : TableStore) (keyspace key text : String) : Except StoreError TableStore :=
  s.openRows.map fun rows =>
    { s with rows := some (rows.insert keyspace
      (((rows.get? keyspace).getD ∅).insert key text)) }

def get (s : TableStore) (type : RecordType α) (key : String) : Except StoreError (Option α) := do
  let rows ← s.openRows
  match text? rows type.keyspace key with
  | none => return none
  | some text =>
    match type.ofText text with
    | some record => return some record
    | none => .error (.codec "the text is no record of its kind")

def put (s : TableStore) (type : RecordType α) (key : String) (record : α) :
    Except StoreError TableStore :=
  s.write type.keyspace key (type.toJson record).render

def delete (s : TableStore) (type : RecordType α) (key : String) : Except StoreError TableStore :=
  s.openRows.map fun rows =>
    { s with rows := some (rows.insert type.keyspace
      (((rows.get? type.keyspace).getD ∅).erase key)) }

/-- All rows in the order of keyspace and key. -/
def allRows (s : TableStore) : Except StoreError (List (String × String × String)) :=
  s.openRows.map fun rows => rows.toList.flatMap fun (keyspace, texts) =>
    texts.toList.map fun (key, text) => (keyspace, key, text)

def close (s : TableStore) : TableStore := { s with isOpen := false }

/-- Closes the store and opens it again; a table that got lost is made again, and a database
that no file holds is gone. -/
def reopen (s : TableStore) : TableStore :=
  { s with
    isOpen := true
    rows := some (if s.address.isTransient then ∅ else s.rows.getD ∅) }

/-- Takes the table away. -/
def dropTable (s : TableStore) : Except StoreError TableStore :=
  s.openRows.map fun _ => { s with rows := none }

theorem get_close (s : TableStore) (type : RecordType α) (key : String) :
    s.close.get type key = .error closedError := by
  simp [get, openRows, close, bind, Except.bind]

end TableStore

end PolicyGate
