import PolicyGate.Topic.Envelope

/-!
A topic: a log that only grows, until it is closed. Whoever adds an entry gives it the length of the
log as its offset. Whoever watches the log learns of every growth and of the closing by a version
that is raised; growing and raising are separate steps, and so are closing and raising. Main
statements: the offset of an entry is its place, committed entries stay where they are, and a reader
yields the entry at its position and moves one place on.
-/

namespace PolicyGate

/-- A log with its name and what its watchers see. -/
structure Log (α : Type) where
  name : String
  entries : List (Entry α)
  isClosed : Bool
  /-- how often a change was signalled -/
  version : Nat
  /-- the end of the log as last signalled -/
  signalledEnd : Nat
  /-- the offsets that the entries were given are their places -/
  placed : entries.map Entry.offset = List.range entries.length

namespace Log

variable {α : Type} {l : Log α} {offset : Nat} {entry : Entry α}

/-- The open log without entries. -/
def new (name : String) : Log α := ⟨name, [], false, 0, 0, rfl⟩

/-- What was published, in order. -/
def envelopes (l : Log α) : List (Envelope α) := l.entries.map Entry.envelope

/-- The number of entries, which is the offset of the next one. -/
def endOffset (l : Log α) : Nat := l.entries.length

/-- The entry at a place. -/
def read (l : Log α) (offset : Nat) : Option (Entry α) := l.entries[offset]?

/-- The entry at an offset that may be negative. -/
def readAt (l : Log α) (offset : Int) : Option (Entry α) :=
  if offset < 0 then none else l.read offset.toNat

/-- The entries from a place on; a negative one stands for the start. -/
def readFrom (l : Log α) (offset : Int) : List (Entry α) := l.entries.drop offset.toNat

/-- Adds an entry, without signalling it. -/
def append (l : Log α) (envelope : Envelope α) : Log α :=
  { l with
    entries := l.entries ++ [⟨l.endOffset, envelope⟩]
    placed := by simp [l.placed, endOffset, List.range_succ] }

/-- Signals an end of the log. -/
def signal (l : Log α) (end_ : Nat) : Log α :=
  { l with version := l.version + 1, signalledEnd := end_ }

/-- Closes the log, without signalling it. -/
def markClosed (l : Log α) : Log α := { l with isClosed := true }

/-- Signals that something changed. -/
def signalAgain (l : Log α) : Log α := l.signal l.signalledEnd

/-- The error about a log that is closed. -/
def closedError (l : Log α) : TopicClosed := ⟨l.name⟩

/-- Adds an entry to an open log and signals it; also the offset of the entry. -/
def publish (l : Log α) (envelope : Envelope α) : Except TopicClosed (Nat × Log α) :=
  if l.isClosed then .error l.closedError
  else .ok (l.endOffset, (l.append envelope).signal (l.endOffset + 1))

def close (l : Log α) : Log α := l.markClosed.signalAgain

theorem length_envelopes (l : Log α) : l.envelopes.length = l.endOffset := List.length_map ..

theorem envelopes_append (l : Log α) (envelope : Envelope α) :
    (l.append envelope).envelopes = l.envelopes ++ [envelope] := by
  simp [envelopes, append]

/-- The offset that an entry was given is the place at which it is found. -/
theorem offset_of_read (h : l.read offset = some entry) : entry.offset = offset := by
  have hplace : (l.entries.map Entry.offset)[offset]? = some entry.offset := by
    rw [List.getElem?_map, ← read, h, Option.map_some]
  rw [l.placed, List.getElem?_range (List.getElem?_eq_some_iff.1 h).1] at hplace
  exact (Option.some.inj hplace).symm

/-- What is read at an offset is the envelope at this place of the log. -/
theorem read_eq_map (l : Log α) (offset : Nat) :
    l.read offset = (l.envelopes[offset]?).map fun envelope => ⟨offset, envelope⟩ := by
  rw [envelopes, List.getElem?_map, ← read]
  cases h : l.read offset with
  | none => rfl
  | some entry =>
    cases offset_of_read h
    rfl

theorem exists_of_read (h : l.read offset = some entry) :
    ∃ envelope, l.envelopes[offset]? = some envelope ∧ ⟨offset, envelope⟩ = entry :=
  Option.map_eq_some_iff.1 ((l.read_eq_map offset).symm.trans h)

theorem length_le_of_read (h : l.read offset = none) : l.envelopes.length ≤ offset := by
  rw [length_envelopes]
  exact List.getElem?_eq_none_iff.1 h

theorem read_append_of_lt (l : Log α) (envelope : Envelope α) (h : offset < l.endOffset) :
    (l.append envelope).read offset = l.read offset :=
  List.getElem?_append_left h

theorem read_append_end (l : Log α) (envelope : Envelope α) :
    (l.append envelope).read l.endOffset = some ⟨l.endOffset, envelope⟩ :=
  List.getElem?_concat_length ..

end Log

/-- Who reads a log from some place on: the place of the next entry, and the version seen last. -/
structure Reader where
  position : Nat
  seen : Nat
  deriving DecidableEq, Repr

/-- What a reader gets. -/
inductive ReaderAnswer (α : Type) where
  | entry (entry : Entry α)
  /-- the log is closed and has been read -/
  | ended
  /-- there is nothing yet -/
  | pending

namespace Reader

variable {α : Type}

/-- A reader from an offset on; a negative one stands for the start. -/
def new (l : Log α) (offset : Int) : Reader := ⟨offset.toNat, l.version⟩

/-- A reader behind all entries. -/
def tail (l : Log α) : Reader := new l l.endOffset

/-- Marks the version as seen. -/
def look (r : Reader) (l : Log α) : Reader := { r with seen := l.version }

/-- The next entry, the end or nothing yet. -/
def next (r : Reader) (l : Log α) : ReaderAnswer α × Reader :=
  let r := r.look l
  match l.read r.position with
  | some entry => (.entry entry, { r with position := r.position + 1 })
  | none => (if l.isClosed then .ended else .pending, r)

/-- Whether a change was signalled that the reader has not seen. -/
def hasNews (r : Reader) (l : Log α) : Bool := r.seen ≠ l.version

theorem position_next_of_read {r : Reader} {l : Log α} {entry : Entry α}
    (h : l.read r.position = some entry) :
    r.next l = (.entry entry, ⟨r.position + 1, l.version⟩) := by
  simp [next, look, h]

theorem next_of_read_eq_none {r : Reader} {l : Log α} (h : l.read r.position = none) :
    r.next l = (if l.isClosed then .ended else .pending, ⟨r.position, l.version⟩) := by
  simp [next, look, h]

end Reader

end PolicyGate
