import PolicyGate.Host.Folder

/-!
Where a database file lies. Its path is taken name by name before anything is opened, so a folder
that the path leaves again need not be there. Main statement: leaving a folder that was just entered
leads back.
-/

namespace PolicyGate

/-- A place that a path leads to. -/
structure Location where
  isAbsolute : Bool
  /-- the names on the way to it, last first -/
  names : List String
  deriving DecidableEq, Repr

/-- How a database file is guarded against others that open it. -/
inductive FileGuard where
  | locks
  | lockFolder
  | exclusive
  | unguarded
  /-- there is no file -/
  | memory
  deriving DecidableEq, Repr

namespace Location

/-- The place from which a path starts. -/
def origin (path : String) : Location := ⟨path.startsWith "/", []⟩

/-- The place that one more name leads to. -/
def enter (l : Location) (name : String) : Location :=
  if name = "" ∨ name = "." then l
  else if name = ".." then
    match l.names with
    | [] => if l.isAbsolute then l else { l with names := [".."] }
    | last :: outer => { l with names := if last = ".." then ".." :: last :: outer else outer }
  else { l with names := name :: l.names }

/-- The places that some names lead to, one after the other. -/
def stops (l : Location) : List String → List Location
  | [] => []
  | name :: rest => l.enter name :: stops (l.enter name) rest

/-- The places on the way of a path. -/
def stopsOf (path : String) : List Location := (origin path).stops (Folder.names path)

/-- The place that a path leads to. -/
def ofPath (path : String) : Location := (Folder.names path).foldl enter (origin path)

/-- The shortest path to a place. -/
def path (l : Location) : String :=
  if l.isAbsolute then "/" ++ "/".intercalate l.names.reverse
  else if l.names = [] then "."
  else "/".intercalate l.names.reverse

/-- The folder around a place. -/
def outer (l : Location) : Location := { l with names := l.names.tail }

theorem enter_enter_up (l : Location) (name : String)
    (h : name ≠ "" ∧ name ≠ "." ∧ name ≠ "..") : (l.enter name).enter ".." = l := by
  simp [enter, h.1, h.2.1, h.2.2]

end Location

namespace FileGuard

def ofName? : String → Option FileGuard
  | "unix" => some locks
  | "unix-dotfile" => some lockFolder
  | "unix-excl" => some exclusive
  | "unix-none" => some unguarded
  | "memdb" => some memory
  | _ => none

/-- The endings of the files beside a database file that are opened or deleted with it. -/
def companions : FileGuard → List String
  | locks => ["-journal", "-wal", "-shm"]
  | lockFolder | exclusive | unguarded => ["-journal", "-wal"]
  | memory => []

/-- The ending of the folder that must not be there yet. -/
def lockEnding : String := ".lock"

/-- The octets that a name can have. -/
def nameLimit : Nat := 255

/-- The octets of the longest ending. -/
def endingLength : Nat := "-journal".utf8ByteSize

/-- Whether a database can begin in what is there: in nothing or in an empty file, as which one of a
single octet counts as well. -/
def isVacant : Option FileNode → Bool
  | none => true
  | some (.text content) => content.utf8ByteSize ≤ 1
  | some (.octets content) => content.length ≤ 1
  | some .folder => false

/-- Whether the name of a place can be looked up where it stands. -/
def isReachable (folder : Folder) (place : Location) : Bool :=
  match place.names with
  | [] => true
  | name :: _ => name.utf8ByteSize ≤ nameLimit && !folder.hasFile place.outer.path

/-- Whether a database can be opened at a path: in a folder that is there, in place of nothing but
an empty file, and without folders in place of the files beside it. -/
def canOpen (folder : Folder) (guard : FileGuard) (path : String) : Bool :=
  let place := Location.ofPath path
  (Location.stopsOf path).all (isReachable folder) &&
    place.names.head?.any (·.utf8ByteSize + endingLength ≤ nameLimit) &&
    folder.node? place.outer.path = some .folder &&
    isVacant (folder.node? place.path) &&
    guard.companions.all (fun ending => folder.node? (place.path ++ ending) ≠ some .folder) &&
    (guard ≠ lockFolder || !folder.contains (place.path ++ lockEnding))

/-- The paths at which something may keep a database from being opened. -/
def inspected (guard : FileGuard) (path : String) : List String :=
  let place := (Location.ofPath path).path
  (Location.origin path).path :: (Location.stopsOf path).map Location.path ++
    (lockEnding :: guard.companions).map (place ++ ·)

end FileGuard

end PolicyGate
