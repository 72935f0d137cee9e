import PolicyGate.Json.Token
import PolicyGate.Store.Location

/-!
Addresses of database files: a path behind the scheme, and options behind a question mark. Main
statement: no table can be made at a read-only address.
-/

namespace PolicyGate

/-- An address taken apart. -/
structure TableAddress where
  path : String
  inMemory : Bool := false
  isReadOnly : Bool := false
  isImmutable : Bool := false
  vfs : Option String := none
  deriving DecidableEq, Repr

namespace TableAddress

/-- Takes a text away from the start of another as often as it stands there. -/
def dropRepeated (lead : List Char) : Nat → List Char → List Char
  | 0, cs => cs
  | fuel + 1, cs =>
    if lead.isPrefixOf cs then dropRepeated lead fuel (cs.drop lead.length) else cs

/-- The part behind the scheme. -/
def withoutScheme (cs : List Char) : List Char :=
  dropRepeated "//".toList cs.length (dropRepeated "sqlite:".toList cs.length cs)

/-- The octets of a text in which a percent sign and two digits spell one; another percent sign
stands for itself. -/
def decodedOctets : List Char → List UInt8
  | '%' :: a :: b :: rest =>
    match Json.hexValue? a, Json.hexValue? b with
    | some high, some low => UInt8.ofNat (high * 16 + low) :: decodedOctets rest
    | _, _ => UInt8.ofNat 37 :: decodedOctets (a :: b :: rest)
  | c :: rest => (String.singleton c).toUTF8.toList ++ decodedOctets rest
  | [] => []

/-- A text with its octets decoded. -/
def decoded? (cs : List Char) : Option String := String.fromUTF8? ⟨(decodedOctets cs).toArray⟩

/-- A text of an option with its octets decoded; a plus sign stands for a space. -/
def optionText? (cs : List Char) : Option String :=
  decoded? (cs.map fun c => if c = '+' then ' ' else c)

/-- A truth value of an option. -/
def flag? (text : String) : Option Bool :=
  if text = "true" ∨ text = "1" then some true
  else if text = "false" ∨ text = "0" then some false
  else none

/-- The address with one more option. -/
def withOption (address : TableAddress) (name value : String) : Option TableAddress :=
  match name with
  | "mode" =>
    match value with
    | "ro" => some { address with isReadOnly := true }
    | "rw" => some address
    | "rwc" => some address
    | "memory" => some { address with inMemory := true }
    | _ => none
  | "cache" => if value = "private" ∨ value = "shared" then some address else none
  | "immutable" => (flag? value).map fun flag => { address with isImmutable := flag }
  | "vfs" => some { address with vfs := some value }
  | _ => none

/-- The name and the value of an option. -/
def optionParts (cs : List Char) : Option (String × String) := do
  return (← optionText? (cs.takeWhile (· ≠ '=')), ← optionText? ((cs.dropWhile (· ≠ '=')).drop 1))

/-- The options of a text, with ampersands between them. -/
def options (text : String) : List (List Char) :=
  ((text.splitOn "&").map String.toList).filter (· ≠ [])

/-- The address that a text spells. -/
def parse? (text : String) : Option TableAddress := do
  let cs := withoutScheme text.toList
  let path := cs.takeWhile (· ≠ '?')
  let start : TableAddress ←
    if path = ":memory:".toList then some { path := ":memory:", inMemory := true }
    else (decoded? path).map fun path => { path }
  (options (String.ofList ((cs.dropWhile (· ≠ '?')).drop 1))).foldlM (fun address option => do
    let (name, value) ← optionParts option
    address.withOption name value) start

/-- The part of a text before its first zero. -/
def beforeZero (text : String) : String := String.ofList (text.toList.takeWhile (·.toNat ≠ 0))

/-- What follows the authority of a file, which is no other than this machine. -/
def withoutAuthority? (cs : List Char) : Option (List Char) :=
  if "//".toList.isPrefixOf cs then
    let authority := (cs.drop 2).takeWhile (· ≠ '/')
    if authority = [] ∨ authority = "localhost".toList then some (cs.drop (2 + authority.length))
    else none
  else some cs

/-- The path of a file that is given by its own scheme. -/
def filePath? (cs : List Char) : Option String := do
  let path ← withoutAuthority? cs
  (decoded? (path.takeWhile fun c => c ≠ '#' ∧ c ≠ '?')).map beforeZero

/-- Whether an address has options that are read again when its database is opened. -/
def hasOptions (address : TableAddress) : Bool := address.isImmutable || address.vfs.isSome

/-- Whether a database can be asked for at an address: a path is handed over as it is, up to its
first zero, unless there are options with it. -/
def isSpellable (address : TableAddress) : Bool :=
  address.hasOptions || address.path.toList.all (·.toNat ≠ 0)

/-- The address that is opened for an address. -/
def target? (address : TableAddress) : Option TableAddress :=
  if address.hasOptions then
    some { address with path := beforeZero address.path, vfs := address.vfs.map beforeZero }
  else if address.path.startsWith "file:" then
    (filePath? (address.path.toList.drop "file:".length)).map fun path => { address with path }
  else some address

/-- How the database file is guarded. -/
def guard? (address : TableAddress) : Option FileGuard :=
  address.vfs.elim (some .locks) FileGuard.ofName?

/-- Whether a database has no name under which it could be found again. -/
def isNameless (address : TableAddress) : Bool :=
  address.inMemory || address.path = "" || address.path = ":memory:"

/-- Whether a database is gone when it is closed. -/
def isTransient (address : TableAddress) : Bool :=
  address.isNameless || address.guard? = some .memory

/-- Whether a database with a table can be made at an address. -/
def isUsable (folder : Folder) (address : TableAddress) : Bool :=
  !address.isReadOnly && address.guard?.any fun guard =>
    address.isNameless ||
      !address.isImmutable && (guard = .memory || guard.canOpen folder address.path)

/-- The paths that decide whether an address is usable. -/
def inspected (address : TableAddress) : List String :=
  if address.isTransient then []
  else address.guard?.elim [] fun guard => guard.inspected address.path

theorem isUsable_of_isReadOnly (folder : Folder) {address : TableAddress}
    (h : address.isReadOnly = true) : address.isUsable folder = false := by
  simp [isUsable, h]

end TableAddress

end PolicyGate
