import PolicyGate.Sorted.Map
import PolicyGate.Wire.Reader

/-!
Settings, from which a configuration is decoded: texts, lists and tables with keys in lower case.
Tables of several sources are laid over one another; a key may be a path into inner tables and
lists. Main statement: a text that is laid under a key replaces what was there.
-/

namespace PolicyGate

/-- A setting. A number or a truth value is held as its text. -/
inductive Setting where
  | absent
  | text (value : String)
  | list (items : List Setting)
  | table (entries : List (String × Setting))
  deriving Inhabited

namespace Setting

/-- The letter in lower case. Besides the capital letters of ASCII, the sign of the unit kelvin is
the only character whose lower case is an ASCII letter; others do not matter for the keys that are
known. -/
def lowerChar (c : Char) : Char := if c = '\u212a' then 'k' else c.toLower

def lower (key : String) : String := key.map lowerChar

/-- The entries of a table; anything else has none. -/
def entries : Setting → List (String × Setting)
  | table entries => entries
  | _ => []

/-- The items of a list; anything else has none. -/
def items : Setting → List Setting
  | list items => items
  | _ => []

/-- The value under a key. -/
def get? (key : String) (entries : List (String × Setting)) : Option Setting := entries.lookup key

/-- Puts a value under a key, in place of the one there. -/
def put (key : String) (value : Setting) : List (String × Setting) → List (String × Setting)
  | [] => [(key, value)]
  | entry :: rest => if entry.1 = key then (key, value) :: rest else entry :: put key value rest

mutual

/-- Lays a value under a key in lower case; a table is merged into the table there. -/
def assign (key : String) (entries : List (String × Setting)) : Setting → List (String × Setting)
  | table incoming =>
    put (lower key) (merge ((get? (lower key) entries).getD (.table [])) incoming) entries
  | absent => put (lower key) .absent entries
  | text value => put (lower key) (.text value) entries
  | list items => put (lower key) (.list items) entries

/-- Lays entries over what is there; anything but a table gives way to them. -/
def merge (target : Setting) : List (String × Setting) → Setting
  | [] => target
  | (key, value) :: rest => merge (.table (assign key target.entries value)) rest

end

/-- A step of a path behind its first key. -/
inductive PathStep where
  | child (key : String)
  | index (place : Int)
  deriving DecidableEq, Repr

/-- The place in a list of some length; a negative place counts from the end. -/
def placeIn (place : Int) (length : Nat) : Nat :=
  if 0 ≤ place then place.toNat else length - place.natAbs

/-- Changes the value under a key in lower case, which is absent if there was none. -/
def modifyKey (key : String) (f : Setting → Setting) (s : Setting) : Setting :=
  .table (put (lower key) (f ((get? (lower key) s.entries).getD .absent)) s.entries)

/-- Changes the item at a place; a list that is too short is filled up. -/
def modifyPlace (place : Int) (f : Setting → Setting) (s : Setting) : Setting :=
  let at_ : Nat := placeIn place s.items.length
  let filled := s.items ++ List.replicate (at_ + 1 - s.items.length) .absent
  .list (filled.modify at_ f)

/-- Lays a value at the end of the steps of a path. -/
def assignSteps (value : Setting) : List PathStep → Setting → Setting
  | [], _ => value
  | [.child key], s => .table (assign key s.entries value)
  | .child key :: rest, s => modifyKey key (assignSteps value rest) s
  | .index place :: rest, s => modifyPlace place (assignSteps value rest) s

/-- Lays a value at the end of a path that starts with a key. -/
def assignPath (s : Setting) (value : Setting) (key : String) : List PathStep → Setting
  | [] => .table (assign key s.entries value)
  | steps => modifyKey key (assignSteps value steps) s

/-- Whether a character may stand in a key of a path. -/
def isKeyChar (c : Char) : Bool := c.isAlphanum || c = ' ' || c = '_' || c = '-'

/-- Characters without the blanks around them. -/
def stripBlanks (cs : List Char) : List Char :=
  let isBlank (c : Char) : Bool := c = ' ' || c = '\t'
  ((cs.dropWhile isBlank).reverse.dropWhile isBlank).reverse

/-- The whole number of a list of decimal digits with an optional minus sign, and with blanks around
it. -/
def placeNumber? (cs : List Char) : Option Int :=
  let (negative, digits) := match stripBlanks cs with
    | '-' :: digits => (true, digits)
    | digits => (false, digits)
  if digits = [] ∨ ¬ digits.all Char.isDigit then none
  else
    let n : Nat := digits.foldl (fun n d => n * 10 + (d.toNat - 48)) 0
    let value : Int := if negative then -(n : Int) else n
    if -9223372036854775808 ≤ value ∧ value ≤ 9223372036854775807 then some value else none

/-- The steps that a text spells, each of which takes at least one character. -/
def pathSteps? : Nat → List Char → Option (List PathStep)
  | _, [] => some []
  | 0, _ => none
  | fuel + 1, '.' :: rest =>
    let key := rest.takeWhile isKeyChar
    if key = [] then none
    else (pathSteps? fuel (rest.dropWhile isKeyChar)).map (.child (String.ofList key) :: ·)
  | fuel + 1, '[' :: rest =>
    match rest.dropWhile (· ≠ ']') with
    | ']' :: after => do
      let place ← placeNumber? (rest.takeWhile (· ≠ ']'))
      return .index place :: (← pathSteps? fuel after)
    | _ => none
  | _, _ => none

/-- The first key and the steps of a path. -/
def path? (text : String) : Option (String × List PathStep) :=
  let cs := text.toList
  let key := cs.takeWhile isKeyChar
  if key = [] then none
  else (pathSteps? cs.length (cs.dropWhile isKeyChar)).map (String.ofList key, ·)

/-- Lays a value over settings under a key, which may be a path; a key that is none stands for
itself. -/
def lay (s : Setting) (key : String) (value : Setting) : Setting :=
  match path? key with
  | some (key, steps) => s.assignPath value key steps
  | none => .table (assign key s.entries value)

/-- Lays the entries of a source over settings. -/
def layAll (s : Setting) (source : List (String × Setting)) : Setting :=
  source.foldl (fun s entry => s.lay entry.1 entry.2) s

/-- The name among several that a text spells, whatever the case of its letters. -/
def choiceOf (names : List String) (text : String) : Option String :=
  names.find? fun name => lower name = lower text

/-- The reader for settings. A list stands for the first parts of a structure, and a table with a
single key for a choice. -/
def reader : Wire.Reader Option Setting where
  text
    | .text value => some value
    | _ => none
  int _ := none
  present
    | .absent => some none
    | setting => some (some setting)
  list
    | .list items => some items
    | _ => none
  entries
    | .table entries => some entries
    | _ => none
  fields names
    | .table entries => Wire.fieldsOfEntries names entries
    | .list items => Wire.fieldsOfItems names (items.take names.length)
    | _ => none
  choice names
    | .text value => choiceOf names value
    | .table [(key, _)] => choiceOf names key
    | _ => none

theorem get?_put (key : String) (value : Setting) (entries : List (String × Setting)) :
    get? key (put key value entries) = some value := by
  induction entries with
  | nil => simp [put, get?]
  | cons entry rest ih =>
    by_cases h : entry.1 = key
    · simp [put, h, get?]
    · have hb : (key == entry.1) = false := by simpa using fun e => h e.symm
      rw [put, if_neg h, get?, List.lookup_cons, hb]
      exact ih

theorem get?_assign_text (key value : String) (entries : List (String × Setting)) :
    get? (lower key) (assign key entries (.text value)) = some (.text value) := by
  rw [assign]
  exact get?_put _ _ _

end Setting

end PolicyGate
