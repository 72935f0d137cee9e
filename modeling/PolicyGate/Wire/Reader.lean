/-!
Taking documents apart. A `Reader` says how the documents of one format answer the questions that a
decoder asks: for a text, a whole number, a list, a map, the named parts of a structure, a choice. A
decoder written against it works for every format. Main statement: a required part that is there is
decoded, and a part with a default that is not there is the default.
-/

namespace PolicyGate.Wire

/-- An effect in which documents are decoded: a decoder may refuse a document, and a format may keep
account of its own while it is read. -/
class Decoding (m : Type → Type) extends Monad m where
  /-- ends the decoding without a value -/
  refuse : {α : Type} → m α

instance : Decoding Option where
  refuse := none

/-- An account that is kept next to another effect. -/
instance {σ : Type} {m : Type → Type} [Decoding m] : Decoding (StateT σ m) where
  refuse := fun _ => Decoding.refuse

/-- A value that may be missing: without it the document is refused. -/
def given {m : Type → Type} [Decoding m] {α : Type} : Option α → m α
  | some a => pure a
  | none => Decoding.refuse

theorem given_eq {α : Type} (value : Option α) : (given value : Option α) = value := by
  cases value <;> rfl

/-- The named parts of a structure, in the order of their declaration. -/
structure Fields (D : Type) where
  /-- the parts, each if present -/
  values : List (Option D)
  /-- whether they were given by their position instead of by name -/
  isPositional : Bool

namespace Fields

variable {m : Type → Type} [Decoding m] {D : Type} {α : Type}

/-- The part at a place. -/
def at? (fields : Fields D) (place : Nat) : Option D := (fields.values[place]?).join

/-- A part that must be there. -/
def required (fields : Fields D) (place : Nat) (decode : D → m α) : m α :=
  match fields.at? place with
  | some d => decode d
  | none => Decoding.refuse

/-- A part that has a default. -/
def withDefault (fields : Fields D) (place : Nat) (decode : D → m α) (default : α) : m α :=
  match fields.at? place with
  | some d => decode d
  | none => pure default

/-- A part that may be left out by name, but not by position. -/
def omissible (fields : Fields D) (place : Nat) (decode : D → m (Option α)) : m (Option α) :=
  match fields.at? place with
  | some d => decode d
  | none => if fields.isPositional then Decoding.refuse else pure none

theorem required_of_at? {fields : Fields D} {place : Nat} {d : D}
    (h : fields.at? place = some d) (decode : D → m α) :
    fields.required place decode = decode d := by
  simp [required, h]

theorem withDefault_of_at? {fields : Fields D} {place : Nat} (h : fields.at? place = none)
    (decode : D → m α) (default : α) : fields.withDefault place decode default = pure default := by
  simp [withDefault, h]

end Fields

/-- How the documents of a format are taken apart. -/
structure Reader (m : Type → Type) (D : Type) where
  /-- a text -/
  text : D → m String
  /-- a signed whole number of 64 bits -/
  int : D → m Int
  /-- the document itself, unless it stands for an absent value -/
  present : D → m (Option D)
  /-- the items of a list -/
  list : D → m (List D)
  /-- the entries of a map, in their order -/
  entries : D → m (List (String × D))
  /-- the parts of a structure with the given names -/
  fields : List String → D → m (Fields D)
  /-- the name of a choice without content, out of the given names -/
  choice : List String → D → m String

namespace Reader

variable {m : Type → Type} [Decoding m] {D : Type} {α : Type}

/-- A value that may be absent. -/
def optional (r : Reader m D) (decode : D → m α) (d : D) : m (Option α) := do
  match ← r.present d with
  | some d => return some (← decode d)
  | none => return none

def items (r : Reader m D) (decode : D → m α) (d : D) : m (List α) := do
  (← r.list d).mapM decode

/-- The decoded entries of a map, in their order. -/
def mapEntries (r : Reader m D) (decode : D → m α) (d : D) : m (List (String × α)) := do
  (← r.entries d).mapM fun (key, value) => return (key, ← decode value)

end Reader

/-- The parts with the given names among the entries of a map; an entry with another name is passed
over, and a name may occur only once. -/
def fieldsOfEntries {D : Type} (names : List String) (entries : List (String × D)) :
    Option (Fields D) :=
  let named := entries.filter fun entry => names.contains entry.1
  if (named.map Prod.fst).Nodup then
    some ⟨names.map fun name => (named.find? fun entry => entry.1 = name).map Prod.snd, false⟩
  else none

/-- The parts given by their position; there may be fewer, but not more than there are names. -/
def fieldsOfItems {D : Type} (names : List String) (items : List D) : Option (Fields D) :=
  if items.length ≤ names.length then some ⟨items.map some, true⟩ else none

end PolicyGate.Wire
