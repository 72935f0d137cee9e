import PolicyGate.Config.Setting
import PolicyGate.Number.DecimalText
import PolicyGate.Number.Int64Text
import PolicyGate.Number.Layout
import PolicyGate.Yaml.Revised.Document

/-!
Configuration files. A plain scalar is a number, a truth value or absent if it spells one, and is
shown again in its normal form where a text is asked for. Main statement: a quoted scalar is its
text.
-/

namespace PolicyGate.Setting

/-- What a scalar of a configuration file stands for. -/
inductive Scalar where
  | absent
  /-- it does not spell what its tag says -/
  | unreadable
  | bool (value : Bool)
  | int (value : Int)
  | real (text : String)
  | text (value : String)
  deriving DecidableEq, Repr

namespace Scalar

/-- The signed number of 64 bits that digits of a base spell. -/
def inBase? (base : Nat) (cs : List Char) : Option Int :=
  let (negative, digits) := DecimalText.sign cs
  if digits = [] then none
  else do
    let n ← digits.foldlM (fun n c => do
      let digit ← Yaml.hexNumber? [c]
      if digit < base then some (n * base + digit) else none) 0
    let value : Int := if negative then -(n : Int) else n
    if -9223372036854775808 ≤ value ∧ value ≤ 9223372036854775807 then some value else none

/-- The number with a mark for its base or its sign that a text spells. -/
def marked? (cs : List Char) : Option Int :=
  match cs with
  | '0' :: 'x' :: rest => inBase? 16 rest
  | '0' :: 'o' :: rest => inBase? 8 rest
  | '+' :: rest => inBase? 10 rest
  | _ => none

/-- The whole number that a text spells in decimal. -/
def int? (text : String) : Option Int :=
  match Int64Text.parse text with
  | .ok n => some n
  | .error _ => none

/-- Whether a text spells a number that is not finite, or not a number at all, behind a point. -/
def dotsNonFinite (text : String) : Bool :=
  ["", "+", "-"].any (fun sign => [".inf", ".Inf", ".INF"].any fun word => text = sign ++ word) ||
    text = ".nan" || text = ".NAN"

/-- The normal form of a number that is not finite, or not a number at all, and is named in letters
of any case. -/
def nonFinite? (text : String) : Option String :=
  let (negative, cs) := DecimalText.sign text.toList
  let word := String.ofList (cs.map Char.toLower)
  if word = "inf" ∨ word = "infinity" then some (if negative then "-inf" else "inf")
  else if word = "nan" then some "NaN"
  else none

/-- The text of a floating-point number; one that is too large is infinite. -/
def realText? (text : String) : Option String :=
  match nonFinite? text with
  | some word => some word
  | none => (DecimalText.parts? text.toList).map fun parts =>
    match parts.nearest? with
    | some x => String.ofList (x.layOut .plain)
    | none => if parts.negative then "-inf" else "inf"

/-- Whether a text spells a floating-point number. One behind a point has no normal form. -/
def isReal (text : String) : Bool :=
  dotsNonFinite text || (nonFinite? text).isSome || (DecimalText.parts? text.toList).isSome

/-- What a plain scalar stands for. -/
def ofPlain (text : String) : Scalar :=
  match marked? text.toList with
  | some n => .int n
  | none =>
    if text = "~" ∨ text = "null" then .absent
    else if text = "true" then .bool true
    else if text = "false" then .bool false
    else match int? text with
      | some n => .int n
      | none => if isReal text then .real text else .text text

/-- What a plain scalar with a tag of the language stands for. -/
def ofTagged (name text : String) : Scalar :=
  match name with
  | "bool" =>
    if text = "true" then .bool true else if text = "false" then .bool false else .unreadable
  | "int" => ((int? text).map .int).getD .unreadable
  | "float" => if isReal text then .real text else .unreadable
  | "null" => if text = "~" ∨ text = "null" then .absent else .unreadable
  | _ => .text text

/-- What a scalar stands for. Only a plain one can be anything but its text. -/
def ofNode (text : String) (style : Yaml.ScalarStyle) (tag : Option Yaml.Tag) : Scalar :=
  if style ≠ .plain then .text text
  else match tag with
    | none => ofPlain text
    | some tag => if tag.lead = Yaml.Tag.coreLead then ofTagged tag.suffix text else .text text

/-- The text of a truth value. -/
def boolText (b : Bool) : String := if b then "true" else "false"

def setting? : Scalar → Option Setting
  | absent => some .absent
  | unreadable => some .absent
  | bool value => some (.text (boolText value))
  | int value => some (.text (toString value))
  | real spelled => (realText? spelled).map .text
  | text value => some (.text value)

def key? : Scalar → Option String
  | absent => none
  | unreadable => none
  | bool value => some (boolText value)
  | int value => some (toString value)
  | real spelled => some spelled
  | text value => some value

end Scalar

def keyScalar? : Yaml.Node → Option Scalar
  | .scalar spelled style tag => some (.ofNode spelled style tag)
  | _ => none

/-- Whether a node stands for nothing that could be a key. -/
def isUnreadable (node : Yaml.Node) : Bool :=
  match node with
  | .nothing => true
  | node => keyScalar? node = some .unreadable

/-- Collects entries under the texts of their keys; of two keys with one text the later
one counts. -/
def collect (entries : List (String × Setting)) : List (String × Setting) :=
  entries.foldl (fun done entry => put entry.1 entry.2 done) []

abbrev Reading := Yaml.Node × Option Setting

/-- The entries that the nodes of a mapping make up, with the scalars that are their keys: each node
that can be a key takes the next one as its value. -/
def pair? : Option Yaml.Node → List Reading → Option (List (Scalar × Setting))
  | _, [] => some []
  | none, (node, _) :: rest => pair? (if isUnreadable node then none else some node) rest
  | some key, (_, setting) :: rest => do
    return (← keyScalar? key, ← setting) :: (← pair? none rest)

/-- The table of the nodes of a mapping; no two keys may be equal. -/
def table? (readings : List Reading) : Option Setting := do
  let entries ← pair? none readings
  if (entries.map Prod.fst).Nodup then
    let named ← entries.mapM fun (key, value) => key.key?.map (·, value)
    return .table (collect named)
  else none

mutual

def ofNode? : Yaml.Node → Option Setting
  | .nothing => some .absent
  | .alias _ => some .absent
  | .scalar spelled style tag => (Scalar.ofNode spelled style tag).setting?
  | .sequence _ items => (ofItems? items).map .list
  | .mapping _ entries => table? (readEntries entries)

def ofItems? : List Yaml.Node → Option (List Setting)
  | [] => some []
  | item :: rest => do return (← ofNode? item) :: (← ofItems? rest)

/-- The nodes of entries, keys and values alike, in their order. -/
def readEntries : List (Yaml.Node × Yaml.Node) → List Reading
  | [] => []
  | (key, value) :: rest => (key, ofNode? key) :: (value, ofNode? value) :: readEntries rest

end

/-- The entries of a configuration file; an empty one has none. -/
def ofDocument? (text : String) : Option (List (String × Setting)) := do
  match ← Yaml.Revised.parse text with
  | none => return []
  | some node =>
    match ← ofNode? node with
    | .table entries => return entries
    | _ => none

theorem ofNode_quoted (spelled : String) (tag : Option Yaml.Tag) :
    ofNode? (.scalar spelled .quoted tag) = some (.text spelled) := by
  simp [ofNode?, Scalar.ofNode, Scalar.setting?]

end PolicyGate.Setting
