import PolicyGate.Json.Value
import PolicyGate.Number.DecimalText
import PolicyGate.Wire.Reader
import PolicyGate.Yaml.Classic.Document

/-!
Taking YAML documents apart. A plain scalar may be read as a text in any case, as a number if it
spells one, and as an absent value if it is empty or spells null; where a collection is asked for,
an empty plain scalar is an empty collection. An alias is followed where it is read, and only so
often. Main statement: following a scalar changes nothing.
-/

namespace PolicyGate.Yaml.Node

/-- Whether a tag is one that the language itself defines. -/
def isCore (tag : Option Tag) (name : String) : Bool :=
  tag.map Tag.full = some (Tag.coreLead ++ name)

/-- The name of a tag that the document makes up for itself. -/
def localTag? (tag : Option Tag) : Option String :=
  match tag.map fun tag => tag.full.toList with
  | some ['!'] => some "!"
  | some ('!' :: name) => some (String.ofList name)
  | _ => none

def spellsNull (text : String) : Bool :=
  text = "~" || text = "null" || text = "Null" || text = "NULL"

/-- The truth value that a text spells. -/
def bool? (text : String) : Option Bool :=
  if text = "true" ∨ text = "True" ∨ text = "TRUE" then some true
  else if text = "false" ∨ text = "False" ∨ text = "FALSE" then some false
  else none

/-- The number of a list of digits of a base up to sixteen; there is at least one. -/
def digits? (base : Nat) (cs : List Char) : Option Nat :=
  if cs = [] then none
  else cs.foldlM (fun n c => do
    let digit ← hexNumber? [c]
    if digit < base then some (n * base + digit) else none) 0

/-- Whether digits start with a zero that is not alone: they are no number. -/
def hasLeadingZero (cs : List Char) : Bool :=
  cs.head? = some '0' && 1 < cs.length && cs.all Char.isDigit

/-- The number without a sign that a text spells: decimal, or in the base of its mark. -/
def magnitude? : List Char → Option Nat
  | '0' :: 'x' :: rest => digits? 16 rest
  | '0' :: 'o' :: rest => digits? 8 rest
  | '0' :: 'b' :: rest => digits? 2 rest
  | cs => if hasLeadingZero cs then none else digits? 10 cs

/-- The whole number that a text spells. -/
def whole? (text : String) : Option Int :=
  match text.toList with
  | '-' :: rest => (magnitude? rest).map fun n => -(n : Int)
  | '+' :: rest => (magnitude? rest).map Int.ofNat
  | cs => (magnitude? cs).map Int.ofNat

/-- Whether a text spells a number that is not finite. -/
def spellsNonFinite (text : String) : Bool :=
  ["", "+", "-"].any (fun sign => [".inf", ".Inf", ".INF"].any fun word => text = sign ++ word) ||
    text = ".nan" || text = ".NaN" || text = ".NAN"

/-- The finite floating-point number that a text spells. -/
def float? (text : String) : Option Binary64 := DecimalText.parse? text.toList

/-- The value of a number that a text spells as a floating-point number. -/
def floatValue? (text : String) : Option Json :=
  if spellsNonFinite text then some .null else (float? text).map fun x => .number (.float x)

/-- The bounds of the whole numbers that a value can hold. -/
def minWhole : Int := -9223372036854775808

/-- The greatest whole number that a value can hold. -/
def maxWhole : Int := 18446744073709551615

/-- The least whole number that is not read as a floating-point number for its size. -/
def minWide : Int := -170141183460469231731687303715884105728

/-- The greatest whole number that is not read as a floating-point number for its size. -/
def maxWide : Int := 340282366920938463463374607431768211455

/-- What a text spells as a whole number: nothing if it spells none, and no value if it is one that
a value cannot hold. -/
def wholeValue? (text : String) : Option (Option Json) :=
  match whole? text with
  | some n =>
    if minWhole ≤ n ∧ n ≤ maxWhole then some (some (.int n))
    else if minWide ≤ n ∧ n ≤ maxWide then some none
    else none
  | none => none

/-- The value of a plain scalar without a tag. -/
def plainValue? (text : String) : Option Json :=
  if text = "" ∨ spellsNull text then some .null
  else match bool? text with
    | some b => some (.bool b)
    | none =>
      match wholeValue? text with
      | some value => value
      | none =>
        let unsigned := (DecimalText.sign text.toList).2
        if hasLeadingZero unsigned then some (.string text)
        else some ((floatValue? text).getD (.string text))

def scalarValue? (text : String) (style : ScalarStyle) (tag : Option Tag) : Option Json :=
  if tag.isNone then if style = .plain then plainValue? text else some (.string text)
  else if isCore tag "bool" then (bool? text).map .bool
  else if isCore tag "int" then (wholeValue? text).join
  else if isCore tag "float" then floatValue? text
  else if isCore tag "null" then if spellsNull text then some .null else none
  else if (localTag? tag).isSome then none
  else some (.string text)

/-- The effect of reading nodes, with the number of aliases that may still be followed. -/
abbrev Following := StateT Nat Option

/-- How many aliases may be followed for each event of a document. -/
def aliasesPerEvent : Nat := 100

/-- The node itself, or the one that it stands for. -/
def follow (targets : Targets) : Node → Following Node
  | .alias target => fun left =>
    if left = 0 then none else (targets.lookup target).map (·, left - 1)
  | node => pure node

/-- Whether nothing is written where a collection is asked for. -/
def isBlankNode : Node → Bool
  | .nothing => true
  | .scalar text style _ => text = "" && style = .plain
  | _ => false

/-- The greatest depth to which values nest. -/
def maxDepth : Nat := 128

variable (targets : Targets)

/-- The text of a scalar. -/
def text? (node : Node) : Following String := do
  match ← follow targets node with
  | .scalar text _ _ => return text
  | _ => Wire.Decoding.refuse

/-- The JSON value of a node that nests at most to the given depth. -/
def value? : Nat → Node → Following Json
  | depth, node => do
    match ← follow targets node with
    | .scalar text style tag => Wire.given (scalarValue? text style tag)
    | .sequence tag items =>
      match depth with
      | 0 => Wire.Decoding.refuse
      | depth + 1 =>
        if (localTag? tag).isSome then Wire.Decoding.refuse
        else return .array (← items.mapM (value? depth))
    | .mapping tag entries =>
      match depth with
      | 0 => Wire.Decoding.refuse
      | depth + 1 =>
        if (localTag? tag).isSome then Wire.Decoding.refuse
        else return .ofMembers (← entries.mapM fun (key, value) => do
          return (← text? targets key, ← value? depth value))
    | _ => Wire.Decoding.refuse

/-- The JSON values of the entries of a mapping, ordered by key. -/
def members? (node : Node) : Following (List (String × Json)) := do
  let node ← follow targets node
  if node.isBlankNode then return []
  match node with
  | .mapping _ entries =>
    let members ← entries.mapM fun (key, value) => do
      return (← text? targets key, ← value? targets (maxDepth - 1) value)
    return (SortedMap.ofList members).toList
  | _ => Wire.Decoding.refuse

/-- The node itself, unless it stands for an absent value. What has the tag of null must spell
it. -/
def present? (node : Node) : Following (Option Node) := do
  let node ← follow targets node
  match node with
  | .nothing => return none
  | .scalar text .plain tag =>
    if isCore tag "null" then if spellsNull text then return none else Wire.Decoding.refuse
    else if tag.isNone ∧ (text = "" ∨ spellsNull text) then return none
    else return some node
  | _ => return some node

/-- The whole number of a scalar, if it has at most 64 bits. -/
def int? (node : Node) : Following Int := do
  match ← follow targets node with
  | .scalar text style tag =>
    if style = .plain ∨ (style = .literal ∧ isCore tag "int") then
      Wire.given ((whole? text).filter fun n => minWhole ≤ n ∧ n ≤ 9223372036854775807)
    else Wire.Decoding.refuse
  | _ => Wire.Decoding.refuse

/-- The entries of a mapping, with the texts of their keys. -/
def entries? (node : Node) : Following (List (String × Node)) := do
  let node ← follow targets node
  if node.isBlankNode then return []
  match node with
  | .mapping _ entries => entries.mapM fun (key, value) => return (← text? targets key, value)
  | _ => Wire.Decoding.refuse

def reader : Wire.Reader Following Node where
  text := text? targets
  int := int? targets
  present := present? targets
  list node := do
    let node ← follow targets node
    if node.isBlankNode then return []
    match node with
    | .sequence _ items => return items
    | _ => Wire.Decoding.refuse
  entries := entries? targets
  fields names node := do Wire.given (Wire.fieldsOfEntries names (← entries? targets node))
  choice names node := do
    match ← follow targets node with
    | .scalar text style tag =>
      let name := match localTag? tag with
        | some name =>
          if style = ScalarStyle.plain ∧ (text = "" ∨ spellsNull text) then some name else none
        | none => some text
      Wire.given (name.filter names.contains)
    | _ => Wire.Decoding.refuse

theorem follow_scalar (text : String) (style : ScalarStyle) (tag : Option Tag) :
    follow targets (.scalar text style tag) = pure (.scalar text style tag) := rfl

end Node

/-- Decodes a text with a decoder for nodes, which may follow as many aliases as the size of the
document allows. -/
def decode? {α : Type} (decoder : Targets → Node → Node.Following α) (text : String) :
    Option α := do
  let tree ← Classic.parse text
  (decoder tree.targets tree.root).run' (Node.aliasesPerEvent * tree.root.eventCount)

end PolicyGate.Yaml
