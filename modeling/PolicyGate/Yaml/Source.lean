import PolicyGate.Yaml.Node

/-!
Nodes from tokens, by descending into collections. The editions of YAML differ in the node that
stands where nothing is written, in what an alias means and in whether a key may be left out. Main
statement: a scalar without an anchor or a tag is read as it is.
-/

namespace PolicyGate.Yaml

/-- An edition of the language. -/
inductive Edition where
  /-- that of policy documents, 1.1 -/
  | classic
  /-- that of configuration files, 1.2 -/
  | revised
  deriving DecidableEq, Repr

/-- What is left to read, and what is known so far. -/
structure Source where
  edition : Edition
  tokens : List Token
  /-- the meanings of the tag handles -/
  handles : List (String × String)
  /-- the number that each anchor stands for -/
  anchors : List (String × Nat)
  /-- how many nodes had an anchor -/
  anchored : Nat
  /-- the anchored nodes that have been read -/
  targets : Targets

namespace Source

/-- The start of the content of a document. -/
def ofTokens (edition : Edition) (handles : List (String × String)) (tokens : List Token) :
    Source :=
  ⟨edition, tokens, handles, [], 0, []⟩

def next (s : Source) : Option Token := s.tokens.head?

/-- Passes over the next token. -/
def skip (s : Source) : Source := { s with tokens := s.tokens.tail }

/-- Whether the next token is one of several. -/
def isAt (s : Source) (tokens : List Token) : Bool := s.next.any tokens.contains

/-- The scalar that stands where nothing is written: the revised edition spells out that it is
null. -/
def empty (s : Source) : Node :=
  .scalar (match s.edition with | .classic => "" | .revised => "~") .plain none

/-- Whether an entry of a mapping starts here. The revised edition lets a value do without a
key. -/
def startsEntry (s : Source) : Bool :=
  s.next = some .key || (s.edition = .revised && s.next = some .value)

/-- The number for the next node with an anchor. The revised edition gives every one a number of its
own; the classic one takes the number of different anchors, so that an anchor that is used again
leaves its number to the next one. -/
def nextNumber (s : Source) : Nat :=
  match s.edition with
  | .classic => s.anchors.length
  | .revised => s.anchored

/-- Starts a node with an anchor: from here on the anchor stands for it, and so does its number. -/
def claim (s : Source) : Option String → Option Nat × Source
  | none => (none, s)
  | some name =>
    let number := s.nextNumber
    (some number, { s with
      anchors := (name, number) :: s.anchors.filter (·.1 ≠ name)
      anchored := s.anchored + 1
      targets := s.targets.filter (·.1 ≠ number) })

/-- Ends a node with a number, which a node inside it may have taken over. -/
def settle (s : Source) (number : Option Nat) (node : Node) : Source :=
  match number with
  | none => s
  | some number =>
    if s.targets.any (·.1 = number) then s
    else { s with targets := (number, node) :: s.targets }

/-- The node for an alias. The classic edition leaves open what its number will stand for in the
end; the revised one takes the node that has been read. -/
def aliased? (s : Source) (name : String) : Option Node :=
  (s.anchors.lookup name).map fun number =>
    match s.edition with
    | .classic => .alias number
    | .revised => (s.targets.lookup number).getD .nothing

/-- Whether a handle has a name. -/
def isNamed (handle : String) : Bool :=
  2 ≤ handle.length && handle.startsWith "!" && handle.endsWith "!"

/-- The tag of a handle and a suffix. In the revised edition a handle without a name stands for
itself if it was given no meaning. -/
def tag? (s : Source) (handle suffix : String) : Option Tag :=
  match s.edition with
  | .classic =>
    if handle = "" then some ⟨"", suffix⟩ else (s.handles.lookup handle).map (⟨·, suffix⟩)
  | .revised =>
    match s.handles.lookup handle with
    | some lead => some ⟨lead, suffix⟩
    | none =>
      if handle = "!!" then some ⟨Tag.coreLead, suffix⟩
      else if isNamed handle then none
      else some ⟨handle, suffix⟩

end Source

namespace Node

/-- Reads the anchor and the tag of a node, in either order. -/
def readProperties (s : Source) : Option (Option String × Option Tag × Source) :=
  match s.tokens with
  | .anchor name :: .tag handle suffix :: rest =>
    (s.tag? handle suffix).map fun tag => (some name, some tag, { s with tokens := rest })
  | .tag handle suffix :: .anchor name :: rest =>
    (s.tag? handle suffix).map fun tag => (some name, some tag, { s with tokens := rest })
  | .anchor name :: rest => some (some name, none, { s with tokens := rest })
  | .tag handle suffix :: rest =>
    (s.tag? handle suffix).map fun tag => (none, some tag, { s with tokens := rest })
  | _ => some (none, none, s)

mutual

/-- Reads a node. Block collections may start where `inBlock` says so, and the items of a sequence
at the column of its key where `atKey` does. -/
def read : Nat → Bool → Bool → Source → Option (Node × Source)
  | 0, _, _, _ => none
  | fuel + 1, inBlock, atKey, s => do
    if let some (.alias name) := s.next then
      return (← s.aliased? name, s.skip)
    let (anchor, tag, s) ← readProperties s
    let (number, s) := s.claim anchor
    let finish (done : Node × Source) : Node × Source := (done.1, done.2.settle number done.1)
    let asSequence (done : List Node × Source) : Node × Source :=
      finish (.sequence tag done.1, done.2)
    let asMapping (done : List (Node × Node) × Source) : Node × Source :=
      finish (.mapping tag done.1, done.2)
    match s.next with
    | some .entry =>
      if atKey then (readItemsAtKey fuel s).map asSequence
      else if anchor.isSome ∨ tag.isSome then finish (.scalar "" .plain tag, s)
      else none
    | some (.scalar text style) => finish (.scalar text style tag, s.skip)
    | some .flowSequence => (readFlowItems fuel true s.skip).map asSequence
    | some .flowMapping => (readFlowEntries fuel true s.skip).map asMapping
    | token =>
      if inBlock ∧ token = some .blockSequence then (readItems fuel s.skip).map asSequence
      else if inBlock ∧ token = some .blockMapping then (readEntries fuel s.skip).map asMapping
      else if anchor.isSome ∨ tag.isSome then finish (.scalar "" .plain tag, s)
      else none

/-- Reads a node, or the empty one before certain tokens. -/
def readUnless : Nat → List Token → Bool → Bool → Source → Option (Node × Source)
  | 0, _, _, _, _ => none
  | fuel + 1, ends, inBlock, atKey, s =>
    if s.isAt ends then some (s.empty, s) else read fuel inBlock atKey s

/-- Reads the items of a block sequence, up to its end. -/
def readItems : Nat → Source → Option (List Node × Source)
  | 0, _ => none
  | fuel + 1, s =>
    match s.next with
    | some .entry => do
      let (item, s) ← readUnless fuel [.entry, .blockEnd] true false s.skip
      let (items, s) ← readItems fuel s
      return (item :: items, s)
    | some .blockEnd => some ([], s.skip)
    | _ => none

/-- Reads the items of a sequence at the column of its key. -/
def readItemsAtKey : Nat → Source → Option (List Node × Source)
  | 0, _ => none
  | fuel + 1, s =>
    if s.next = some .entry then do
      let (item, s) ← readUnless fuel [.entry, .key, .value, .blockEnd] true false s.skip
      let (items, s) ← readItemsAtKey fuel s
      return (item :: items, s)
    else some ([], s)

/-- Reads the entries of a block mapping, up to its end. -/
def readEntries : Nat → Source → Option (List (Node × Node) × Source)
  | 0, _ => none
  | fuel + 1, s =>
    let ends := [Token.key, .value, .blockEnd]
    if s.startsEntry then do
      let (key, s) ← if s.next = some .key then readUnless fuel ends true true s.skip
        else some (s.empty, s)
      let (value, s) ← if s.next = some .value then readUnless fuel ends true true s.skip
        else some (s.empty, s)
      let (entries, s) ← readEntries fuel s
      return ((key, value) :: entries, s)
    else if s.next = some .blockEnd then some ([], s.skip)
    else none

/-- Reads the items of a flow sequence, up to its end; an item with a key is a mapping of a single
entry. -/
def readFlowItems : Nat → Bool → Source → Option (List Node × Source)
  | 0, _, _ => none
  | fuel + 1, isFirst, s => do
    if s.next = some .flowSequenceEnd then return ([], s.skip)
    if !isFirst && s.next ≠ some .flowEntry then none
    let s := if isFirst then s else s.skip
    match s.next with
    | some .flowSequenceEnd => return ([], s.skip)
    | some .key =>
      let s := s.skip
      let (key, s) ← if s.isAt [.value, .flowEntry, .flowSequenceEnd] then some (s.empty, s.skip)
        else read fuel false false s
      let (value, s) ← if s.next = some .value then
          readUnless fuel [.flowEntry, .flowSequenceEnd] false false s.skip
        else some (s.empty, s)
      let (items, s) ← readFlowItems fuel false s
      return (.mapping none [(key, value)] :: items, s)
    | _ =>
      let (item, s) ← read fuel false false s
      let (items, s) ← readFlowItems fuel false s
      return (item :: items, s)

/-- Reads the entries of a flow mapping, up to its end. -/
def readFlowEntries : Nat → Bool → Source → Option (List (Node × Node) × Source)
  | 0, _, _ => none
  | fuel + 1, isFirst, s => do
    if s.next = some .flowMappingEnd then return ([], s.skip)
    if !isFirst && s.next ≠ some .flowEntry then none
    let s := if isFirst then s else s.skip
    if s.next = some .flowMappingEnd then return ([], s.skip)
    if s.startsEntry then
      let (key, s) ← if s.next = some .key then
          readUnless fuel [.value, .flowEntry, .flowMappingEnd] false false s.skip
        else some (s.empty, s)
      let (value, s) ← if s.next = some .value then
          readUnless fuel [.flowEntry, .flowMappingEnd] false false s.skip
        else some (s.empty, s)
      let (entries, s) ← readFlowEntries fuel false s
      return ((key, value) :: entries, s)
    else
      let (key, s) ← read fuel false false s
      let (entries, s) ← readFlowEntries fuel false s
      return ((key, s.empty) :: entries, s)

end

theorem read_scalar (fuel : Nat) (inBlock atKey : Bool) (text : String) (style : ScalarStyle)
    (rest : List Token) (s : Source) (h : s.tokens = .scalar text style :: rest) :
    read (fuel + 1) inBlock atKey s = some (.scalar text style none, s.skip) := by
  simp [read, Source.next, readProperties, Source.claim, Source.settle, h]

end Node

end PolicyGate.Yaml
