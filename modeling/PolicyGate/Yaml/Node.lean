import PolicyGate.Yaml.Token

/-!
The nodes of a YAML document. An alias holds the number of the anchored node that it stands for, and
a tree is a node together with the anchored nodes. Main statement: a collection counts for two
events more than its contents.
-/

namespace PolicyGate.Yaml

/-- A tag: what its handle stands for, and the rest of it. -/
structure Tag where
  lead : String
  suffix : String
  deriving DecidableEq, Repr

namespace Tag

/-- The lead of the tags that the language itself defines. -/
def coreLead : String := "tag:yaml.org,2002:"

/-- The whole text of a tag. -/
def full (t : Tag) : String := t.lead ++ t.suffix

end Tag

/-- A node of a document. -/
inductive Node where
  /-- where there is none: in a text without any token, or inside the node that an alias means -/
  | nothing
  | scalar (text : String) (style : ScalarStyle) (tag : Option Tag)
  | sequence (tag : Option Tag) (items : List Node)
  | mapping (tag : Option Tag) (entries : List (Node × Node))
  /-- the anchored node with a number -/
  | alias (target : Nat)
  deriving Inhabited

namespace Node

mutual

/-- The number of events that tell of a node: one, or two around the contents of a collection. -/
def eventCount : Node → Nat
  | .nothing => 1
  | .scalar .. => 1
  | .alias _ => 1
  | .sequence _ items => itemEvents items + 2
  | .mapping _ entries => entryEvents entries + 2

/-- The number of events that tell of items. -/
def itemEvents : List Node → Nat
  | [] => 0
  | item :: rest => eventCount item + itemEvents rest

/-- The number of events that tell of entries. -/
def entryEvents : List (Node × Node) → Nat
  | [] => 0
  | (key, value) :: rest => eventCount key + eventCount value + entryEvents rest

end

theorem eventCount_sequence (tag : Option Tag) (item : Node) :
    eventCount (.sequence tag [item]) = eventCount item + 2 := by
  simp [eventCount, itemEvents]

end Node

/-- The anchored nodes of a document by their numbers. -/
abbrev Targets := List (Nat × Node)

/-- A document: its node, and the nodes that its aliases stand for. -/
structure Tree where
  root : Node
  targets : Targets

end PolicyGate.Yaml
