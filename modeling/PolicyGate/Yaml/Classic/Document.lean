import PolicyGate.Yaml.Classic.Scan
import PolicyGate.Yaml.Source

/-!
Documents in the classic edition of YAML: a text holds one at most, which directives may precede.
Main statement: a text without tokens is the tree without a node.
-/

namespace PolicyGate.Yaml.Classic

/-- Reads the directives before a document: the version at most once, and each tag handle once. -/
def readDirectives : List Token → Bool → List (String × String) →
    Option (List (String × String) × List Token)
  | .version :: rest, seen, handles => if seen then none else readDirectives rest true handles
  | .tagHandle handle lead :: rest, seen, handles =>
    if handles.any (·.1 = handle) then none
    else readDirectives rest seen ((handle, lead) :: handles)
  | rest, _, handles => some (handles, rest)

/-- The tag handles that every document knows. -/
def standardHandles : List (String × String) := [("!", "!"), ("!!", Tag.coreLead)]

/-- Whether a document has no content of its own where it starts. -/
def startsEmpty (s : Source) : Bool :=
  match s.next with
  | none | some .version | some (.tagHandle ..) | some .documentStart | some .documentEnd => true
  | _ => false

/-- Reads the content of a document. -/
def readContent (isExplicit : Bool) (handles : List (String × String)) (tokens : List Token) :
    Option (Node × Source) :=
  let s := Source.ofTokens .classic (handles ++ standardHandles) tokens
  if isExplicit && startsEmpty s then some (s.empty, s)
  else Node.read (2 * tokens.length + 4) true false s

/-- The tree of the only document of a list of tokens, which only marks of its end may follow. -/
def ofTokens? : List Token → Option Tree
  | [] => some ⟨.nothing, []⟩
  | tokens => do
    let isBare := match tokens.head? with
      | some .version | some (.tagHandle ..) | some .documentStart => false
      | _ => true
    let (node, s) ←
      if isBare then readContent false [] tokens
      else match ← readDirectives tokens false [] with
        | (handles, .documentStart :: rest) => readContent true handles rest
        | _ => none
    if s.tokens.all (· = .documentEnd) then some ⟨node, s.targets⟩ else none

def parse (text : String) : Option Tree := (lex text).bind ofTokens?

theorem ofTokens?_nil : ofTokens? [] = some ⟨.nothing, []⟩ := rfl

end PolicyGate.Yaml.Classic
