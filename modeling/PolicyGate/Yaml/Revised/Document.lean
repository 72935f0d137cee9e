import PolicyGate.Yaml.Revised.Scan
import PolicyGate.Yaml.Source

/-!
Documents in the revised edition of YAML: a text holds one at most, which directives may precede; of
those only the last one has a meaning. Main statement: a text without tokens holds no document.
-/

namespace PolicyGate.Yaml.Revised

/-- Reads the directives before a document: the version at most once. Each of them takes the place
of the handles that were given a meaning before. -/
def readDirectives : List Token → Bool → List (String × String) →
    Option (List (String × String) × List Token)
  | .version :: rest, seen, _ => if seen then none else readDirectives rest true []
  | .tagHandle handle lead :: rest, seen, _ => readDirectives rest seen [(handle, lead)]
  | rest, _, handles => some (handles, rest)

/-- Whether a token stands before a document or behind it. -/
def isFraming : Token → Bool
  | .version | .tagHandle .. | .documentStart | .documentEnd => true
  | _ => false

/-- Reads the content of a document. -/
def readContent (isExplicit : Bool) (handles : List (String × String)) (tokens : List Token) :
    Option (Node × Source) :=
  let s := Source.ofTokens .revised handles tokens
  if isExplicit && s.next.all isFraming then some (s.empty, s)
  else Node.read (2 * tokens.length + 4) true false s

/-- The node of the only document of a list of tokens, if there is one. Marks of an end may precede
and follow it. -/
def ofTokens? (tokens : List Token) : Option (Option Node) :=
  match tokens.dropWhile (· = .documentEnd) with
  | [] => some none
  | first :: rest => do
    let (node, s) ←
      if isFraming first then
        match ← readDirectives (first :: rest) false [] with
        | (handles, .documentStart :: rest) => readContent true handles rest
        | _ => none
      else readContent false [] (first :: rest)
    if s.tokens.all (· = .documentEnd) then some (some node) else none

/-- The node of the document of a text, if there is one. -/
def parse (text : String) : Option (Option Node) := (lex text).bind ofTokens?

theorem ofTokens?_nil : ofTokens? [] = some none := rfl

end PolicyGate.Yaml.Revised
