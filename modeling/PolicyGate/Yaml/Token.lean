/-!
The tokens of YAML text. Indentation becomes tokens that open and close block collections; a value
mark turns the scalar before it into a key, so that a key token goes in at a remembered place. Main
statement: inserting a token keeps all the others in their order.
-/

namespace PolicyGate.Yaml

/-- How a scalar is written. -/
inductive ScalarStyle where
  | plain
  | quoted
  | literal
  | folded
  deriving DecidableEq, Repr

inductive Token where
  | version
  | tagHandle (handle : String) (lead : String)
  | documentStart
  | documentEnd
  | blockSequence
  | blockMapping
  | blockEnd
  | flowSequence
  | flowSequenceEnd
  | flowMapping
  | flowMappingEnd
  | entry
  | flowEntry
  | key
  | value
  | alias (name : String)
  | anchor (name : String)
  | tag (handle : String) (suffix : String)
  | scalar (text : String) (style : ScalarStyle)
  deriving DecidableEq, Repr

namespace Token

/-- A place where a key may turn out to have started. -/
structure KeyMark where
  /-- the number of tokens before it -/
  place : Nat
  /-- whether it has to turn out so -/
  isRequired : Bool
  line : Nat
  column : Nat
  offset : Nat

/-- The most characters that a key without its own mark may have. -/
def keyLimit : Nat := 1024

/-- Puts a token behind the first tokens, of which there are the given number; the tokens are listed
last first. -/
def insertAt (place : Nat) (token : Token) (tokens : List Token) : List Token :=
  let later := tokens.length - place
  tokens.take later ++ token :: tokens.drop later

theorem insertAt_eq (place : Nat) (token : Token) (tokens : List Token) :
    insertAt place token tokens = tokens.take (tokens.length - place) ++
      token :: tokens.drop (tokens.length - place) := rfl

theorem eraseIdx_insertAt (place : Nat) (token : Token) (tokens : List Token) :
    (insertAt place token tokens).eraseIdx (tokens.length - place) = tokens := by
  rw [insertAt_eq, List.eraseIdx_append_of_length_le (by simp)]
  have : tokens.length - place - (tokens.take (tokens.length - place)).length = 0 := by
    simp only [List.length_take]
    omega
  rw [this]
  simp

end Token

end PolicyGate.Yaml
