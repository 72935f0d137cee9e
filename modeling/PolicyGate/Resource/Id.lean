import PolicyGate.Text.Split

/-!
Resource ids and the directories above them. An id is an optional scheme such as `file:` and a path
whose segments are separated by slashes; `ancestors` lists, from the root down, the ids whose rules
reach it. Main statements: the chain is never empty and ends with the id itself.
-/

namespace PolicyGate

/-- The name of a resource, for instance `file:/data/dir/file.csv`. -/
structure ResourceId where
  text : String
  deriving DecidableEq, Repr, Inhabited

namespace ResourceId

/-- The scheme with its colon, and the path behind it. A colon ends a scheme only when no slash
stands before it. -/
def schemeAndPath (cs : List Char) : List Char × List Char :=
  match Text.splitOnceChars ':' cs with
  | some (before, after) => if '/' ∈ before then ([], cs) else (before ++ [':'], after)
  | none => ([], cs)

/-- The names between the slashes of a path. -/
def segments (path : List Char) : List (List Char) :=
  (Text.splitChars '/' path).filter fun segment => !segment.isEmpty

/-- The ids below the directory `dir` along `segments`; every id but the last ends with a slash, and
the last one does so if the path is that of a directory. -/
def descend (isDirectory : Bool) (dir : List Char) : List (List Char) → List (List Char)
  | [] => []
  | [leaf] => [dir ++ leaf ++ if isDirectory then ['/'] else []]
  | segment :: rest =>
    let next := dir ++ segment ++ ['/']
    next :: descend isDirectory next rest

/-- The chain that the segments of the id spell out, from the root down. -/
def spine (cs : List Char) : List (List Char) :=
  let (scheme, path) := schemeAndPath cs
  let isDirectory := path.getLast? = some '/'
  if path.head? = some '/' then
    (scheme ++ ['/']) :: descend isDirectory (scheme ++ ['/']) (segments path)
  else
    descend isDirectory scheme (segments path)

/-- The chain of ids whose rules reach `cs`, from the root down; the last one is `cs` itself, also
when repeated slashes keep it from being on its own spine. -/
def chain (cs : List Char) : List (List Char) :=
  if (spine cs).getLast? = some cs then spine cs else spine cs ++ [cs]

/-- The ids whose rules reach this resource, from the root down to the resource itself. -/
def ancestors (id : ResourceId) : List ResourceId :=
  (chain id.text.toList).map fun cs => ⟨String.ofList cs⟩

@[simp] theorem getLast?_chain (cs : List Char) : (chain cs).getLast? = some cs := by
  unfold chain
  split
  · assumption
  · simp

theorem getLast?_ancestors (id : ResourceId) : id.ancestors.getLast? = some id := by
  simp [ancestors, List.getLast?_map]

theorem ancestors_ne_nil (id : ResourceId) : id.ancestors ≠ [] := by
  intro h
  have := getLast?_ancestors id
  simp [h] at this

end ResourceId

end PolicyGate
