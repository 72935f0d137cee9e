/-!
The files that the program can see. A folder answers for every path what is there; `ofEntries` is a
folder given by the names of its files, in which paths may go through folders and back. Main
statement: a path of a single name finds what is listed under that name.
-/

namespace PolicyGate

/-- What a path leads to. -/
inductive FileNode where
  | text (content : String)
  | octets (content : List UInt8)
  | folder
  deriving DecidableEq

/-- What is there at every path. -/
structure Folder where
  node? : String → Option FileNode

namespace FileNode

def isFile : FileNode → Bool
  | folder => false
  | _ => true

/-- The text of a file, if its octets are the encoding of one. -/
def text? : FileNode → Option String
  | text content => some content
  | octets content => String.fromUTF8? ⟨content.toArray⟩
  | folder => none

end FileNode

namespace Folder

def contains (f : Folder) (path : String) : Bool := (f.node? path).isSome

def hasFile (f : Folder) (path : String) : Bool := (f.node? path).any FileNode.isFile

def read? (f : Folder) (path : String) : Option String := (f.node? path).bind FileNode.text?

def names (path : String) : List String := path.splitOn "/"

/-- The folder or file with given names among entries; the folders on the way to an entry exist as
well. -/
def entry? (entries : List (List String × FileNode)) (path : List String) : Option FileNode :=
  match entries.lookup path with
  | some node => some node
  | none => if entries.any fun entry => path.isPrefixOf entry.1 then some .folder else none

/-- Whether a name leads to a folder from everywhere. -/
def isStep (name : String) : Bool := name = "" || name = "." || name = ".."

/-- Follows the names of a path from a folder, whose own names are given last first. Only a folder
can be left by another name; outside of the given folder, only the folders around it are known. -/
def walk? (entries : List (List String × FileNode)) : List String → List String → Option FileNode
  | here, [] => if here = [] then some .folder else entry? entries here.reverse
  | here, name :: rest =>
    if here ≠ [] ∧ entry? entries here.reverse ≠ some .folder then none
    else if name = "" ∨ name = "." then walk? entries here rest
    else if name = ".." then
      match here with
      | [] => if rest.all isStep then some .folder else none
      | _ :: outer => walk? entries outer rest
    else walk? entries (name :: here) rest

/-- The folder with the given files, by their paths in it. -/
def ofEntries (entries : List (String × FileNode)) : Folder :=
  let named := entries.map fun (path, node) => (names path, node)
  ⟨fun path =>
    if path = "" ∨ path.startsWith "/" then none else walk? named [] (names path)⟩

def empty : Folder := ofEntries []

/-- The folder that knows just the given paths, as they are spelled. -/
def ofAnswers (answers : List (String × FileNode)) : Folder := ⟨fun path => answers.lookup path⟩

theorem walk?_name (entries : List (List String × FileNode)) (name : String)
    (h : name ≠ "" ∧ name ≠ "." ∧ name ≠ "..") :
    walk? entries [] [name] = entry? entries [name] := by
  simp [walk?, h.1, h.2.1, h.2.2]

end Folder

/-- What surrounds the program: its variables and the files that it can see. -/
structure Host where
  environment : List (String × String)
  folder : Folder

namespace Host

def value? (h : Host) (name : String) : Option String := h.environment.lookup name

end Host

end PolicyGate
