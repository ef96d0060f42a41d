import GoTrace.FileTree.Path

/-!
# Files and directories

A tree of files, directories and symbolic links. A place in the tree is given by the names that lead
to it from the root, with no links on the way.
-/

namespace GoTrace

/-- What stands under a name. -/
inductive Node where
  | file (content : ByteArray)
  /-- A symbolic link. A relative target starts from the directory of the link. -/
  | link (target : Path)
  | directory (entries : List (FileName × Node))

instance : Inhabited Node := ⟨.directory []⟩

abbrev Location := List FileName

def assign {κ α : Type} [DecidableEq κ] (key : κ) (value : α) : List (κ × α) → List (κ × α)
  | [] => [(key, value)]
  | entry :: rest =>
      if entry.1 = key then (key, value) :: rest else entry :: assign key value rest

namespace Node

def entries : Node → List (FileName × Node)
  | directory entries => entries
  | _ => []

def isDirectory : Node → Bool
  | directory _ => true
  | _ => false

def isFile : Node → Bool
  | file .. => true
  | _ => false

def at? (node : Node) : Location → Option Node
  | [] => some node
  | name :: rest => (node.entries.lookup name).bind fun entry => entry.at? rest

/-- With `new` at a location. Directories that are missing on the way are made; where a file or a
link is in the way, nothing changes. -/
def put (new : Node) : Location → Node → Node
  | [], _ => new
  | name :: rest, directory entries =>
      directory (assign name (put new rest ((entries.lookup name).getD (directory []))) entries)
  | _ :: _, other => other

mutual

/-- The node itself and all nodes below it, each with the names that lead to it and a directory
before its entries. -/
def nodes : Node → List (Location × Node)
  | directory entries => ([], directory entries) :: nodesOf entries
  | other => [([], other)]

def nodesOf : List (FileName × Node) → List (Location × Node)
  | [] => []
  | (name, node) :: rest =>
      node.nodes.map (fun found => (name :: found.1, found.2)) ++ nodesOf rest

end

def files (node : Node) : List (Location × ByteArray) :=
  node.nodes.filterMap fun found =>
    match found.2 with
    | file content => some (found.1, content)
    | _ => none

/-- The files of a tree that another tree does not have, or has with other content. -/
def filesBeyond (node before : Node) : List (Location × ByteArray) :=
  node.files.filter fun found =>
    match before.at? found.1 with
    | some (file content) => !(content == found.2)
    | _ => true

mutual

def weight : Node → Nat
  | file content => content.size + 1
  | link _ => 1
  | directory entries => weightOf entries + 1

def weightOf : List (FileName × Node) → Nat
  | [] => 0
  | (_, node) :: rest => node.weight + weightOf rest

end

end Node

end GoTrace
