import RemoteCall.Dictionary
import RemoteCall.Directory.Path
import RemoteCall.Fault

/-!
# The tree of nodes

A tree has data at some paths. Creating a node creates the nodes above it that are missing, with empty
data, and only a node without children can be deleted. Each operation also tells whose children
changed, with what these children are then.
-/

namespace RemoteCall.Directory

/-- Data at paths. -/
structure Tree where
  nodes : Dictionary Bytes

/-- A path whose children changed, and the names of its children after that. -/
structure Change where
  path : String
  children : List String
  deriving DecidableEq, Repr

namespace Tree

/-- No node. -/
def empty : Tree := ⟨.empty⟩

/-- Whether there is a node at a path. -/
def contains (tree : Tree) (path : String) : Bool :=
  tree.nodes.contains path

/-- The paths that begin with a text. They stand side by side, the text itself before them. -/
def pathsFrom (tree : Tree) (start : String) : List String :=
  (tree.nodes.keys.dropWhile (· < start)).takeWhile fun path => start.toList.isPrefixOf path.toList

/-- The names of the nodes directly below a path, in increasing order. -/
def children (tree : Tree) (path : String) : List String :=
  (tree.pathsFrom (Path.stemOf path)).filterMap (Path.childName? path)

/-- How the children of a path are now. -/
def changeAt (tree : Tree) (path : String) : Change :=
  ⟨path, tree.children path⟩

/-- The nodes above a path that are missing, the nearest first. -/
def missing (tree : Tree) (path : String) : List String :=
  (Path.ancestors path).takeWhile fun ancestor => !tree.contains ancestor

/-- The tree with a node and with the nodes above it. -/
def insert (tree : Tree) (path : String) (data : Bytes) : Tree :=
  let above := (tree.missing path).reverse.foldl (fun nodes p => nodes.insert p []) tree.nodes
  ⟨above.insert path data⟩

/-- Creates a node. -/
def create (tree : Tree) (path : String) (data : Bytes) : Except Fault (Tree × List Change) :=
  if tree.contains path then .error (.directory ("Node already exists: " ++ path))
  else
    let created := path :: tree.missing path
    let grown := tree.insert path data
    .ok (grown, (created.filterMap Path.parent?).map grown.changeAt)

/-- The fault of a path without a node. -/
def absent (path : String) : Fault :=
  .directory ("Node does not exist: " ++ path)

/-- The data of a node. -/
def data (tree : Tree) (path : String) : Except Fault Bytes :=
  match tree.nodes.get? path with
  | some data => .ok data
  | none => .error (absent path)

/-- Deletes a node. -/
def delete (tree : Tree) (path : String) : Except Fault (Tree × List Change) :=
  if !tree.contains path then .error (absent path)
  else if !(tree.children path).isEmpty then .error (.directory ("Node has children: " ++ path))
  else
    let pruned : Tree := ⟨tree.nodes.erase path⟩
    .ok (pruned, (Path.parent? path).toList.map pruned.changeAt)

end Tree

end RemoteCall.Directory
