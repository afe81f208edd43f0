import AttributeViews.Identity
import AttributeViews.Lookup
import AttributeViews.Path
import AttributeViews.Registry.Starting
import AttributeViews.Sorted

/-!
# File trees

A file tree keeps two indexes: from paths to identities, and from identities to nodes.  A live view
is bound to an identity, so it follows its file when that is moved; and the second index alone says
whether a file still exists.

* `FileTree.start` — the tree of nothing but a root directory.
* `FileTree.node`, `FileTree.nodeById` — the node at a path, or of an identity.
* `FileTree.lookup` — the lookup of an identity.
-/

namespace AttributeViews

/-- A registry of views, and files that are found by their paths. -/
structure FileTree where
  registry : Registry
  /-- The identity of the file at each path. -/
  paths : Table Path String
  /-- The node of each identity. -/
  nodes : Table String Node

namespace FileTree

/-- The tree of a root directory alone, which has the given identity. -/
def ofRoot (registry : Registry) (now : Moment) (id : String) : Logged FileTree := do
  let root ← registry.prepare now (.fresh id .directory 0) .empty
  return {
    registry := registry
    paths := .ofList [(.root, root.id)]
    nodes := .ofList [(root.id, root)] }

/-- The tree of a root directory alone, with the next identity of a supply. -/
def start (registry : Registry) (now : Moment) : Issuing FileTree := do
  let id ← Issuing.fresh
  Issuing.lift (ofRoot registry now id)

/-! ## Looking up -/

/-- Whether a file stands at a path. -/
def contains (t : FileTree) (path : Path) : Bool := t.paths.contains path

/-- The node of an identity. -/
def nodeById (t : FileTree) (id : String) : Except Error Node :=
  match t.nodes.get? id with
  | some node => .ok node
  | none => .error (.noSuchNode id)

/-- The node of the file at a path. -/
def node (t : FileTree) (path : Path) : Except Error Node :=
  match (t.paths.get? path).bind t.nodes.get? with
  | some node => .ok node
  | none => .error (.noSuchPath path.toText)

/-- The stored paths in their order. -/
def listing (t : FileTree) : List Path := sorted Path.before t.paths.keys

/-- Put a changed node back. -/
def putNode (t : FileTree) (node : Node) : FileTree :=
  { t with nodes := t.nodes.insert node.id node }

/-- The lookup of an identity, which fails once the file has been deleted. -/
def lookup (id : String) : Lookup FileTree where
  resolve t := t.nodeById id
  store node t := t.putNode node

/-- The lookup of the file that stands at a path now; it follows the file. -/
def lookupAt (t : FileTree) (path : Path) : Except Error (Lookup FileTree) := do
  return lookup (← t.node path).id

end FileTree

end AttributeViews
