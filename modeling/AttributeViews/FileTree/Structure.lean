import AttributeViews.FileTree
import AttributeViews.Registry.Access

/-!
# Creating, moving and deleting files

The operations that change which files there are.  Each checks its conditions first and in a fixed
order, and a failing one leaves the tree as it was.

* `FileTree.create` — a new file at a free path below a directory.  Its attributes are set before
  it is linked into the tree, so a refused one keeps it from being created.
* `FileTree.move` — a file and everything below it to another path.
* `FileTree.delete` — a file with nothing below it.
* `FileTree.createNext` — creation with the next identity of a supply, which is taken even if the
  attributes are refused, and not if the path is.
-/

namespace AttributeViews

namespace FileTree

/-! ## Conditions -/

/-- There must be a directory right above a path. -/
def checkParent (t : FileTree) (path : Path) : Except Error Unit :=
  match t.paths.get? path.parent with
  | none => .error (.noParent path.parent.toText)
  | some id =>
      if (t.nodes.get? id).any (·.kind = .directory) then .ok ()
      else .error (.parentNotDirectory path.parent.toText)

/-- A new file needs a free path below a directory. -/
def checkVacant (t : FileTree) (path : Path) : Except Error Unit := do
  if t.contains path then .error (.pathTaken path.toText)
  t.checkParent path

/-! ## Creating -/

/-- Set attributes on a node that is being created, one after the other. -/
def setWhileCreating (registry : Registry) :
    List (String × Value) → Node → Logged Node
  | [], node => pure node
  | (address, value) :: rest, node => do
      let node ← registry.write node address value true
      setWhileCreating registry rest node

/-- Enter a node under its path and its identity. -/
def link (t : FileTree) (path : Path) (node : Node) : FileTree :=
  { t with paths := t.paths.insert path node.id, nodes := t.nodes.insert node.id node }

/-- Create a file with the given identity. -/
def create (t : FileTree) (now : Moment) (id : String) (kind : NodeKind) (path : Path)
    (attributes : List (String × Value)) (overrides : Table String Value) :
    Logged (FileTree × Node) := do
  Logged.lift (t.checkVacant path)
  let node ← t.registry.prepare now (.fresh id kind 0) overrides
  let node ← setWhileCreating t.registry attributes node
  Logged.record .debug
    ("Created " ++ kind.label ++ " " ++ path.toText ++ " (" ++ node.id ++ ")")
  return (t.link path node, node)

/-- Create a file with the next identity, which is taken when the path has been found free. -/
def createNext (t : FileTree) (now : Moment) (kind : NodeKind) (path : Path)
    (attributes : List (String × Value)) (overrides : Table String Value) :
    Issuing (FileTree × Node) := do
  Issuing.lift (.lift (t.checkVacant path))
  let id ← Issuing.fresh
  Issuing.lift (t.create now id kind path attributes overrides)

/-! ## Moving -/

/-- The conditions of a move. -/
def checkMove (t : FileTree) (source target : Path) : Except Error Unit := do
  if !t.contains source then .error (.noSuchPath source.toText)
  if source = .root ∨ target.within source then .error (.moveIntoItself source.toText)
  t.checkVacant target

/-- Put one path of the source in its place below the target. -/
def relocateOne (source target : Path) (paths : Table Path String) (path : Path) :
    Table Path String :=
  match paths.get? path with
  | some id => (paths.erase path).insert (path.rebase source target) id
  | none => paths

/-- The paths after a move: those at or below the source are put below the target, one after the
other. -/
def relocate (source target : Path) (paths : Table Path String) : Table Path String :=
  (paths.keys.filter (·.within source)).foldl (relocateOne source target) paths

/-- Move a file and everything below it. -/
def move (t : FileTree) (source target : Path) : Except Error FileTree := do
  t.checkMove source target
  return { t with paths := relocate source target t.paths }

/-- Move a file, and record it. -/
def moveRecorded (t : FileTree) (source target : Path) : Logged FileTree := do
  let moved ← Logged.lift (t.move source target)
  Logged.record .debug ("Moved " ++ source.toText ++ " to " ++ target.toText)
  return moved

/-! ## Deleting -/

/-- Whether a stored path other than the root has this one as its parent. -/
def hasChildren (t : FileTree) (path : Path) : Bool :=
  t.paths.keys.any fun p => p ≠ .root && p.parent = path

/-- Delete a file with nothing below it. -/
def delete (t : FileTree) (path : Path) : Except Error FileTree := do
  if path = .root then .error .deleteRoot
  match t.paths.get? path with
  | none => .error (.noSuchPath path.toText)
  | some id =>
      if t.hasChildren path then .error (.notEmpty path.toText)
      return { t with paths := t.paths.erase path, nodes := t.nodes.erase id }

/-- Delete a file, and record it. -/
def deleteRecorded (t : FileTree) (path : Path) : Logged FileTree := do
  let rest ← Logged.lift (t.delete path)
  Logged.record .debug ("Deleted " ++ path.toText)
  return rest

end FileTree

end AttributeViews
