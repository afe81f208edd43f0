import AttributeViews.FileTree
import AttributeViews.Registry.Access
import AttributeViews.Snapshot
import AttributeViews.View.Building

/-!
# Attributes and views by path

What a registry does for a node, a file tree does for the file at a path.

* `FileTree.getAttribute`, `FileTree.setAttribute`, `FileTree.attributeMap` — attributes by name.
* `FileTree.readAttributes` — a snapshot.
* `FileTree.getView` — a live view, bound to the identity of the file.
-/

namespace AttributeViews

namespace FileTree

/-- The value at an address of a file; an address without an owner is recorded. -/
def getAttribute (t : FileTree) (path : Path) (address : String) : Logged Value := do
  let node ← Logged.lift (t.node path)
  t.registry.read node address

/-- Check a value and store it at an address of a file, which is not being created. -/
def setAttribute (t : FileTree) (path : Path) (address : String) (value : Value) :
    Logged FileTree := do
  let node ← Logged.lift (t.node path)
  let node ← t.registry.write node address value false
  return t.putNode node

/-- The attributes of a file that a request selects. -/
def attributeMap (t : FileTree) (path : Path) (request : String) :
    Except Error (Table String Value) := do
  t.registry.attributeMap (← t.node path) request

/-- The snapshot of a file through a view. -/
def readAttributes (t : FileTree) (path : Path) (view : String) : Except Error Snapshot := do
  t.registry.readAttributes view (← t.node path)

/-- A live view of a file, and what was built for it. -/
def getView (t : FileTree) (path : Path) (view : String) (serial : Nat) :
    Building FileTree × Except Error (Option (View FileTree)) :=
  match t.lookupAt path with
  | .error e => (.start serial, .error e)
  | .ok lookup => t.registry.getView view lookup serial

end FileTree

end AttributeViews
