import AttributeViews.Registry
import AttributeViews.Value.Elements

/-!
# Snapshots

A snapshot holds what the attributes of a view were at one moment.  The `basic`, `posix` and `dos`
views have snapshots; the last two contain the basic one.

A snapshot is read from the node's store as it is: a value stored there unchecked appears as it was
stored, but a flag counts by its truth and permissions are copied into a frozen set.

* `Provider.snapshot` — the snapshot of a provider's view.
* `Registry.readAttributes` — the snapshot of a view by its name.
-/

namespace AttributeViews

/-- The times and facts of a node. -/
structure BasicAttributes where
  lastModifiedTime : Value
  lastAccessTime : Value
  creationTime : Value
  size : Int
  fileKey : String
  isRegularFile : Bool
  isDirectory : Bool
  isSymbolicLink : Bool
  isOther : Bool

/-- The owner, the group and the permissions of a node, with its times and facts. -/
structure PosixAttributes where
  basic : BasicAttributes
  owner : Value
  group : Value
  permissions : Value

/-- The flags of a node, with its times and facts. -/
structure DosAttributes where
  basic : BasicAttributes
  readonly : Bool
  hidden : Bool
  archive : Bool
  system : Bool

/-- The attributes of a node at one moment, through one of the views that have snapshots. -/
inductive Snapshot where
  | basic (attributes : BasicAttributes)
  | posix (attributes : PosixAttributes)
  | dos (attributes : DosAttributes)

/-- Read the times and facts of a node. -/
def BasicAttributes.ofNode (node : Node) : BasicAttributes where
  lastModifiedTime := node.read "basic:lastModifiedTime"
  lastAccessTime := node.read "basic:lastAccessTime"
  creationTime := node.read "basic:creationTime"
  size := node.size
  fileKey := node.id
  isRegularFile := node.kind = .file
  isDirectory := node.kind = .directory
  isSymbolicLink := node.kind = .symlink
  isOther := false

/-- Read the attributes of the posix view; permissions are frozen if there are any. -/
def PosixAttributes.ofNode (node : Node) : Except Error PosixAttributes := do
  let stored := node.read "posix:permissions"
  let permissions ← if stored.isNull then pure .null else stored.freeze
  return {
    basic := .ofNode node
    owner := node.read "owner:owner"
    group := node.read "posix:group"
    permissions := permissions }

/-- Read the attributes of the dos view; a flag that is not stored does not hold. -/
def DosAttributes.ofNode (node : Node) : DosAttributes where
  basic := .ofNode node
  readonly := (node.read "dos:readonly").truthy
  hidden := (node.read "dos:hidden").truthy
  archive := (node.read "dos:archive").truthy
  system := (node.read "dos:system").truthy

/-- The snapshot of a node through the view of a provider. -/
def Provider.snapshot (p : Provider) (node : Node) : Except Error Snapshot :=
  match p.form with
  | .basic => .ok (.basic (.ofNode node))
  | .posix => do return .posix (← PosixAttributes.ofNode node)
  | .dos => .ok (.dos (.ofNode node))
  | .owner | .plain => .error (.noSnapshot p.name)

/-- The snapshot of a node through a view. -/
def Registry.readAttributes (r : Registry) (view : String) (node : Node) :
    Except Error Snapshot :=
  match r.find? view with
  | some p => p.snapshot node
  | none => .error (.unsupportedView view)

end AttributeViews
