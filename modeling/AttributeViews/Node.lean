import AttributeViews.Table
import AttributeViews.Text.Quoted
import AttributeViews.Value

/-!
# Nodes

A node is one file of the tree: its identity, its kind and size, and the attributes stored on it.
The store is keyed by qualified names such as `posix:group` and knows nothing of views.

* `NodeKind` — what a node is; kinds beside the three known ones are kept by their label.
* `Node.read`, `Node.write` — the store.
-/

namespace AttributeViews

/-- What a file is. -/
inductive NodeKind where
  | file
  | directory
  | symlink
  /-- A kind of which nothing but its label is known. -/
  | other (label : String)
deriving DecidableEq, Inhabited

/-- The word for a kind. -/
def NodeKind.label : NodeKind → String
  | .file => "file"
  | .directory => "directory"
  | .symlink => "symlink"
  | .other label => label

/-- The kind that a word stands for. -/
def NodeKind.ofLabel (label : String) : NodeKind :=
  if label = "file" then .file
  else if label = "directory" then .directory
  else if label = "symlink" then .symlink
  else .other label

/-- A file of any kind, with the attributes stored on it. -/
structure Node where
  id : String
  kind : NodeKind
  size : Int
  attributes : Table String Value
deriving Inhabited

namespace Node

/-- A node without attributes. -/
def fresh (id : String) (kind : NodeKind) (size : Int) : Node := ⟨id, kind, size, .empty⟩

/-- The stored value of a key, absent if nothing is stored. -/
def read (node : Node) (key : String) : Value := (node.attributes.get? key).getD .null

/-- Store a value. -/
def write (node : Node) (key : String) (value : Value) : Node :=
  { node with attributes := node.attributes.insert key value }

/-- The node with its identity and kind, as messages show it. -/
def describe (node : Node) : String :=
  "Node(id=" ++ Text.quoted node.id ++ ", kind=" ++ Text.quoted node.kind.label ++ ")"

@[simp] theorem read_write (node : Node) (k k' : String) (v : Value) :
    (node.write k v).read k' = if k = k' then v else node.read k' := by
  simp only [read, write, Table.get?_insert]
  split <;> simp_all

@[simp] theorem id_write (node : Node) (k : String) (v : Value) : (node.write k v).id = node.id :=
  rfl

@[simp] theorem kind_write (node : Node) (k : String) (v : Value) :
    (node.write k v).kind = node.kind := rfl

@[simp] theorem size_write (node : Node) (k : String) (v : Value) :
    (node.write k v).size = node.size := rfl

end Node

end AttributeViews
