import AttributeViews.FileTree.Structure

/-!
# Changing a file tree in memory

`FileTree.create`, `FileTree.move` and `FileTree.delete` answer a new tree.  A program has one tree,
in which everybody sees every single change.  Here the operations are procedures, one statement
after the other; one that stops leaves behind what it has done until then.

* `Memory` — the indexes and the nodes; **`Memory.tree`** is the tree that they make up.
* `FileTree.inMemory` — a memory for a tree.
* `Procedure` — what is done to a memory, and `Stop` — why it stops.
* `Procedure.create`, `Procedure.move`, `Procedure.delete` — the operations.
-/

namespace AttributeViews

/-- A file tree as it lies in memory.  A node has a place there from the moment that it is made, and
the index of identities leads to places. -/
structure Memory where
  registry : Registry
  /-- The identity of the file at each path. -/
  paths : Table Path String
  /-- The place of the node of each identity. -/
  places : Table String Nat
  /-- All nodes that have been made, also those that no identity leads to. -/
  nodes : List Node
  supply : IdSupply
  /-- What has been recorded, oldest first. -/
  journal : List Record

/-- Why a procedure stops. -/
inductive Stop where
  | refused (e : Error)
  /-- A key is taken out of an index in which it does not stand. -/
  | keyMissing
deriving DecidableEq

/-- Statements on a memory, which is left as it is when one of them stops. -/
abbrev Procedure := EStateM Stop Memory

namespace Memory

/-- The node in a place. -/
def nodeAt (m : Memory) (place : Nat) : Node := m.nodes.getD place default

/-- The tree that lies in a memory. -/
def tree (m : Memory) : FileTree := ⟨m.registry, m.paths, m.places.map m.nodeAt⟩

end Memory

/-- A memory with a tree in it and nothing else. -/
def FileTree.inMemory (t : FileTree) (supply : IdSupply) : Memory where
  registry := t.registry
  paths := t.paths
  places := ⟨t.nodes.keys.zipIdx, by simpa using t.nodes.keys_nodup⟩
  nodes := t.nodes.values
  supply := supply
  journal := []

namespace Procedure

variable {α : Type}

/-! ## Statements -/

/-- Take over the records and the answer of a computation. -/
def lift (x : Logged α) : Procedure α := do
  modify fun m => { m with journal := m.journal ++ x.records }
  match x.result with
  | .ok a => return a
  | .error e => throw (.refused e)

/-- Stop unless the tree meets a condition. -/
def require (condition : FileTree → Except Error Unit) : Procedure Unit := do
  lift (.lift (condition (← get).tree))

/-- Make a node, with the next identity. -/
def allocate (kind : NodeKind) : Procedure Nat := do
  let m ← get
  set { m with
    nodes := m.nodes ++ [Node.fresh m.supply.next kind 0]
    supply := m.supply.advance }
  return m.nodes.length

/-- Store a value in the node in a place. -/
def storeAt (place : Nat) (key : String) (value : Value) : Procedure Unit :=
  modify fun m => { m with nodes := m.nodes.modify place (·.write key value) }

/-- Enter an identity under a path. -/
def enterPath (path : Path) (id : String) : Procedure Unit :=
  modify fun m => { m with paths := m.paths.insert path id }

/-- Enter the place of a node under its identity. -/
def enterId (id : String) (place : Nat) : Procedure Unit :=
  modify fun m => { m with places := m.places.insert id place }

/-- Take a path out of the index, and answer the identity that stood there. -/
def removePath (path : Path) : Procedure String := do
  let m ← get
  match m.paths.get? path with
  | none => throw .keyMissing
  | some id =>
      set { m with paths := m.paths.erase path }
      return id

/-- Take an identity out of the index. -/
def removeId (id : String) : Procedure Unit := do
  let m ← get
  match m.places.get? id with
  | none => throw .keyMissing
  | some _ => set { m with places := m.places.erase id }

/-! ## Creating -/

/-- Store values in the node in a place, one after the other. -/
def storeAll (place : Nat) (entries : List (String × Value)) : Procedure Unit :=
  forM entries fun entry => storeAt place entry.1 entry.2

/-- Give the node in a place its starting values.  They are all known before the first one is
stored. -/
def prepare (now : Moment) (overrides : Table String Value) (place : Nat) : Procedure Unit := do
  let values ← lift ((← get).registry.initial now overrides)
  storeAll place values.entries
  let m ← get
  lift (.record .debug ("Initialized attributes of " ++ (m.nodeAt place).describe))

/-- Check a value and store it in a node that is being created. -/
def setCreating (place : Nat) (address : String) (value : Value) : Procedure Unit := do
  let m ← get
  let node ← lift (m.registry.write (m.nodeAt place) address value true)
  modify fun m => { m with nodes := m.nodes.set place node }

/-- Set attributes of a node that is being created, one after the other. -/
def setAllCreating (place : Nat) (attributes : List (String × Value)) : Procedure Unit :=
  forM attributes fun entry => setCreating place entry.1 entry.2

/-- Give a new node its starting values, and then the attributes that it is created with. -/
def fill (now : Moment) (overrides : Table String Value) (attributes : List (String × Value))
    (place : Nat) : Procedure Unit := do
  prepare now overrides place
  setAllCreating place attributes

/-- Enter a node under its path and under its identity. -/
def link (path : Path) (place : Nat) : Procedure Node := do
  let node := (← get).nodeAt place
  enterPath path node.id
  enterId node.id place
  return node

/-- Create a file.  Its node is entered into the indexes when it has all its attributes. -/
def create (now : Moment) (kind : NodeKind) (path : Path) (attributes : List (String × Value))
    (overrides : Table String Value) : Procedure Node := do
  require (·.checkVacant path)
  let place ← allocate kind
  fill now overrides attributes place
  let node ← link path place
  lift (.record .debug ("Created " ++ kind.label ++ " " ++ path.toText ++ " (" ++ node.id ++ ")"))
  return node

/-! ## Moving and deleting -/

/-- Take paths out of the index, one after the other, and enter each in its place below the
target. -/
def relocateAll (source target : Path) (paths : List Path) : Procedure Unit :=
  forM paths fun path => do
    let id ← removePath path
    enterPath (path.rebase source target) id

/-- Move a file and all below it.  The conditions are checked before the first path is taken out. -/
def move (source target : Path) : Procedure Unit := do
  require (·.checkMove source target)
  let m ← get
  relocateAll source target (m.paths.keys.filter (·.within source))
  lift (.record .debug ("Moved " ++ source.toText ++ " to " ++ target.toText))

/-- Delete a file that is not the root and has nothing below it. -/
def delete (path : Path) : Procedure Unit := do
  let m ← get
  if path = .root then throw (.refused .deleteRoot)
  if !m.paths.contains path then throw (.refused (.noSuchPath path.toText))
  if m.tree.hasChildren path then throw (.refused (.notEmpty path.toText))
  let id ← removePath path
  removeId id
  lift (.record .debug ("Deleted " ++ path.toText))

end Procedure

/-! ## Changes of a tree -/

/-- A change of which files there are. -/
inductive FileTree.Change where
  | create (now : Moment) (kind : NodeKind) (path : Path) (attributes : List (String × Value))
      (overrides : Table String Value)
  | move (source target : Path)
  | delete (path : Path)

namespace FileTree.Change

/-- The change as one operation on the tree. -/
def apply (t : FileTree) : Change → Issuing FileTree
  | .create now kind path attributes overrides =>
      Prod.fst <$> t.createNext now kind path attributes overrides
  | .move source target => Issuing.lift (t.moveRecorded source target)
  | .delete path => Issuing.lift (t.deleteRecorded path)

/-- The procedure that makes a change in memory. -/
def procedure : Change → Procedure Unit
  | .create now kind path attributes overrides => do
      let _ ← Procedure.create now kind path attributes overrides
  | .move source target => Procedure.move source target
  | .delete path => Procedure.delete path

end FileTree.Change

end AttributeViews
