import AttributeViews.FileTree.Access
import AttributeViews.FileTree.Structure
import AttributeViews.View.Call

/-!
# Sessions

A session is a file tree with the supply that its identities come from.  What callers do to it is
written down as data, so that a history is a list of operations.  An operation that fails leaves the
session in the state in which it fails; questions change nothing and are left out.

A live view is made of a registry and a lookup, and a lookup of a tree is bound to an identity.  So
a call of a view that somebody has kept names the identity, the view and its serial number.

* `NodeOperation` — what is done to a node by someone who holds it.
* `Operation` — what is done to a tree, with paths as texts.
* `Session.start`, `Session.run` — a new tree, and a history.
-/

namespace AttributeViews

variable {σ : Type}

/-- Call a view that the registry builds on a lookup, and go on with the state after the call.  A
view that cannot be built or has no such operation leaves the state alone. -/
def Registry.callView (r : Registry) (view : String) (lookup : Lookup σ) (serial : Nat)
    (call : ViewCall) (state : σ) : σ :=
  match (r.getView view lookup serial).2 with
  | .ok (some v) =>
      match v.call? call with
      | some operation => (operation state).1
      | none => state
  | .ok none | .error _ => state

/-! ## Operations on a node -/

/-- What is done to a node by someone who holds it. -/
inductive NodeOperation where
  /-- Set an attribute by its address. -/
  | set (address : String) (value : Value) (creating : Bool)
  /-- Set an attribute of a provider, addressed by any view. -/
  | setThrough (provider view name : String) (value : Value) (creating : Bool)
  /-- Call a live view of the node. -/
  | callView (view : String) (serial : Nat) (call : ViewCall)
  /-- Store a value as it is. -/
  | store (key : String) (value : Value)

/-- What an operation makes of a node.  One that fails leaves it as it is, except for a view that
has stored something before it fails. -/
def NodeOperation.perform (r : Registry) : NodeOperation → Node → Node
  | set address value creating, node =>
      (r.write node address value creating).result.toOption.getD node
  | setThrough provider view name value creating, node =>
      match r.find? provider with
      | some p => (p.write node view name value creating).toOption.getD node
      | none => node
  | callView view serial call, node => r.callView view .static serial call node
  | store key value, node => node.write key value

/-! ## Operations on a tree -/

/-- What is done to a tree. -/
inductive Operation where
  /-- Create a file of some kind; the clock shows `now`. -/
  | create (now : Moment) (kind : NodeKind) (path : String) (attributes : List (String × Value))
      (overrides : Table String Value)
  | move (source target : String)
  | delete (path : String)
  | setAttribute (path address : String) (value : Value)
  /-- Take the node at a path and do something to it. -/
  | onNode (path : String) (operation : NodeOperation)
  /-- Call a live view that is bound to an identity. -/
  | onView (id view : String) (serial : Nat) (call : ViewCall)

/-- A file tree and the supply that its identities come from. -/
structure Session where
  tree : FileTree
  supply : IdSupply

namespace Session

/-- A new tree, with the next identity of a supply for its root. -/
def start (registry : Registry) (now : Moment) (supply : IdSupply) : Except Error Session :=
  let (supply, tree) := FileTree.start registry now supply
  tree.result.map fun tree => ⟨tree, supply⟩

/-- The session after an operation.  One that fails leaves the index as it is, but may have taken an
identity. -/
def perform (s : Session) : Operation → Session
  | .create now kind path attributes overrides =>
      let (supply, created) :=
        s.tree.createNext now kind (.ofText path) attributes overrides s.supply
      ⟨(created.result.map Prod.fst).toOption.getD s.tree, supply⟩
  | .move source target =>
      { s with
        tree := (s.tree.moveRecorded (.ofText source) (.ofText target)).result.toOption.getD s.tree }
  | .delete path =>
      { s with tree := (s.tree.deleteRecorded (.ofText path)).result.toOption.getD s.tree }
  | .setAttribute path address value =>
      { s with
        tree := (s.tree.setAttribute (.ofText path) address value).result.toOption.getD s.tree }
  | .onNode path operation =>
      match s.tree.node (.ofText path) with
      | .ok node => { s with tree := s.tree.putNode (operation.perform s.tree.registry node) }
      | .error _ => s
  | .onView id view serial call =>
      { s with tree := s.tree.registry.callView view (FileTree.lookup id) serial call s.tree }

/-- The session after operations, one after the other. -/
def run (s : Session) (history : List Operation) : Session := history.foldl perform s

end Session

end AttributeViews
