import AttributeViews.FileTree.InPlace

/-!
# Setting attributes in memory

`Registry.set` answers a new node.  In memory a node is changed where it lies, and whoever looks at
it sees every single change; so the checks and the storing are statements here, one after the other.

* `Memory.ofNode` — a memory for a node that belongs to no tree.
* `Procedure.write` — an attribute of a provider.
* `Procedure.setAttribute` — an attribute by its address.
-/

namespace AttributeViews

/-- A memory with one node in it, to which no path leads. -/
def Memory.ofNode (r : Registry) (node : Node) (supply : IdSupply) : Memory where
  registry := r
  paths := .empty
  places := .empty
  nodes := [node]
  supply := supply
  journal := []

namespace Procedure

variable {α : Type}

/-- Take over the answer of a computation without records. -/
def ensure (x : Except Error α) : Procedure α := lift (.lift x)

/-- Check a value and store it.  `view` is the name by which the caller addressed the attribute. -/
def write (p : Provider) (place : Nat) (view name : String) (value : Value) (creating : Bool) :
    Procedure Unit :=
  match p.attributes.get? name with
  | none => return ()
  | some spec => do
      if !spec.settable then throw (.refused (.unsettable view name))
      if spec.creationRestricted then ensure (checkNotCreating view name creating)
      let stored ← ensure (spec.check view name value)
      storeAt place (p.qualified name) stored

/-- Set an address, or record that it has no owner. -/
def setAttribute (place : Nat) (address : String) (value : Value) (creating : Bool) :
    Procedure Unit := do
  let m ← get
  match m.registry.resolve? address with
  | some (p, name) => write p place (Registry.reportedView address p) name value creating
  | none =>
      lift (.record .debug ("No view recognizes attribute " ++ address ++ ", ignoring set"))

end Procedure

end AttributeViews
