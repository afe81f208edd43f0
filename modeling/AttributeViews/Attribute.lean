import AttributeViews.Error
import AttributeViews.Node

/-!
# Attributes

An attribute is described by how its values are checked, what it starts out with, and who may set
it when.  Values are brought into their stored form when they are accepted, so nothing behind that
boundary looks at types again.

* `Converter` — a check that answers the stored form of a value, or the reason to refuse it.
* `AttributeSpec` — the description of an attribute.
* `NodeFact` — the attributes that are read off the node and not stored.
-/

namespace AttributeViews

/-- The stored form of a value, or the reason to refuse it.  The view and the name are those by
which the caller addressed the attribute, and appear in the reason. -/
abbrev Converter := (view name : String) → Value → Except Error Value

/-- What an attribute holds on a new node if nothing else is given. -/
inductive StartingValue where
  /-- Nothing. -/
  | absent
  /-- Always the same value. -/
  | fixed (value : Value)
  /-- The time at which the node is made. -/
  | currentTime

/-- A fact that is read off a node. -/
inductive NodeFact where
  | size
  | fileKey
  | isRegularFile
  | isDirectory
  | isSymbolicLink
  | isOther
deriving DecidableEq, Inhabited

/-- What a node tells about itself, as a value.  No node counts as another kind of file, whatever
its label. -/
def NodeFact.read (node : Node) : NodeFact → Value
  | size => .int node.size
  | fileKey => .text node.id
  | isRegularFile => .bool (node.kind = .file)
  | isDirectory => .bool (node.kind = .directory)
  | isSymbolicLink => .bool (node.kind = .symlink)
  | isOther => .bool false

/-- The description of an attribute. -/
structure AttributeSpec where
  /-- The strict check, for values that are set by name. -/
  check : Converter
  /-- The lenient check, for defaults; the strict one if there is no other. -/
  lenient : Option Converter := none
  start : StartingValue := .absent
  /-- Whether the attribute is refused while the node is being created. -/
  creationRestricted : Bool := false
  settable : Bool := true
  /-- The fact that is read instead of a stored value. -/
  fact : Option NodeFact := none
  /-- Nobody sets a fact. -/
  fact_unsettable : fact.isSome = true → settable = false := by simp

namespace AttributeSpec

/-- The check for defaults. -/
def coerce (spec : AttributeSpec) : Converter := spec.lenient.getD spec.check

/-- Whether the attribute has a starting value of its own, that is, one that needs no clock. -/
def hasFixedStart (spec : AttributeSpec) : Bool :=
  match spec.start with
  | .fixed _ => true
  | .absent | .currentTime => false

end AttributeSpec

end AttributeViews
