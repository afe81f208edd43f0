import AttributeViews.Registry
import AttributeViews.Text.Blank
import AttributeViews.Text.Split
import AttributeViews.Value.Json

/-!
# Attributes by name

A name such as `posix:group` is looked for in the view before the colon and in the views that this
one inherits, nearest first; a bare name in all views, in inheritance order.  The first view that
declares the name owns it.

* `Registry.resolve?` — the owner of a name.
* `Registry.get`, `Registry.set` — one attribute.  A name without an owner reads as absent, and
  setting it does nothing.
* `Registry.attributeMap` — several attributes of a view.
* `Registry.dump` — all attributes of a view as a JSON text.
-/

namespace AttributeViews

/-- The view and the name of an address; without a colon there is no view. -/
def splitAddress (address : String) : Option String × String :=
  match Text.cut? ':' address with
  | some (view, name) => (some view, name)
  | none => (none, address)

namespace Registry

/-- The providers in which a name is looked for, in order. -/
def candidates (r : Registry) : Option String → List Provider
  | none => r.providers
  | some view => if view ∈ r.names then r.closure view else []

/-- The provider that owns an address, and the name of the attribute there. -/
def resolve? (r : Registry) (address : String) : Option (Provider × String) :=
  let (view, name) := splitAddress address
  ((r.candidates view).find? (·.supports name)).map (·, name)

/-- The view by which an address is reported: the one that it names, or else the owner's. -/
def reportedView (address : String) (owner : Provider) : String :=
  match (splitAddress address).1 with
  | none | some "" => owner.name
  | some view => view

/-! ## One attribute -/

/-- The value at an address; nothing if it has no owner. -/
def get (r : Registry) (node : Node) (address : String) : Value :=
  match r.resolve? address with
  | some (p, name) => p.read node name
  | none => .null

/-- Check a value and store it at an address. -/
def set (r : Registry) (node : Node) (address : String) (value : Value) (creating : Bool) :
    Except Error Node :=
  match r.resolve? address with
  | some (p, name) => p.write node (reportedView address p) name value creating
  | none => .ok node

/-- The record of an address without an owner. -/
def missRecords (r : Registry) (address outcome : String) : List Record :=
  match r.resolve? address with
  | some _ => []
  | none => [⟨.debug, "No view recognizes attribute " ++ address ++ ", " ++ outcome⟩]

/-- Read an address and record if it has no owner. -/
def read (r : Registry) (node : Node) (address : String) : Logged Value := do
  Logged.recordAll (r.missRecords address "returning None")
  return r.get node address

/-- Set an address and record if it has no owner. -/
def write (r : Registry) (node : Node) (address : String) (value : Value) (creating : Bool) :
    Logged Node := do
  Logged.recordAll (r.missRecords address "ignoring set")
  Logged.lift (r.set node address value creating)

/-! ## Several attributes -/

/-- The attributes of providers by name; of several that declare a name, the last one has it. -/
def allOf (node : Node) (providers : List Provider) : Table String Value :=
  .ofList (providers.flatMap fun p => p.names.map fun name => (name, p.read node name))

/-- The attributes with the given names, each from the first provider that declares it; names that
none declares are left out. -/
def pick (node : Node) (providers : List Provider) (names : List String) : Table String Value :=
  .ofList (names.filterMap fun name =>
    (providers.find? (·.supports name)).map fun p => (name, p.read node name))

/-- Several attributes of one view: `view:*` for all of them, from the most to the least general,
or `view:a,b,c` for the named ones.  Without a view the basic one is meant. -/
def attributeMap (r : Registry) (node : Node) (request : String) :
    Except Error (Table String Value) :=
  let (named, names) := splitAddress request
  let view := match named with
    | none | some "" => "basic"
    | some view => view
  if view ∈ r.names then
    let requested := (Text.pieces ',' names).map Text.trim
    if "*" ∈ requested then .ok (allOf node (r.closure view).reverse)
    else .ok (pick node (r.closure view) requested)
  else .error (.unsupportedView view)

/-- All attributes of a view as a JSON text. -/
def dump (r : Registry) (node : Node) (view : String) : Except Error String := do
  let values ← r.attributeMap node (view ++ ":*")
  jsonOfAttributes values.entries

end Registry

end AttributeViews
