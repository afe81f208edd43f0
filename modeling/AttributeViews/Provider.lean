import AttributeViews.Attribute.Converters
import AttributeViews.Sorted

/-!
# Providers

A provider owns one view of files: its name, the views it inherits, the table of its attributes, and
what its live view and its snapshots look like.  It stores under qualified keys, made of its scope
and the attribute's name.

* `Provider.initialValues` — the values of a new node.
* `Provider.read`, `Provider.write` — an attribute by its name.

Names that a provider does not know are no error: they read as absent and writing them does nothing.
-/

namespace AttributeViews

/-- The make of a provider's live view. -/
inductive ViewForm where
  | basic
  | owner
  | posix
  | dos
  /-- A view without operations of its own. -/
  | plain
deriving DecidableEq, Inhabited

/-- The owner of one view. -/
structure Provider where
  name : String
  /-- The first part of the qualified keys, which is the name unless said otherwise. -/
  scope : String
  inherits : List String
  attributes : Table String AttributeSpec
  form : ViewForm

namespace Provider

/-- The inherited views in ascending order, each once. -/
def inherited (p : Provider) : List String := sortNames p.inherits

/-- The key under which an attribute is stored. -/
def qualified (p : Provider) (name : String) : String := p.scope ++ ":" ++ name

/-- The names of the attributes, in the order of their declaration. -/
def names (p : Provider) : List String := p.attributes.keys

/-- The keys of the attributes, in the order of their declaration. -/
def keys (p : Provider) : List String := p.names.map p.qualified

/-- Whether an attribute is declared. -/
def supports (p : Provider) (name : String) : Bool := p.attributes.contains name

/-! ## The values of a new node -/

/-- The value of an override map, in which an absent value counts as no override. -/
def override? (overrides : Table String Value) (key : String) : Option Value :=
  match overrides.get? key with
  | none | some .null => none
  | some v => some v

/-- The value that an attribute starts out with, if it is settled without the clock: its override
in stored form, else its fixed starting value. -/
def startingValue? (p : Provider) (overrides : Table String Value) (name : String)
    (spec : AttributeSpec) : Except Error (Option Value) :=
  let key := p.qualified name
  match override? overrides key, spec.settable with
  | some _, false => .error (.derived key)
  | none, false => .ok none
  | some v, true => do return some (← spec.coerce p.name name v)
  | none, true =>
      match spec.start with
      | .fixed v => .ok (some v)
      | .absent | .currentTime => .ok none

/-- Add the starting values of attributes in order; the first override that is refused ends it. -/
def settled (p : Provider) (overrides : Table String Value) :
    List (String × AttributeSpec) → Table String Value → Except Error (Table String Value)
  | [], values => .ok values
  | (name, spec) :: rest, values => do
      match ← p.startingValue? overrides name spec with
      | some v => p.settled overrides rest (values.insert (p.qualified name) v)
      | none => p.settled overrides rest values

/-- The keys of the attributes that start with the current time. -/
def clockKeys (p : Provider) : List String :=
  p.attributes.entries.filterMap fun (name, spec) =>
    match spec.start with
    | .currentTime => some (p.qualified name)
    | .absent | .fixed _ => none

/-- Fill in the current time where nothing is settled. -/
def fillClock (now : Moment) (values : Table String Value) (keys : List String) :
    Table String Value :=
  keys.foldl (fun values key =>
    if values.contains key then values else values.insert key (.moment now)) values

/-- The values of this provider's attributes on a new node, by key.  The overrides of other
providers are passed over; all attributes that start with the time get the same one. -/
def initialValues (p : Provider) (now : Moment) (overrides : Table String Value) :
    Except Error (Table String Value) := do
  let values ← p.settled overrides p.attributes.entries .empty
  return fillClock now values p.clockKeys

/-! ## Reading and writing -/

/-- The value of an attribute on a node, absent if the attribute is unknown. -/
def read (p : Provider) (node : Node) (name : String) : Value :=
  match p.attributes.get? name with
  | none => .null
  | some spec =>
      match spec.fact with
      | some fact => fact.read node
      | none => node.read (p.qualified name)

/-- Check a value and store it.  `view` is the name by which the caller addressed the attribute. -/
def write (p : Provider) (node : Node) (view name : String) (value : Value) (creating : Bool) :
    Except Error Node :=
  match p.attributes.get? name with
  | none => .ok node
  | some spec =>
      if !spec.settable then .error (.unsettable view name)
      else do
        if spec.creationRestricted then checkNotCreating view name creating
        let stored ← spec.check view name value
        return node.write (p.qualified name) stored

end Provider

end AttributeViews
