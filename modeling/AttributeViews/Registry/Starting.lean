import AttributeViews.Registry
import AttributeViews.Value.Json

/-!
# What new nodes start out with

The values of a new node are computed by the providers in inheritance order from one map of
overrides: the defaults of the registry, overwritten by those of the call.  If any of them is
refused, there are no values at all.

* `Registry.initialAttributes` — the values.
* `Registry.seed` — a node with the values stored.
* `Registry.initial`, `Registry.prepare` — the same with their records.
* `Registry.dumpInitial` — the values as a JSON text.
-/

namespace AttributeViews

namespace Registry

/-- The values of providers one after the other. -/
def startAll (now : Moment) (overrides : Table String Value) :
    List Provider → Table String Value → Except Error (Table String Value)
  | [], values => .ok values
  | p :: rest, values => do
      let own ← p.initialValues now overrides
      startAll now overrides rest (values.update own)

/-- The values that a new node starts out with.  Overrides of the call win over the registry's
defaults, also by being absent. -/
def initialAttributes (r : Registry) (now : Moment) (overrides : Table String Value) :
    Except Error (Table String Value) :=
  startAll now (r.defaults.update overrides) r.providers .empty

/-- A node with its starting values, which replace what it held at their keys. -/
def seed (r : Registry) (now : Moment) (node : Node) (overrides : Table String Value) :
    Except Error Node := do
  let values ← r.initialAttributes now overrides
  return { node with attributes := node.attributes.update values }

/-! ## With records -/

/-- Compute the starting values and warn about overrides of unknown attributes. -/
def initial (r : Registry) (now : Moment) (overrides : Table String Value) :
    Logged (Table String Value) := do
  Logged.recordAll (ignoredRecords r.keys overrides)
  Logged.lift (r.initialAttributes now overrides)

/-- The starting values as a JSON text. -/
def dumpInitial (r : Registry) (now : Moment) (overrides : Table String Value) :
    Logged String := do
  let values ← r.initial now overrides
  Logged.lift (jsonOfAttributes values.entries)

/-- Store the starting values on a new node and record that. -/
def prepare (r : Registry) (now : Moment) (node : Node) (overrides : Table String Value) :
    Logged Node := do
  Logged.recordAll (ignoredRecords r.keys overrides)
  let node ← Logged.lift (r.seed now node overrides)
  Logged.record .debug ("Initialized attributes of " ++ node.describe)
  return node

end Registry

end AttributeViews
