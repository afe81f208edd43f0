import AttributeViews.Journal
import AttributeViews.Provider
import AttributeViews.Registry.Inheritance

/-!
# Registries

A registry composes providers into a working set of views.  It is built from a list of providers
that must fit together: one provider for a view, every inherited view present, no views that inherit
each other in a circle, and no key that two attributes share.  The faults are looked for in this
order, and the first one is the error.

* `Registry.build` — a registry of providers and default values.
* `Registry.closure` — a view's provider and those it inherits from, nearest first.
* `Registry.create` — the same with the records that building leaves.
-/

namespace AttributeViews

/-- The providers, each behind those it inherits from, and the default values of their attributes by
key. -/
structure Registry where
  providers : List Provider
  defaults : Table String Value

/-! ## Faults of a list of providers -/

/-- The first name that stands in a list for the second time. -/
def firstRepeated? (seen : List String) : List String → Option String
  | [] => none
  | name :: rest =>
      if name ∈ seen then some name else firstRepeated? (name :: seen) rest

/-- The first provider of a view. -/
def providerOf? (providers : List Provider) (view : String) : Option Provider :=
  providers.find? (·.name == view)

/-- The views that a view inherits from directly; none if it has no provider. -/
def inheritedBy (providers : List Provider) (view : String) : List String :=
  match providerOf? providers view with
  | some p => p.inherited
  | none => []

/-- The first inherited view that has no provider, with the view that inherits it. -/
def missingView? (names : List String) (providers : List Provider) : Option (String × String) :=
  providers.findSome? fun p => (p.inherited.find? (· ∉ names)).map (p.name, ·)

/-- The declared keys, each with the view that declares it. -/
def declarations (providers : List Provider) : List (String × String) :=
  providers.flatMap fun p => p.keys.map (·, p.name)

/-- The first key that is declared again, with the view that declared it first and the one that did
so again. -/
def firstCollision? (owners : Table String String) :
    List (String × String) → Option (String × String × String)
  | [] => none
  | (key, view) :: rest =>
      match owners.get? key with
      | some first => some (key, first, view)
      | none => firstCollision? (owners.insert key view) rest

/-- The providers, each behind those it inherits from.  Providers that do not depend on each other
are visited in the order in which they were given. -/
def arrange (providers : List Provider) : Except Error (List Provider) :=
  let names := providers.map (·.name)
  match postorder (inheritedBy providers) names.length names with
  | .error cycle => .error (.inheritanceCycle cycle)
  | .ok ordered => .ok (ordered.filterMap (providerOf? providers))

/-- The providers in order if they fit together, or the first fault. -/
def fitTogether (providers : List Provider) : Except Error (List Provider) := do
  let names := providers.map (·.name)
  if let some view := firstRepeated? [] names then .error (.duplicateProvider view)
  if let some (view, inherited) := missingView? names providers then
    .error (.unknownInherited view inherited)
  let ordered ← arrange providers
  if let some (key, first, second) := firstCollision? .empty (declarations ordered) then
    .error (.attributeCollision key first second)
  return ordered

namespace Registry

/-! ## Looking up -/

/-- The provider of a view. -/
def find? (r : Registry) (view : String) : Option Provider := providerOf? r.providers view

/-- The names of the views, each behind those it inherits from. -/
def names (r : Registry) : List String := r.providers.map (·.name)

/-- The declared keys, in the order of the providers. -/
def keys (r : Registry) : List String := (declarations r.providers).map Prod.fst

/-- The names of the views in ascending order. -/
def supportedViews (r : Registry) : List String := sortNames r.names

/-- A view's provider and the ones it inherits from, nearest first. -/
def closure (r : Registry) (view : String) : List Provider :=
  (reachable (inheritedBy r.providers) r.names [view]).filterMap r.find?

/-! ## Building -/

/-- The keys of a table that are not declared. -/
def unknownKeys (keys : List String) (values : Table String Value) : List String :=
  values.keys.filter (· ∉ keys)

/-- A warning about every undeclared key. -/
def ignoredRecords (keys : List String) (values : Table String Value) : List Record :=
  (unknownKeys keys values).map fun key =>
    ⟨.warning, "Ignoring default value for unknown attribute " ++ key⟩

/-- The part of a table with the declared keys. -/
def knownEntries (keys : List String) (values : Table String Value) : Table String Value where
  entries := values.entries.filter (·.1 ∈ keys)
  nodup := (List.filter_sublist.map Prod.fst).nodup values.nodup

/-- The registry of providers that fit together; default values of unknown attributes are left
out. -/
def build (providers : List Provider) (defaults : Table String Value) : Except Error Registry := do
  let ordered ← fitTogether providers
  return ⟨ordered, knownEntries ((declarations ordered).map Prod.fst) defaults⟩

/-- Build a registry and warn about every default value that is left out. -/
def create (providers : List Provider) (defaults : Table String Value) : Logged Registry := do
  let r ← Logged.lift (build providers defaults)
  Logged.recordAll (ignoredRecords r.keys defaults)
  return r

end Registry

end AttributeViews
