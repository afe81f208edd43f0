import AttributeViews.Provider.Standard
import AttributeViews.Registry

/-!
# Registries of standard views

A registry is usually asked for by view names.  The basic view is always present, and the views that
a requested one inherits come along.

* `standardProviders` — the providers for requested views.
* `Registry.ofViews` — the registry for them.
-/

namespace AttributeViews

/-- The providers of the requested views and of all that they inherit from, the basic one first; the
first name that is not in the catalog is the error. -/
def standardProviders (views : List String) : Except Error (List Provider) :=
  match views.find? (· ∉ Provider.catalogNames) with
  | some view => .error (.unknownView view Provider.catalogNames)
  | none =>
      .ok ((reachable Provider.inheritedInCatalog Provider.catalogNames ("basic" :: views)).filterMap
        Provider.ofCatalog?)

namespace Registry

/-- The registry of standard views and of all that they inherit. -/
def buildOfViews (views : List String) (defaults : Table String Value) : Except Error Registry := do
  build (← standardProviders views) defaults

/-- Build the registry of the requested views and warn about every default value that is left
out. -/
def ofViews (views : List String) (defaults : Table String Value) : Logged Registry := do
  let providers ← Logged.lift (standardProviders views)
  create providers defaults

end Registry

end AttributeViews
