import AttributeViews.View.Building

/-!
# Building views on demand

A request begins with the view that is wanted.  The views that it inherits are built first, each in
the same way, and then its provider is called and handed all of them.  What has been built is kept
by name until the request is over, so a view that is inherited along two ways is built on the first
one and found on the second.

* `ProviderCall` — a call of a provider for its live view.
* `Request` — what a request has done so far.
* `Registry.buildView` — a view, with all that it inherits from.
* `Registry.viewOnDemand` — a whole request.
-/

namespace AttributeViews

variable {σ : Type}

/-- A call of a provider for its live view. -/
structure ProviderCall (σ : Type) where
  provider : Provider
  /-- The number of the instance that is made. -/
  serial : Nat
  /-- The inherited views, by name. -/
  handed : List (String × View σ)

/-- What comes of a call. -/
def ProviderCall.answer (c : ProviderCall σ) (lookup : Lookup σ) : Except Error (View σ) :=
  View.make c.provider c.serial lookup c.handed

/-- What a request has done so far. -/
structure Request (σ : Type) where
  /-- The number of the next instance. -/
  next : Nat
  /-- The views built, by name. -/
  built : Table String (View σ)
  /-- The calls of providers, oldest first. -/
  calls : List (ProviderCall σ)

/-- Why building a view ends early. -/
inductive BuildStop where
  | refused (e : Error)
  | unknownView
  /-- Views are nested deeper than was allowed for. -/
  | tooDeep
deriving DecidableEq

/-- Statements of a request. -/
abbrev Demand (σ : Type) := EStateM BuildStop (Request σ)

namespace Request

/-- Nothing done yet. -/
def start (serial : Nat) : Request σ := ⟨serial, .empty, []⟩

/-- The names of the providers that were called, oldest first. -/
def names (s : Request σ) : List String := s.calls.map (·.provider.name)

end Request

namespace Demand

/-- The view that has been built of some name. -/
def built? (view : String) : Demand σ (Option (View σ)) := do
  let s ← get
  return s.built.get? view

/-- Call a provider for a new instance. -/
def call (p : Provider) (lookup : Lookup σ) (handed : List (String × View σ)) :
    Demand σ (View σ) := do
  let s ← get
  let call : ProviderCall σ := ⟨p, s.next, handed⟩
  set { s with next := s.next + 1, calls := s.calls ++ [call] }
  match call.answer lookup with
  | .ok v => return v
  | .error e => throw (.refused e)

/-- Keep a view that has been built, under its name. -/
def keep (view : String) (v : View σ) : Demand σ Unit :=
  modify fun s => { s with built := s.built.insert view v }

end Demand

namespace Registry

/-- Build a view unless it has been built.  Views do not inherit each other in circles, so `depth`
need not exceed the number of views. -/
def buildView (r : Registry) (lookup : Lookup σ) : (depth : Nat) → String → Demand σ (View σ)
  | 0, _ => throw .tooDeep
  | depth + 1, view => do
      match ← Demand.built? view with
      | some v => return v
      | none =>
          match r.find? view with
          | none => throw .unknownView
          | some p =>
              let handed ← p.inherited.mapM fun name => do
                let v ← r.buildView lookup depth name
                return (name, v)
              let v ← Demand.call p lookup handed
              Demand.keep view v
              return v

/-- Build a view on a lookup; nothing if the view is unknown. -/
def viewOnDemand (r : Registry) (view : String) (lookup : Lookup σ) :
    Demand σ (Option (View σ)) :=
  match r.find? view with
  | none => return none
  | some _ => do
      let v ← r.buildView lookup (r.names.length + 1) view
      return some v

end Registry

end AttributeViews
