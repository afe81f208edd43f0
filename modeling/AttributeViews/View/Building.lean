import AttributeViews.Registry
import AttributeViews.View

/-!
# Building live views

A live view is built after the views that it inherits, which are handed to it.  Within one request
every view is built once, however many views inherit it; another request builds its own.

The posix and dos views work only with the inherited views of the standard make.  If a registry has
other providers for those names, building ends with an error, and what was built before it has been
built.

* `View.make` — one view from the inherited ones.
* `Registry.buildOrder` — the views that a request builds, in order.
* `Registry.getView` — a request.
-/

namespace AttributeViews

variable {σ : Type}

namespace View

/-- A new instance of the view of a provider, with the inherited views that it is handed. -/
def make (p : Provider) (serial : Nat) (lookup : Lookup σ) (inherited : List (String × View σ)) :
    Except Error (View σ) :=
  match p.form with
  | .basic => .ok (.basic ⟨serial, lookup⟩)
  | .owner => .ok (.owner ⟨serial, lookup⟩)
  | .posix =>
      match Table.find? "basic" inherited, Table.find? "owner" inherited with
      | some (.basic b), some (.owner o) => .ok (.posix ⟨serial, lookup, b, o⟩)
      | _, _ => .error .wrongInheritedView
  | .dos =>
      match Table.find? "basic" inherited with
      | some (.basic b) => .ok (.dos ⟨serial, lookup, b⟩)
      | _ => .error .wrongInheritedView
  | .plain => .ok (.plain serial lookup p.name inherited)

end View

/-- What a request has built so far. -/
structure Building (σ : Type) where
  /-- The number of the next instance. -/
  next : Nat
  /-- The views built, by name. -/
  built : Table String (View σ)
  /-- The names of the views that building was begun of, oldest first. -/
  begun : List String

/-- Nothing built yet. -/
def Building.start (serial : Nat) : Building σ := ⟨serial, .empty, []⟩

/-- Those of the named views that have been built, with their names. -/
def Building.pick (b : Building σ) (names : List String) : List (String × View σ) :=
  names.filterMap fun name => (b.built.get? name).map (name, ·)

namespace Registry

/-- The views that a request builds: the view and all it inherits from, each behind those that it
inherits itself. -/
def buildOrder (r : Registry) (view : String) : List String :=
  match postorder (inheritedBy r.providers) r.providers.length [view] with
  | .ok names => names
  | .error _ => []

/-- Build views one after the other. -/
def buildViews (r : Registry) (lookup : Lookup σ) :
    List String → Building σ → Building σ × Except Error Unit
  | [], b => (b, .ok ())
  | name :: rest, b =>
      match r.find? name with
      | none => r.buildViews lookup rest b
      | some p =>
          let begun := { b with next := b.next + 1, begun := b.begun ++ [name] }
          match View.make p b.next lookup (b.pick p.inherited) with
          | .error e => (begun, .error e)
          | .ok v => r.buildViews lookup rest { begun with built := b.built.insert name v }

/-- Build a view on a lookup, with instances numbered from `serial` on; nothing if the view is
unknown.  The answer comes with all that was built. -/
def getView (r : Registry) (view : String) (lookup : Lookup σ) (serial : Nat) :
    Building σ × Except Error (Option (View σ)) :=
  match r.find? view with
  | none => (.start serial, .ok none)
  | some _ =>
      match r.buildViews lookup (r.buildOrder view) (.start serial) with
      | (b, .error e) => (b, .error e)
      | (b, .ok ()) => (b, .ok (b.built.get? view))

end Registry

end AttributeViews
