import AttributeViews.Registry

/-!
# The closure turn by turn

A walk along inheritance keeps a queue of views.  A turn takes the one in front off the queue.  If
its provider has been found before, that is all; otherwise it is found now, and the views that it
inherits are queued behind the others.  So a view may wait in the queue several times, and the queue
may grow from turn to turn.

* `Walk` — what has been found, and what waits.
* `Registry.turn`, `Registry.turns` — one turn of a walk, and several in a row.
-/

namespace AttributeViews

/-- The state of a walk along inheritance. -/
structure Walk where
  /-- The providers found so far. -/
  found : List Provider
  /-- The views that wait, with those among them that have been found before. -/
  queue : List String

/-- The walk from one view. -/
def Walk.start (view : String) : Walk := ⟨[], [view]⟩

namespace Registry

/-- One turn of a walk.  There is none if nothing waits, or if the view in front is unknown. -/
def turn (r : Registry) (w : Walk) : Option Walk :=
  match w.queue with
  | [] => none
  | view :: rest => (r.find? view).map fun p =>
      if w.found.any (·.name == p.name) then ⟨w.found, rest⟩
      else ⟨w.found ++ [p], rest ++ p.inherited⟩

/-- So many turns of a walk, if there are as many. -/
def turns (r : Registry) : Nat → Walk → Option Walk
  | 0, w => some w
  | n + 1, w => (r.turn w).bind (r.turns n)

end Registry

end AttributeViews
