import AttributeViews.Error
import AttributeViews.Node

/-!
# Lookups

A live view does not hold a node but a lookup, which finds the node afresh for every operation.  So
a view follows its file through renames, and fails once the file is gone.

A lookup works on states of some type `σ`: `resolve` finds the node in a state, `store` puts a
changed node back into it.

* `Lookup.run` — an operation on the node that a lookup finds.
* `Lookup.static` — the lookup whose state is the node itself.
* `Lookup.inside` — a lookup in a part of a larger state.
-/

namespace AttributeViews

/-- A way to find a node in a state and to put it back. -/
structure Lookup (σ : Type) where
  resolve : σ → Except Error Node
  store : Node → σ → σ

/-- The outcome of an operation on a state: the state after it, and its answer or error.  A state
may have changed before an error. -/
abbrev Outcome (σ α : Type) := σ × Except Error α

namespace Lookup

variable {σ τ α : Type}

/-- Find the node, change it, and put it back; without a node the state stays as it is. -/
def run (l : Lookup σ) (change : Node → Outcome Node α) (state : σ) : Outcome σ α :=
  match l.resolve state with
  | .error e => (state, .error e)
  | .ok node =>
      let (node, answer) := change node
      (l.store node state, answer)

/-- Ask the node that is found now. -/
def ask (l : Lookup σ) (question : Node → Except Error α) (state : σ) : Except Error α := do
  question (← l.resolve state)

/-- The lookup of someone who already holds the node. -/
def static : Lookup Node where
  resolve node := .ok node
  store node _ := node

/-- The lookup in a part of a larger state, given how to take the part out and put it back. -/
def inside (part : τ → Except Error σ) (putBack : σ → τ → τ) (l : Lookup σ) : Lookup τ where
  resolve state := do l.resolve (← part state)
  store node state :=
    match part state with
    | .ok inner => putBack (l.store node inner) state
    | .error _ => state

end Lookup

end AttributeViews
