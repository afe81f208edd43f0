import AttributeViews.Journal

/-!
# Identities of new nodes

New nodes get their identities from a supply, one after the other.  An identity that has been given
out is not given out again, also if the node that it was meant for is never made.

* `IdSupply` — the identities, and how many have been given out.
* `Issuing` — computations that may take identities; **`Issuing.fresh`** takes the next one.
-/

namespace AttributeViews

/-- A sequence of identities, of which the first ones have been given out. -/
structure IdSupply where
  name : Nat → String
  issued : Nat

namespace IdSupply

/-- The identity that is given out next. -/
def next (s : IdSupply) : String := s.name s.issued

/-- The supply after one more identity has been given out. -/
def advance (s : IdSupply) : IdSupply := { s with issued := s.issued + 1 }

end IdSupply

/-- A computation that may take identities from a supply.  The supply after it is known also if it
fails. -/
def Issuing (α : Type) := IdSupply → IdSupply × Logged α

namespace Issuing

variable {α β : Type}

/-- A computation that takes no identity. -/
def lift (x : Logged α) : Issuing α := fun supply => (supply, x)

/-- Take the next identity. -/
def fresh : Issuing String := fun supply => (supply.advance, pure supply.next)

/-- Go on with a value and the supply that is left; after an error there is nothing to go on
with. -/
def andThen (x : Issuing α) (f : α → Issuing β) : Issuing β := fun supply =>
  match x supply with
  | (supply, ⟨records, .error e⟩) => (supply, ⟨records, .error e⟩)
  | (supply, ⟨records, .ok a⟩) =>
      let (supply, y) := f a supply
      (supply, ⟨records ++ y.records, y.result⟩)

instance : Monad Issuing where
  pure a := lift (pure a)
  bind := andThen

end Issuing

end AttributeViews
