import AttributeViews.Identity
import AttributeViews.Text.Hex

/-!
# Identities stamped with a time

The identity of a node of the real world is a universally unique one of version 7: the milliseconds
of the clock in front, so that identities sort by age, and 74 random bits behind them.

* `stampedName` — the text of one.
* `IdSupply.stamped` — a supply of them from a time and a random number.
-/

namespace AttributeViews

/-- The identity of a time in milliseconds and a random number: 48 bits of the time, the version, 12
random bits, the variant and 62 random bits, in groups of 8, 4, 4, 4 and 12 digits. -/
def stampedName (milliseconds random : Nat) : String :=
  let time := Text.hex 12 (milliseconds % Nat.pow 2 48)
  let first := Text.hex 4 (7 * Nat.pow 2 12 + random / Nat.pow 2 62 % Nat.pow 2 12)
  let second := Text.hex 16 (Nat.pow 2 63 + random % Nat.pow 2 62)
  "-".intercalate ([time.take 8, time.drop 8, first, second.take 4, second.drop 4].map
    String.ofList)

/-- A supply of identities of one time, numbered on from a random number. -/
def IdSupply.stamped (milliseconds random : Nat) : IdSupply :=
  ⟨fun n => stampedName milliseconds (random + n), 0⟩

end AttributeViews
