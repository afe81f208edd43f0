import AttributeViews.Decimal.Double

/-!
# The shortest decimal of a number

The reals that round to a given double form an interval around it, reaching halfway to each of its
neighbours and containing its two ends exactly if the significand is even.  The shortest decimal is
the one of fewest digits in that interval and, among those, the nearest to the number.

* `Band` — the interval, as natural numbers over one denominator.
* `Band.holds` — whether a decimal lies in it.
* `shortest` — the search, from coarse decimal grids to fine ones: of each grid only the two points
  around the number have to be tried.
-/

namespace AttributeViews.Decimal

/-- The decimal `digits * 10 ^ scale`. -/
structure Digits where
  digits : Nat
  scale : Int
deriving DecidableEq

/-- The reals that round to a positive number: from `low` to `high` over `unit`, around `value`. -/
structure Band where
  low : Nat
  value : Nat
  high : Nat
  unit : Nat
  /-- Whether the two ends belong to it. -/
  closed : Bool

/-- The interval of a positive finite number.  Below a power of two the neighbour is nearer, unless
it is the smallest of its kind. -/
def Band.ofDouble (x : Double) : Band :=
  let m := 4 * x.significand
  let below := if x.fraction == 0 && x.biased > 1 then 1 else 2
  let up := Nat.pow 2 (x.exponent - 2).toNat
  { low := (m - below) * up
    value := m * up
    high := (m + 2) * up
    unit := Nat.pow 2 (2 - x.exponent).toNat
    closed := x.significand % 2 == 0 }

/-- Whether a decimal lies in the interval. -/
def Band.holds (b : Band) (d : Digits) : Bool :=
  let point := d.digits * Nat.pow 10 d.scale.toNat * b.unit
  let grid := Nat.pow 10 (-d.scale).toNat
  if b.closed then b.low * grid ≤ point && point ≤ b.high * grid
  else b.low * grid < point && point < b.high * grid

/-- The last point of the grid of step `10 ^ scale` that is not above the number. -/
def Band.below (b : Band) (scale : Int) : Nat :=
  b.value * Nat.pow 10 (-scale).toNat / (b.unit * Nat.pow 10 scale.toNat)

/-- Of two adjacent points of a grid the one nearer to the number, and the even one if they are
equally near. -/
def Band.nearer (b : Band) (n : Nat) (scale : Int) : Nat :=
  let middle := (2 * n + 1) * Nat.pow 10 scale.toNat * b.unit
  let twice := 2 * b.value * Nat.pow 10 (-scale).toNat
  if twice < middle then n else if middle < twice then n + 1 else if n % 2 = 0 then n else n + 1

/-- The decimal of a grid that rounds to the number, if the grid has one. -/
def Band.onGrid (b : Band) (scale : Int) : Option Digits :=
  let n := b.below scale
  match b.holds ⟨n, scale⟩, b.holds ⟨n + 1, scale⟩ with
  | true, true => some ⟨b.nearer n scale, scale⟩
  | true, false => some ⟨n, scale⟩
  | false, true => some ⟨n + 1, scale⟩
  | false, false => none

/-- Try the grids of step `10 ^ (scale - 1)`, `10 ^ (scale - 2)` and so on, `count` of them. -/
def Band.search (b : Band) : (count : Nat) → (scale : Int) → Option Digits
  | 0, _ => none
  | count + 1, scale => (b.onGrid (scale - 1)).orElse fun _ => b.search count (scale - 1)

/-- An order of ten above the number: the grid of one step less is the coarsest that can have a
point in the interval. -/
def Band.order (b : Band) : Int :=
  if b.unit ≤ b.value then Double.digitCount (b.value / b.unit) + 1
  else 3 - (Double.digitCount (b.unit / b.value) : Int)

/-- The whole decimal expansion of a positive finite number. -/
def expansion (x : Double) : Digits :=
  ⟨x.significand * Nat.pow 2 x.exponent.toNat * Nat.pow 5 (-x.exponent).toNat, min x.exponent 0⟩

/-- The shortest decimal that rounds to a finite number, without its sign.  Twenty grids below
the order always hold one; the whole expansion stands behind them. -/
def shortest (x : Double) : Digits :=
  if x.significand = 0 then ⟨0, 0⟩
  else
    let b := Band.ofDouble x
    (b.search 20 b.order).getD (expansion x)

end AttributeViews.Decimal
