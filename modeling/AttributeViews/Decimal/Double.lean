/-!
# Double-precision numbers

A binary floating-point number of sixty-four bits, held as those bits: a sign, eleven bits of
exponent and fifty-two of fraction.  Holding the bits makes equality of numbers decidable and keeps
`-0.0` and the not-a-numbers apart; what the number is worth is read off by `significand` and
`exponent`.

* `Double.ofDecimal` — the number nearest to a decimal.
* `Double.same` — equality of worth, in which the two zeros are one and no not-a-number is equal to
  anything.
* `Double.isInteger` — equality of worth with an integer.
-/

namespace AttributeViews.Decimal

/-- A binary floating-point number by its sixty-four bits. -/
structure Double where
  bits : UInt64
deriving DecidableEq, Inhabited

namespace Double

/-- Whether the sign bit is set. -/
def negative (x : Double) : Bool := x.bits >>> 63 == 1

/-- The eleven exponent bits. -/
def biased (x : Double) : Nat := ((x.bits >>> 52) &&& 0x7ff).toNat

/-- The fifty-two fraction bits. -/
def fraction (x : Double) : Nat := (x.bits &&& 0xfffffffffffff).toNat

/-- Neither infinite nor a not-a-number. -/
def isFinite (x : Double) : Bool := x.biased != 0x7ff

/-- All exponent bits set and a fraction. -/
def isNaN (x : Double) : Bool := x.biased == 0x7ff && x.fraction != 0

/-- The integer `m` of the magnitude `m * 2 ^ q` of a finite number. -/
def significand (x : Double) : Nat :=
  if x.biased == 0 then x.fraction else Nat.pow 2 52 + x.fraction

/-- The integer `q` of the magnitude `m * 2 ^ q` of a finite number. -/
def exponent (x : Double) : Int :=
  if x.biased == 0 then -1074 else (x.biased : Int) - 1075

/-- A number that is zero, of either sign. -/
def isZero (x : Double) : Bool := x.isFinite && x.significand == 0

/-- The quiet not-a-number without a payload. -/
def nan : Double := ⟨0x7ff8000000000000⟩

/-- Infinity of either sign. -/
def infinity (negative : Bool) : Double :=
  ⟨if negative then 0xfff0000000000000 else 0x7ff0000000000000⟩

/-- Set the sign bit of a non-negative number. -/
def withSign (negative : Bool) (x : Double) : Double :=
  if negative then ⟨x.bits ||| 0x8000000000000000⟩ else x

/-- How many decimal digits a natural number has. -/
def digitCount (n : Nat) : Nat := (Nat.toDigits 10 n).length

/-- The number nearest to `digits * 10 ^ scale`.  A decimal beyond the range is infinite, one far
below the smallest number is zero; both are settled before any power is taken. -/
def ofDecimal (negative : Bool) (digits : Nat) (scale : Int) : Double :=
  let order := (digitCount digits : Int) + scale
  let magnitude :=
    if digits = 0 ∨ order < -400 then ⟨0⟩
    else if order > 400 then infinity false
    else ⟨(Float.ofScientific digits (scale < 0) scale.natAbs).toBits⟩
  withSign negative magnitude

/-- Equality of worth: the two zeros are one, and a not-a-number equals nothing. -/
def same (x y : Double) : Bool :=
  !x.isNaN && !y.isNaN && (x == y || (x.isZero && y.isZero))

/-- Whether a number is worth the integer `n`. -/
def isInteger (x : Double) (n : Int) : Bool :=
  x.isFinite
    && (x.significand == 0 || (x.negative == decide (n < 0)))
    && x.significand * Nat.pow 2 x.exponent.toNat == n.natAbs * Nat.pow 2 (-x.exponent).toNat

end Double

end AttributeViews.Decimal
