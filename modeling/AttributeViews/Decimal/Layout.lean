import AttributeViews.Decimal.Shortest

/-!
# Writing a decimal down

A decimal is written either positionally, with a fraction of at least one digit, or with an
exponent.  Which exponents are positional and how an exponent looks are the format's decisions, and
stand in one record.

* `Layout` — the decisions.
* `Layout.write` — a finite number in its shortest decimal, laid out.
-/

namespace AttributeViews.Decimal

/-- The decisions of a number format. -/
structure Layout where
  /-- The least decimal exponent that is written positionally. -/
  least : Int
  /-- The greatest decimal exponent that is written positionally. -/
  greatest : Int
  /-- How many digits an exponent has at least. -/
  exponentWidth : Nat

/-- Zeros in front of digits, up to a width. -/
def padLeft (width : Nat) (digits : List Char) : List Char :=
  List.replicate (width - digits.length) '0' ++ digits

/-- Digits with the point after the first `whole` of them; a missing whole part or fraction is one
zero. -/
def Layout.positional (digits : List Char) (whole : Int) : List Char :=
  if whole ≤ 0 then '0' :: '.' :: (List.replicate (-whole).toNat '0' ++ digits)
  else
    let w := whole.toNat
    let fraction := digits.drop w
    let front := digits.take w ++ List.replicate (w - digits.length) '0'
    front ++ '.' :: (if fraction.isEmpty then ['0'] else fraction)

/-- One digit, the rest as a fraction if there is one, and the exponent with its sign. -/
def Layout.scientific (l : Layout) (digits : List Char) (exponent : Int) : List Char :=
  let front := match digits with
    | [] => ['0']
    | [d] => [d]
    | d :: rest => d :: '.' :: rest
  front ++ 'e' :: (if exponent < 0 then '-' else '+')
    :: padLeft l.exponentWidth (Nat.toDigits 10 exponent.natAbs)

/-- A finite number in its shortest decimal. -/
def Layout.write (l : Layout) (x : Double) : List Char :=
  let d := shortest x
  let digits := Nat.toDigits 10 d.digits
  let whole := (digits.length : Int) + d.scale
  let body :=
    if l.least ≤ whole - 1 ∧ whole - 1 ≤ l.greatest then Layout.positional digits whole
    else l.scientific digits (whole - 1)
  if x.negative then '-' :: body else body

end AttributeViews.Decimal
