import AttributeViews.Document.Text
import AttributeViews.Value

/-!
# Numbers in documents

Integers are written in base ten with an optional sign, or in base sixteen, eight or two with a
leading mark; a number with a fraction or an exponent is a floating-point one.  Single underscores
may stand between digits.

* `digitGroups` — digits with their underscores.
* `readNumber` — the number at the front of a document.
* `readSpecial` — infinity and the not-a-number.
-/

namespace AttributeViews.Document

/-- Digits, with single underscores between them left out. -/
def digitGroups (isDigit : Char → Bool) : List Char → List Char × List Char
  | [] => ([], [])
  | [c] => if isDigit c then ([c], []) else ([], [c])
  | c :: d :: rest =>
      if isDigit c then
        let (digits, left) := digitGroups isDigit (d :: rest)
        (c :: digits, left)
      else if c = '_' ∧ isDigit d then
        let (digits, left) := digitGroups isDigit rest
        (d :: digits, left)
      else ([], c :: d :: rest)

/-- Digits of which the first one is not behind an underscore; at least one. -/
def readDigits (isDigit : Char → Bool) : Reader (List Char)
  | [] => none
  | c :: rest => if isDigit c then some (digitGroups isDigit (c :: rest)) else none

/-- Whether a character is a digit of base ten. -/
def isDecimal (c : Char) : Bool := '0' ≤ c && c ≤ '9'

/-- Whether a character is a digit of a base up to sixteen. -/
def isDigitOf (base : Nat) (c : Char) : Bool := (Text.hexDigitValue? c).any (· < base)

/-- The number that digits stand for in a base, the highest digit first. -/
def valueOfDigits (base : Nat) (digits : List Char) : Nat :=
  digits.foldl (fun n c => base * n + (Text.hexDigitValue? c).getD 0) 0

/-- An integer in the base that its mark says. -/
def readMarked : Reader Value
  | '0' :: mark :: rest => do
      let base ← match mark with
        | 'x' => some 16
        | 'o' => some 8
        | 'b' => some 2
        | _ => none
      let (digits, rest) ← readDigits (isDigitOf base) rest
      return (.int (valueOfDigits base digits), rest)
  | _ => none

/-- An optional sign: whether it is a minus. -/
def readSign : List Char → Bool × List Char
  | '+' :: rest => (false, rest)
  | '-' :: rest => (true, rest)
  | cs => (false, cs)

/-- The digits in front of the point; a zero stands alone. -/
def readWhole : Reader (List Char)
  | '0' :: rest => some (['0'], rest)
  | cs => readDigits isDecimal cs

/-- A point and digits, if they are there. -/
def readFractionPart : List Char → Option (List Char) × List Char
  | '.' :: rest =>
      match readDigits isDecimal rest with
      | some (digits, rest) => (some digits, rest)
      | none => (none, '.' :: rest)
  | cs => (none, cs)

/-- An exponent, if it is there. -/
def readExponentPart : List Char → Option Int × List Char
  | c :: rest =>
      if c = 'e' ∨ c = 'E' then
        let (negative, digits) := readSign rest
        match readDigits isDecimal digits with
        | some (digits, rest) =>
            let size : Int := valueOfDigits 10 digits
            (some (if negative then -size else size), rest)
        | none => (none, c :: rest)
      else (none, c :: rest)
  | [] => (none, [])

/-- A number in base ten. -/
def readPlain : Reader Value := fun cs => do
  let (negative, cs) := readSign cs
  let (whole, cs) ← readWhole cs
  let (fraction, cs) := readFractionPart cs
  let (exponent, cs) := readExponentPart cs
  if fraction.isNone ∧ exponent.isNone then
    let size : Int := valueOfDigits 10 whole
    return (.int (if negative then -size else size), cs)
  else
    let behind := fraction.getD []
    let number := Decimal.Double.ofDecimal negative (valueOfDigits 10 (whole ++ behind))
      (exponent.getD 0 - behind.length)
    return (.float number, cs)

/-- A number with a mark in front, or one in base ten. -/
def readNumber : Reader Value := fun cs => (readMarked cs).orElse fun _ => readPlain cs

/-- Infinity or the not-a-number, with an optional sign. -/
def readSpecial : Reader Value := fun cs =>
  let (negative, cs) := readSign cs
  match cs with
  | 'i' :: 'n' :: 'f' :: rest => some (.float (.infinity negative), rest)
  | 'n' :: 'a' :: 'n' :: rest => some (.float .nan, rest)
  | _ => none

end AttributeViews.Document
