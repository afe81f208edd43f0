import AttributeViews.Decimal.Layout
import AttributeViews.Error
import AttributeViews.Permission.Notation
import AttributeViews.Value

/-!
# Written values

Attribute values are printed as JSON texts.  Stored values are first brought into a form that JSON
has: principals become their names, moments their written form, and permissions their notation.
Text is written in ASCII, with the other characters as UTF-16 escapes; numbers in their shortest
decimal, positionally from `1e-4` to below `1e16`.

* `Value.serialize` — the printable form of a stored value.
* `Value.json` — the JSON text of a value, or the error for one that has none.
-/

namespace AttributeViews

namespace Json

/-- How numbers with a fraction are laid out. -/
def numbers : Decimal.Layout where
  least := -4
  greatest := 15
  exponentWidth := 2

/-- The escape of a code unit. -/
def unitEscape (unit : Nat) : List Char := '\\' :: 'u' :: Text.hex 4 unit

/-- What stands for a character in a JSON text. -/
def escape (c : Char) : List Char :=
  if c = '"' ∨ c = '\\' then ['\\', c]
  else if c = '\n' then ['\\', 'n']
  else if c = '\r' then ['\\', 'r']
  else if c = '\t' then ['\\', 't']
  else if c.toNat = 0x08 then ['\\', 'b']
  else if c.toNat = 0x0c then ['\\', 'f']
  else if 0x20 ≤ c.toNat ∧ c.toNat ≤ 0x7e then [c]
  else if c.toNat < 0x10000 then unitEscape c.toNat
  else
    let offset := c.toNat - 0x10000
    unitEscape (0xd800 + offset / 0x400) ++ unitEscape (0xdc00 + offset % 0x400)

/-- A text between double quotes. -/
def quote (s : String) : String := String.ofList ('"' :: s.toList.flatMap escape ++ ['"'])

/-- A number, with words for those that are not finite. -/
def number (x : Decimal.Double) : String :=
  if x.isNaN then "NaN"
  else if x.isFinite then String.ofList (numbers.write x)
  else if x.negative then "-Infinity" else "Infinity"

/-- Written parts between brackets. -/
def array (parts : List String) : String := "[" ++ ", ".intercalate parts ++ "]"

/-- Written keys and values between braces. -/
def object (members : List (String × String)) : String :=
  "\x7b" ++ ", ".intercalate (members.map fun m => m.1 ++ ": " ++ m.2) ++ "\x7d"

end Json

namespace Value

/-- The form of a stored value in which it is printed. -/
def serialize : Value → Value
  | principal p => text p.name
  | moment m => text m.iso
  | permissions s => text s.render
  | frozenset xs =>
      match xs.mapM permission? with
      | some ps => text (PermissionSet.ofList ps).render
      | none => frozenset xs
  | v => v

/-- The text of a key of a written table, which is always quoted. -/
def jsonKey : Value → Except Error String
  | text s => .ok (Json.quote s)
  | float x => .ok (Json.quote (Json.number x))
  | bool b => .ok (Json.quote (if b then "true" else "false"))
  | null => .ok (Json.quote "null")
  | int n => .ok (Json.quote (toString n))
  | v => .error (.invalidKey v.familyTypeName)

mutual
/-- The text of a value, which only plain data has. -/
def json : Value → Except Error String
  | null => .ok "null"
  | bool b => .ok (if b then "true" else "false")
  | int n => .ok (toString n)
  | float x => .ok (Json.number x)
  | text s => .ok (Json.quote s)
  | list xs | tuple xs => do return Json.array (← jsonAll xs)
  | dict entries => do return Json.object (← jsonMembers entries)
  | v => .error (.notSerializable v.typeName)

/-- The texts of values, in order. -/
def jsonAll : List Value → Except Error (List String)
  | [] => .ok []
  | x :: xs => do
      let part ← json x
      return part :: (← jsonAll xs)

/-- The written keys and values of a table. -/
def jsonMembers : List (Value × Value) → Except Error (List (String × String))
  | [] => .ok []
  | (k, v) :: rest => do
      let key ← jsonKey k
      let part ← json v
      return (key, part) :: (← jsonMembers rest)
end

end Value

/-- The JSON text of named values, each in its printable form. -/
def jsonOfAttributes (attributes : List (String × Value)) : Except Error String := do
  let members ← attributes.mapM fun a => do
    return (Json.quote a.1, ← a.2.serialize.json)
  return Json.object members

end AttributeViews
