import AttributeViews.Text.Hex
import AttributeViews.Text.Printable

/-!
# Quoted text

How a text is shown inside a message: between single quotes, or between double quotes if it holds
a single quote and no double one.  The quote in use and the backslash are escaped, as are tab, line
feed and carriage return by their letters, and every other unprintable character by its code.

* `quoteFor` — the choice of the quote.
* `escape` — what is written for one character.
* `quoted` — the whole form.
-/

namespace AttributeViews.Text

/-- The quote for a text: the double one if of the two only the single one stands in it. -/
def quoteFor (cs : List Char) : Char :=
  if '\'' ∈ cs ∧ '"' ∉ cs then '"' else '\''

/-- A character by its code, in the shortest of the three forms that holds it. -/
def escapeCode (c : Char) : List Char :=
  if c.toNat ≤ 0xff then '\\' :: 'x' :: hex 2 c.toNat
  else if c.toNat ≤ 0xffff then '\\' :: 'u' :: hex 4 c.toNat
  else '\\' :: 'U' :: hex 8 c.toNat

/-- What stands for a character between quotes. -/
def escape (quote c : Char) : List Char :=
  if c = quote ∨ c = '\\' then ['\\', c]
  else if c = '\t' then ['\\', 't']
  else if c = '\n' then ['\\', 'n']
  else if c = '\r' then ['\\', 'r']
  else if isPrintable c then [c]
  else escapeCode c

/-- A text in quotes. -/
def quoted (s : String) : String :=
  let quote := quoteFor s.toList
  String.ofList (quote :: s.toList.flatMap (escape quote) ++ [quote])

end AttributeViews.Text
