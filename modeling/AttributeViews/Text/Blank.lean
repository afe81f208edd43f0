/-!
# Blanks

The blank characters are the white space of running text: the ASCII blanks, the four information
separators, the next-line control, and the spaces and separators beyond ASCII.

* `isBlank` — the table.
* `trim` — a text without the blanks at its two ends.
-/

namespace AttributeViews.Text

/-- The blank code points: first and last of each range, ascending. -/
def blanks : List (Nat × Nat) :=
  [(0x09, 0x0d), (0x1c, 0x20), (0x85, 0x85), (0xa0, 0xa0), (0x1680, 0x1680), (0x2000, 0x200a),
   (0x2028, 0x2029), (0x202f, 0x202f), (0x205f, 0x205f), (0x3000, 0x3000)]

/-- Whether a character is white space. -/
def isBlank (c : Char) : Bool :=
  blanks.any fun range => range.1 ≤ c.toNat && c.toNat ≤ range.2

/-- Leave out the blanks at the end. -/
def trimEnd (cs : List Char) : List Char := (cs.reverse.dropWhile isBlank).reverse

/-- A text without the blanks at its two ends. -/
def trim (s : String) : String := String.ofList (trimEnd (s.toList.dropWhile isBlank))

end AttributeViews.Text
