import AttributeViews.Document.Moment
import AttributeViews.Document.Number
import AttributeViews.Document.Section
import AttributeViews.Document.Text
import AttributeViews.Table

/-!
# Reading documents

Documents are written in TOML 1.0.  A document is a sequence of statements, one on a line: a key
with its value, the header of a table, or the header of a table in an array.  Comments start with
`#` and end with the line.  A document with a fault anywhere is no document at all.

* `readValue` — the value at the front of the characters.
* `readStatements` — the statements one after the other.
* `parse` — the tables of a whole document.
-/

namespace AttributeViews.Document

/-! ## Gaps and keys -/

/-- The characters behind the white space of a line. -/
def skipSpace (cs : List Char) : List Char := cs.dropWhile isSpace

/-- The characters behind a comment, from the line break on; nothing if it holds an illegal one. -/
def skipComment : List Char → Option (List Char)
  | '#' :: rest =>
      let comment := rest.takeWhile (· ≠ '\n')
      if comment.any isIllegal then none else some (rest.drop comment.length)
  | cs => some cs

/-- The characters behind white space, line breaks and comments. -/
def skipGap (inComment : Bool) : List Char → Option (List Char)
  | [] => some []
  | c :: rest =>
      if inComment then
        if c = '\n' then skipGap false rest
        else if isIllegal c then none
        else skipGap true rest
      else if isSpace c ∨ c = '\n' then skipGap false rest
      else if c = '#' then skipGap true rest
      else some (c :: rest)

/-- The characters of a key without quotes. -/
def isKeyChar (c : Char) : Bool := c.isAlphanum || c = '-' || c = '_'

/-- One part of a key, with quotes or without. -/
def readKeyPart : Reader String
  | '"' :: rest => (readBasic rest).map fun (text, rest) => (String.ofList text, rest)
  | '\'' :: rest => (readLiteral rest).map fun (text, rest) => (String.ofList text, rest)
  | cs =>
      let key := cs.takeWhile isKeyChar
      if key.isEmpty then none else some (String.ofList key, cs.drop key.length)

/-- A key of parts with points between them. -/
def readKey : (fuel : Nat) → Reader (List String)
  | 0, _ => none
  | fuel + 1, cs => do
      let (part, cs) ← readKeyPart cs
      match skipSpace cs with
      | '.' :: rest => do
          let (parts, rest) ← readKey fuel (skipSpace rest)
          return (part :: parts, rest)
      | rest => return ([part], rest)

/-- One given character. -/
def expect (mark : Char) : List Char → Option (List Char)
  | [] => none
  | c :: rest => if c = mark then some rest else none

/-! ## Values -/

/-- A value that holds no others. -/
def readScalar : Reader Value := fun cs =>
  match cs with
  | 't' :: 'r' :: 'u' :: 'e' :: rest => some (.bool true, rest)
  | 'f' :: 'a' :: 'l' :: 's' :: 'e' :: rest => some (.bool false, rest)
  | '"' :: _ | '\'' :: _ => (readText cs).map fun (text, rest) => (.text (String.ofList text), rest)
  | _ =>
      (readCalendar cs).orElse fun _ => (readNumber cs).orElse fun _ => readSpecial cs

mutual
/-- A value.  The fuel bounds how deep values are nested and how many stand beside each other; twice
the length of the document is enough. -/
def readValue : (fuel : Nat) → Reader Value
  | 0, _ => none
  | fuel + 1, '[' :: rest => do
      let rest ← skipGap false rest
      let (values, rest) ← readItems fuel rest
      return (.list values, rest)
  | fuel + 1, '\x7b' :: rest => do
      match skipSpace rest with
      | '\x7d' :: rest => return (.dict [], rest)
      | rest => do
          let (entries, rest) ← readMembers fuel [] rest
          return (.dict (Entries.values entries), rest)
  | _ + 1, cs => readScalar cs

/-- The values of an array up to its closing bracket; the last one may be followed by a comma. -/
def readItems : (fuel : Nat) → Reader (List Value)
  | 0, _ => none
  | _ + 1, ']' :: rest => some ([], rest)
  | fuel + 1, cs => do
      let (value, rest) ← readValue fuel cs
      match ← skipGap false rest with
      | ']' :: rest => return ([value], rest)
      | ',' :: rest => do
          let (values, rest) ← readItems fuel (← skipGap false rest)
          return (value :: values, rest)
      | _ => none

/-- The keys and values of a table on one line, up to its closing brace. -/
def readMembers : (fuel : Nat) → Entries → Reader Entries
  | 0, _, _ => none
  | fuel + 1, entries, cs => do
      let (path, rest) ← readKey fuel cs
      let rest ← expect '=' rest
      let (value, rest) ← readValue fuel (skipSpace rest)
      let entries ← assignHere 0 value path entries
      match skipSpace rest with
      | '\x7d' :: rest => return (entries, rest)
      | ',' :: rest => readMembers fuel entries (skipSpace rest)
      | _ => none
end

/-! ## Statements -/

/-- Where the reading of a document stands: the tables so far, the header of the current section and
its number. -/
structure Progress where
  entries : Entries
  header : List String
  current : Nat

/-- A header in single brackets, behind the first one. -/
def readHeader (fuel : Nat) (p : Progress) : Reader Progress := fun cs => do
  let (path, rest) ← readKey fuel (skipSpace cs)
  let entries ← declare path p.entries
  let rest ← expect ']' rest
  return (⟨entries, path, p.current + 1⟩, rest)

/-- A header in double brackets, behind the first two. -/
def readDoubleHeader (fuel : Nat) (p : Progress) : Reader Progress := fun cs => do
  let (path, rest) ← readKey fuel (skipSpace cs)
  let entries ← append path p.entries
  let rest ← expect ']' (← expect ']' rest)
  return (⟨entries, path, p.current + 1⟩, rest)

/-- A key and its value. -/
def readAssignment (fuel : Nat) (p : Progress) : Reader Progress := fun cs => do
  let (path, rest) ← readKey fuel cs
  let rest ← expect '=' rest
  let (value, rest) ← readValue fuel (skipSpace rest)
  let entries ← assign p.header p.current path value p.entries
  return ({ p with entries := entries }, rest)

/-- What stands on a line in front of its comment. -/
def readStatement (fuel : Nat) (p : Progress) : Reader Progress := fun cs =>
  match cs with
  | [] | '\n' :: _ | '#' :: _ => some (p, cs)
  | '[' :: '[' :: rest => readDoubleHeader fuel p rest
  | '[' :: rest => readHeader fuel p rest
  | cs => readAssignment fuel p cs

/-- The lines of a document one after the other.  The fuel of the first argument bounds their
number, that of the second what a statement needs. -/
def readStatements : (lines fuel : Nat) → Progress → List Char → Option Progress
  | 0, _, _, _ => none
  | lines + 1, fuel, p, cs => do
      let (p, rest) ← readStatement fuel p (skipSpace cs)
      match ← skipComment (skipSpace rest) with
      | [] => return p
      | '\n' :: rest => readStatements lines fuel p rest
      | _ => none

/-- Line breaks of two characters count as one. -/
def joinBreaks : List Char → List Char
  | '\r' :: '\n' :: rest => '\n' :: joinBreaks rest
  | c :: rest => c :: joinBreaks rest
  | [] => []

/-- The table of a whole document; nothing if the text is no document. -/
def parse (text : String) : Option (Table String Value) := do
  let cs := joinBreaks text.toList
  let p ← readStatements (cs.length + 1) (2 * cs.length + 2) ⟨[], [], 0⟩ cs
  return .ofList (p.entries.map fun (key, item) => (key, item.value))

end AttributeViews.Document
