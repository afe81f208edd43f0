import AttributeViews.Text.Hex

/-!
# Texts in documents

A document writes a text in one of four ways: between single or double quotes, on one line or over
several lines.  Double quotes allow escapes, single quotes take everything as it stands.  Each
reader starts behind the opening quotes and answers the text and what is left of the document.

* `readBasic`, `readLiteral` — on one line.
* `readLongBasic`, `readLongLiteral` — over several lines.
-/

namespace AttributeViews.Document

/-- A reader takes something off the front of a document, or fails. -/
abbrev Reader (α : Type) := List Char → Option (α × List Char)

/-- The white space within a line. -/
def isSpace (c : Char) : Bool := c = ' ' || c = '\t'

/-- The characters that a line may not hold. -/
def isIllegal (c : Char) : Bool := (c.toNat < 0x20 && c ≠ '\t') || c.toNat = 0x7f

/-- The characters that a text of several lines may not hold. -/
def isIllegalLong (c : Char) : Bool := isIllegal c && c ≠ '\n'

/-- Put a character in front of what a reader has read. -/
def prepend (c : Char) : Option (List Char × List Char) → Option (List Char × List Char) :=
  Option.map fun (text, rest) => (c :: text, rest)

/-- The character that hexadecimal digits stand for, which may not be a surrogate. -/
def scalar? (digits : List Char) : Option Char := do
  let n ← Text.hexValue? digits
  if n < 0xd800 ∨ (0xdfff < n ∧ n ≤ 0x10ffff) then some (Char.ofNat n) else none

/-- The character that an escape of one letter stands for. -/
def escaped? : Char → Option Char
  | 'b' => some (Char.ofNat 0x08)
  | 't' => some '\t'
  | 'n' => some '\n'
  | 'f' => some (Char.ofNat 0x0c)
  | 'r' => some '\r'
  | '"' => some '"'
  | '\\' => some '\\'
  | _ => none

/-- An escape, behind its backslash. -/
def readEscape : Reader Char
  | 'u' :: a :: b :: c :: d :: rest => (scalar? [a, b, c, d]).map (·, rest)
  | 'U' :: a :: b :: c :: d :: e :: f :: g :: h :: rest =>
      (scalar? [a, b, c, d, e, f, g, h]).map (·, rest)
  | c :: rest => (escaped? c).map (·, rest)
  | [] => none

theorem length_of_readEscape {cs rest : List Char} {c : Char}
    (h : readEscape cs = some (c, rest)) : rest.length < cs.length := by
  unfold readEscape at h
  split at h <;> simp only [Option.map_eq_some_iff, Prod.mk.injEq, reduceCtorEq] at h
  all_goals
    obtain ⟨_, _, _, rfl⟩ := h
    simp
  all_goals omega

/-! ## On one line -/

/-- A text up to its closing double quote. -/
def readBasic (cs : List Char) : Option (List Char × List Char) :=
  match cs with
  | [] => none
  | c :: rest =>
      if c = '"' then some ([], rest)
      else if c = '\\' then
        match _h : readEscape rest with
        | some (e, after) => prepend e (readBasic after)
        | none => none
      else if isIllegal c then none
      else prepend c (readBasic rest)
termination_by cs.length
decreasing_by
  · have := length_of_readEscape _h
    simp only [List.length_cons]
    omega
  · simp

/-- A text up to its closing single quote. -/
def readLiteral : Reader (List Char)
  | [] => none
  | c :: rest =>
      if c = '\'' then some ([], rest)
      else if isIllegal c then none
      else prepend c (readLiteral rest)

/-! ## Over several lines -/

/-- A line break directly behind the opening quotes does not belong to the text. -/
def skipFirstBreak : List Char → List Char
  | '\n' :: rest => rest
  | cs => cs

/-- The quotes of the text that stand directly in front of the closing ones, at most two. -/
def closingQuotes (quote : Char) : List Char → List Char × List Char
  | a :: b :: rest =>
      if a = quote then
        if b = quote then ([quote, quote], rest) else ([quote], b :: rest)
      else ([], a :: b :: rest)
  | [a] => if a = quote then ([quote], []) else ([], [a])
  | [] => ([], [])

/-- What a backslash at the end of a line leaves out: blanks before the line break, and blanks and
line breaks after it. -/
def skipFold (cs : List Char) : Option (List Char) :=
  match cs.dropWhile isSpace with
  | [] => some []
  | '\n' :: rest => some (rest.dropWhile fun c => isSpace c || c = '\n')
  | _ => none

theorem length_dropWhile_le (p : Char → Bool) (cs : List Char) :
    (cs.dropWhile p).length ≤ cs.length :=
  (List.dropWhile_suffix p).length_le

theorem length_of_skipFold {cs rest : List Char} (h : skipFold cs = some rest) :
    rest.length ≤ cs.length := by
  unfold skipFold at h
  have hs := length_dropWhile_le isSpace cs
  split at h
  · cases h
    simp
  · next r hr =>
    cases h
    rw [hr] at hs
    have := length_dropWhile_le (fun c => isSpace c || c = '\n') r
    simp only [List.length_cons] at hs
    omega
  · cases h

/-- Whether a backslash in front of these characters folds lines together. -/
def startsFold : List Char → Bool
  | c :: _ => isSpace c || c = '\n'
  | [] => false

/-- A text of several lines up to its closing double quotes. -/
def readLongBasic (cs : List Char) : Option (List Char × List Char) :=
  match cs with
  | [] => none
  | '"' :: '"' :: '"' :: rest => some (closingQuotes '"' rest)
  | c :: rest =>
      if c = '\\' then
        if startsFold rest then
          match _h : skipFold rest with
          | some after => readLongBasic after
          | none => none
        else
          match _h : readEscape rest with
          | some (e, after) => prepend e (readLongBasic after)
          | none => none
      else if isIllegalLong c then none
      else prepend c (readLongBasic rest)
termination_by cs.length
decreasing_by
  · have := length_of_skipFold _h
    simp only [List.length_cons]
    omega
  · have := length_of_readEscape _h
    simp only [List.length_cons]
    omega
  · simp

/-- A text of several lines up to its closing single quotes. -/
def readLongLiteral : Reader (List Char)
  | [] => none
  | '\'' :: '\'' :: '\'' :: rest => some (closingQuotes '\'' rest)
  | c :: rest => if isIllegalLong c then none else prepend c (readLongLiteral rest)

/-- A text of either kind of quotes, on one line or over several. -/
def readText : Reader (List Char)
  | '"' :: '"' :: '"' :: rest => readLongBasic (skipFirstBreak rest)
  | '\'' :: '\'' :: '\'' :: rest => readLongLiteral (skipFirstBreak rest)
  | '"' :: rest => readBasic rest
  | '\'' :: rest => readLiteral rest
  | _ => none

end AttributeViews.Document
