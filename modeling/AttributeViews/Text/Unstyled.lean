/-!
# Text without terminal sequences

A terminal takes certain sequences of characters as commands, for colours and the like: the escape
character, an opening bracket, parameters, intermediate characters, and a final character that names
the command.  The three classes are ranges of ASCII that follow one another.  Text that is not meant
for a terminal is written without such sequences.

* `sequenceEnd?` — the characters behind a sequence, if there is one.
* `unstyled` — a text without its sequences.  **`length_of_sequenceEnd`** says that a sequence is
  never empty, so taking them out comes to an end.
-/

namespace AttributeViews.Text

/-- Whether a character is a parameter of a sequence: a digit or one of `:;<=>?`. -/
def isParameter (c : Char) : Bool := '0' ≤ c && c ≤ '?'

/-- Whether a character may stand between the parameters and the final character: from the space to
the slash. -/
def isIntermediate (c : Char) : Bool := ' ' ≤ c && c ≤ '/'

/-- Whether a character ends a sequence: from the at sign to the tilde. -/
def isFinal (c : Char) : Bool := '@' ≤ c && c ≤ '~'

/-- The characters behind the parameters, the intermediate characters and the final one; nothing if
there is no final one. -/
def sequenceEnd? (cs : List Char) : Option (List Char) :=
  match (cs.dropWhile isParameter).dropWhile isIntermediate with
  | [] => none
  | c :: rest => if isFinal c then some rest else none

theorem length_of_sequenceEnd {cs rest : List Char} (h : sequenceEnd? cs = some rest) :
    rest.length < cs.length := by
  unfold sequenceEnd? at h
  have hs := ((List.dropWhile_suffix isIntermediate (l := cs.dropWhile isParameter)).trans
    (List.dropWhile_suffix isParameter)).length_le
  split at h
  · simp at h
  · next c r hd =>
    split at h
    · simp only [Option.some.injEq] at h
      subst h
      rw [hd] at hs
      simp only [List.length_cons] at hs
      omega
    · simp at h

/-- Characters without the sequences among them. -/
def unstyledChars (cs : List Char) : List Char :=
  match cs with
  | [] => []
  | '\x1b' :: '[' :: rest =>
      match _h : sequenceEnd? rest with
      | some after => unstyledChars after
      | none => '\x1b' :: unstyledChars ('[' :: rest)
  | c :: rest => c :: unstyledChars rest
termination_by cs.length
decreasing_by
  · have := length_of_sequenceEnd _h
    simp only [List.length_cons]
    omega
  · simp
  · simp

/-- A text without the sequences in it. -/
def unstyled (s : String) : String := String.ofList (unstyledChars s.toList)

end AttributeViews.Text
